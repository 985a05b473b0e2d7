import Chip8.Proofs.Overrides

/-!
# Chip8.Proofs.Usable

What accepted settings are good for.

The checks of the speeds ask for what must not be, a value less than one, and the check of the bloom
strength asks for what must be. To a NaN every comparison says no: it fails the check of the
strength and passes those of the speeds. And the checks ask nothing about whole numbers: a quotient
of two rates in which a floating-point number takes part is a floating-point number, of which no
frame can run that many cycles, unless it is replaced by one for being no greater.

Those are the only two ways in which accepted settings can be of no use (`usable_iff`).
-/

namespace Chip8

open Json (Value Members Misuse Number)

/-! ### Comparing floating-point numbers -/

section

open Float.Model (UnpackedFloat)

theorem Binary64.lt_iff (x y : Float) :
    x < y ↔ x.toModel.unpack.compare y.toModel.unpack = some .lt := by
  show decide (x.toModel < y.toModel) = true ↔ _
  rw [decide_eq_true_iff]
  exact beq_iff_eq

theorem Binary64.le_iff (x y : Float) :
    x ≤ y ↔ (x.toModel.unpack.compare y.toModel.unpack).any (·.isLE) = true := by
  show decide (x.toModel ≤ y.toModel) = true ↔ _
  rw [decide_eq_true_iff]
  rfl

theorem Binary64.beq_iff (x y : Float) :
    (x == y) = true ↔ x.toModel.unpack.compare y.toModel.unpack = some .eq := by
  show (x.toModel.unpack.compare y.toModel.unpack == some .eq) = true ↔ _
  exact beq_iff_eq

theorem Binary64.unpack_zero : (0.0 : Float).toModel.unpack = .zero .positive := rfl

theorem Binary64.unpack_one :
    (1.0 : Float).toModel.unpack = .finite .positive exponentUnit (-52) (by decide) := rfl

/-- **What is not less than one** is one at least, or a NaN. -/
theorem Binary64.not_lt_one_iff (x : Float) : ¬x < 1.0 ↔ 1.0 ≤ x ∨ x.isNaN = true := by
  rw [lt_iff, le_iff, unpack_one, show x.isNaN = x.toModel.unpack.isNaN from rfl]
  cases x.toModel.unpack with
  | infinity s => cases s <;> decide
  | notANumber => decide
  | zero s => cases s <;> decide
  | finite s m e hm =>
      cases s with
      | positive =>
          -- Exponents come first in a comparison, and then significands.
          have hswap : (compare e (-52)).then (compare m exponentUnit) =
              ((compare (-52) e).then (compare exponentUnit m)).swap := by
            rw [Ordering.swap_then, ← Std.OrientedOrd.eq_swap, ← Std.OrientedOrd.eq_swap]
          show ¬some ((compare e (-52)).then (compare m exponentUnit)) = some .lt ↔
            ((compare (-52) e).then (compare exponentUnit m)).isLE = true ∨ false = true
          rw [hswap]
          cases (compare (-52) e).then (compare exponentUnit m) <;> decide
      | negative =>
          refine iff_of_false (fun h => h rfl) fun h => ?_
          rcases h with h | h <;> cases h

/-- No NaN is one or more. -/
theorem Binary64.isNaN_eq_false {x : Float} (h : 1.0 ≤ x) : x.isNaN = false := by
  rw [le_iff, unpack_one] at h
  show x.toModel.unpack.isNaN = false
  cases hx : x.toModel.unpack with
  | notANumber =>
      rw [hx] at h
      cases h
  | infinity | zero | finite => rfl

/-- Both zeros are less than one. -/
theorem Binary64.lt_one_of_beq_zero {x : Float} (h : (x == 0.0) = true) : x < 1.0 := by
  rw [beq_iff, unpack_zero] at h
  rw [lt_iff, unpack_one]
  cases hx : x.toModel.unpack with
  | zero s => rfl
  | infinity s | finite s m e hm =>
      rw [hx] at h
      cases s <;> cases h
  | notANumber =>
      rw [hx] at h
      cases h

end

namespace Json

namespace Number

/-- One or more. No NaN is. -/
def AtLeastOne : Number → Prop
  | int n => 1 ≤ n
  | float f => 1.0 ≤ f

def IsNaN : Number → Prop
  | int _ => False
  | float f => f.isNaN = true

/-- Between zero and one. -/
def InUnit : Number → Prop
  | int n => 0 ≤ n ∧ n ≤ 1
  | float f => 0.0 ≤ f ∧ f ≤ 1.0

variable {a b n : Number}

theorem isBelowOne_eq_false_iff : n.isBelowOne = false ↔ n.AtLeastOne ∨ n.IsNaN := by
  cases n with
  | int n => simp [isBelowOne, AtLeastOne, IsNaN]
  | float f =>
      rw [isBelowOne, decide_eq_false_iff_not]
      exact Binary64.not_lt_one_iff f

theorem isUnit_iff : n.isUnit = true ↔ n.InUnit := by
  cases n <;> simp [isUnit, InUnit]

theorem AtLeastOne.not_isNaN (h : n.AtLeastOne) : ¬n.IsNaN := by
  cases n with
  | int n => exact id
  | float f =>
      rw [IsNaN, Binary64.isNaN_eq_false h]
      exact Bool.false_ne_true

/-- A number that passes for a speed is not zero. -/
theorem isZero_of_isBelowOne (h : n.isBelowOne = false) : n.isZero = false := by
  cases n with
  | int n =>
      simp only [isBelowOne, decide_eq_false_iff_not] at h
      simp only [isZero, beq_eq_false_iff_ne]
      omega
  | float f =>
      rw [isBelowOne, decide_eq_false_iff_not] at h
      rw [isZero, ← Bool.not_eq_true]
      exact fun hzero => h (Binary64.lt_one_of_beq_zero hzero)

/-- The first number divided by the second, rounded down and replaced by one where it is less, is a
whole number: both of them are whole, or the quotient is no greater than one. -/
inductive Counts (a b : Number) : Prop
  | whole (m n : Int) (ha : a = .int m) (hb : b = .int n)
  | one (x y : Float) (ha : a.toFloat = .ok x) (hb : b.toFloat = .ok y)
      (h : ¬floorQuotient x y > 1.0)

theorem toFloat_cases (n : Number) :
    (∃ f, n.toFloat = .ok f) ∨ n.toFloat = .error .tooLargeForFloat := by
  cases n with
  | float f => exact .inl ⟨f, rfl⟩
  | int n =>
      rw [toFloat]
      cases Binary64.ofInt? n with
      | some f => exact .inl ⟨f, rfl⟩
      | none => exact .inr rfl

/-- What a division by a number that is not zero comes to. -/
inductive Divides (a b : Number) : Prop
  | whole (m n : Int) (ha : a = .int m) (hb : b = .int n)
      (h : a.floorDiv b = .ok (.int (m.fdiv n)))
  | float (hnot : ∀ m n, a = .int m → b ≠ .int n) (x y : Float) (ha : a.toFloat = .ok x)
      (hb : b.toFloat = .ok y) (h : a.floorDiv b = .ok (.float (floorQuotient x y)))
  | tooLarge (hnot : ∀ m n, a = .int m → b ≠ .int n)
      (hfloat : ∀ x y, a.toFloat = .ok x → b.toFloat ≠ .ok y)
      (h : a.floorDiv b = .error .tooLargeForFloat)

theorem divides_of_isZero (hb : b.isZero = false) : Divides a b := by
  by_cases hwhole : ∃ m n, a = .int m ∧ b = .int n
  · obtain ⟨m, n, rfl, rfl⟩ := hwhole
    refine .whole m n rfl rfl (if_neg fun hzero => ?_)
    rw [isZero, hzero] at hb
    cases hb
  · have hnot : ∀ m n, a = .int m → b ≠ .int n := fun m n ha hb => hwhole ⟨m, n, ha, hb⟩
    have heq : a.floorDiv b = (do
        let x ← a.toFloat
        let y ← b.toFloat
        if b.isZero then .error .floatByZero else return .float (floorQuotient x y)) := by
      cases a with
      | float x => rfl
      | int m =>
          cases b with
          | float y => rfl
          | int n => exact absurd rfl (hnot m n rfl)
    rw [hb] at heq
    rcases a.toFloat_cases with ⟨x, hx⟩ | hx
    · rcases b.toFloat_cases with ⟨y, hy⟩ | hy
      · refine .float hnot x y hx hy ?_
        rw [heq, hx, hy]
        rfl
      · refine .tooLarge hnot (fun _ y _ hy' => ?_) ?_
        · rw [hy] at hy'
          cases hy'
        · rw [heq, hx, hy]
          rfl
    · refine .tooLarge hnot (fun x _ hx' => ?_) ?_
      · rw [hx] at hx'
        cases hx'
      · rw [heq, hx]
        rfl

/-- No number that passes for a speed is zero, so the only division that fails is one with a number
that is too large. -/
theorem eq_tooLargeForFloat {e : Misuse} (hb : b.isZero = false) (h : a.floorDiv b = .error e) :
    e = .tooLargeForFloat := by
  cases divides_of_isZero (a := a) hb with
  | whole m n _ _ hdiv | float _ x y _ _ hdiv =>
      rw [hdiv] at h
      cases h
  | tooLarge _ _ hdiv =>
      rw [hdiv] at h
      cases h
      rfl

/-- A whole number that is replaced by one where it is less is one at least. -/
theorem exists_atLeastOne_int (n : Int) :
    ∃ count : Int, atLeastOne (.int n) = .int count ∧ 1 ≤ count := by
  rw [atLeastOne]
  split
  · exact ⟨n, rfl, by omega⟩
  · exact ⟨1, rfl, Int.le_refl 1⟩

/-- **When a division counts.** -/
theorem counts_iff (hb : b.isZero = false) :
    (∃ q count, a.floorDiv b = .ok q ∧ q.atLeastOne = .int count ∧ 1 ≤ count) ↔ Counts a b := by
  cases divides_of_isZero (a := a) hb with
  | whole m n ha hb hdiv =>
      obtain ⟨count, hcount, hone⟩ := exists_atLeastOne_int (m.fdiv n)
      exact iff_of_true ⟨_, count, hdiv, hcount, hone⟩ (.whole m n ha hb)
  | float hnot x y hx hy hdiv =>
      rw [hdiv]
      constructor
      · intro hquotient
        obtain ⟨q, count, hq, hcount, -⟩ := hquotient
        cases hq
        refine .one x y hx hy fun hgreater => ?_
        rw [atLeastOne, if_pos hgreater] at hcount
        cases hcount
      · intro hcounts
        have hle : ¬floorQuotient x y > 1.0 := by
          cases hcounts with
          | whole m n ha hb => exact absurd hb (hnot m n ha)
          | one x' y' hx' hy' h =>
              rw [hx] at hx'
              rw [hy] at hy'
              cases hx'
              cases hy'
              exact h
        exact ⟨_, 1, rfl, if_neg hle, Int.le_refl 1⟩
  | tooLarge hnot hfloat hdiv =>
      rw [hdiv]
      constructor
      · intro hquotient
        obtain ⟨q, count, hq, -⟩ := hquotient
        cases hq
      · intro hcounts
        cases hcounts with
        | whole m n ha hb => exact absurd hb (hnot m n ha)
        | one x y hx hy _ => exact absurd hy (hfloat x y hx)

end Number

/-- A list of three whole numbers from 0 to 255. -/
def Value.IsTriple (v : Value) : Prop :=
  ∃ r g b, v = .array [r, g, b] ∧ ∀ x ∈ [r, g, b], ∃ n, x.int? = some n ∧ 0 ≤ n ∧ n ≤ 255

end Json

theorem Channel.int?_toValue (c : Channel) :
    ∃ n, c.toValue.int? = some n ∧ 0 ≤ n ∧ n ≤ 255 := by
  cases c with
  | level n =>
      have := n.toNat_lt
      exact ⟨n.toNat, rfl, by omega, by omega⟩
  | flag b => cases b <;> exact ⟨_, rfl, by decide, by decide⟩

theorem Color.isTriple_toValue (c : Color) : c.toValue.IsTriple := by
  refine ⟨_, _, _, rfl, fun x hx => ?_⟩
  simp only [List.mem_cons, List.not_mem_nil, or_false] at hx
  rcases hx with rfl | rfl | rfl <;> exact Channel.int?_toValue _

namespace Settings

variable {c standing : Settings} {members : Members}

/-- The settings can be worked with: the speeds are one or more, the bloom strength is between zero
and one, the colours are triples of channels, and frames have a whole number of cycles, one at
least. -/
structure Usable (c : Settings) : Prop where
  speeds : ∀ v ∈ c.speeds, ∃ n, v.number? = some n ∧ n.AtLeastOne
  strength : ∃ n, c.bloomStrength.number? = some n ∧ n.InUnit
  colors : ∀ color ∈ [c.fgColor, c.bgColor], color.toValue.IsTriple
  cycles : ∃ count, c.cyclesPerFrame = .ok (.int count) ∧ 1 ≤ count

theorem cyclesPerFrame_eq {clock frame : Number} (hclock : c.clockHz.number? = some clock)
    (hframe : c.frameHz.number? = some frame) :
    c.cyclesPerFrame = (clock.floorDiv frame).map Number.atLeastOne := by
  rw [cyclesPerFrame, Value.floorDiv, hclock, hframe]
  dsimp only
  cases clock.floorDiv frame <;> rfl

/-- **When accepted settings are usable.** Their bloom strength is between zero and one, their
colours are triples of channels, and their speeds are numbers that are one or more, or NaNs.
Counting the cycles of a frame fails only for a rate that is too large to be divided. The settings
are usable if and only if no speed is a NaN and the two rates are whole numbers, or their quotient
is no greater than one. -/
theorem usable_iff (h : standing.withOverrides members = .ok c) :
    (∃ n, c.bloomStrength.number? = some n ∧ n.InUnit) ∧
      (∀ color ∈ [c.fgColor, c.bgColor], color.toValue.IsTriple) ∧
      (∀ v ∈ c.speeds, ∃ n, v.number? = some n ∧ (n.AtLeastOne ∨ n.IsNaN)) ∧
      (∀ e, c.cyclesPerFrame = .error e → e = .tooLargeForFloat) ∧
      (c.Usable ↔ (∀ v ∈ c.speeds, ∀ n, v.number? = some n → ¬n.IsNaN) ∧
        ∃ clock frame, c.clockHz.number? = some clock ∧ c.frameHz.number? = some frame ∧
          clock.Counts frame) := by
  obtain ⟨hspeeds, strength, hstrength, hunit⟩ := of_withOverrides h
  obtain ⟨clock, hclock, -⟩ := hspeeds c.clockHz (by simp [speeds])
  obtain ⟨frame, hframe, hbelow⟩ := hspeeds c.frameHz (by simp [speeds])
  have hzero := Number.isZero_of_isBelowOne hbelow
  have hones : ∀ v ∈ c.speeds, ∃ n, v.number? = some n ∧ (n.AtLeastOne ∨ n.IsNaN) := by
    intro v hv
    obtain ⟨n, hn, hbelow⟩ := hspeeds v hv
    exact ⟨n, hn, Number.isBelowOne_eq_false_iff.mp hbelow⟩
  have hcycles : (∃ count, c.cyclesPerFrame = .ok (.int count) ∧ 1 ≤ count) ↔
      clock.Counts frame := by
    rw [← Number.counts_iff hzero, cyclesPerFrame_eq hclock hframe]
    cases clock.floorDiv frame <;> simp [Except.map]
  have hstrength : ∃ n, c.bloomStrength.number? = some n ∧ n.InUnit :=
    ⟨strength, hstrength, Number.isUnit_iff.mp hunit⟩
  refine ⟨hstrength, fun color _ => color.isTriple_toValue, hones, fun e he => ?_, ?_, ?_⟩
  · rw [cyclesPerFrame_eq hclock hframe] at he
    cases hdiv : clock.floorDiv frame with
    | ok q =>
        rw [hdiv] at he
        cases he
    | error e' =>
        rw [hdiv] at he
        cases he
        exact Number.eq_tooLargeForFloat hzero hdiv
  · intro husable
    constructor
    · intro v hv n hn
      obtain ⟨n', hn', hone⟩ := husable.speeds v hv
      obtain rfl : n = n' := Option.some.inj (hn.symm.trans hn')
      exact hone.not_isNaN
    · exact ⟨clock, frame, hclock, hframe, hcycles.mp husable.cycles⟩
  · intro hall
    obtain ⟨hnan, clock', frame', hclock', hframe', hcounts⟩ := hall
    obtain rfl : clock = clock' := Option.some.inj (hclock.symm.trans hclock')
    obtain rfl : frame = frame' := Option.some.inj (hframe.symm.trans hframe')
    refine ⟨fun v hv => ?_, hstrength, fun color _ => color.isTriple_toValue, hcycles.mpr hcounts⟩
    obtain ⟨n, hn, hone⟩ := hones v hv
    exact ⟨n, hn, hone.resolve_right (hnan v hv n hn)⟩

/-- A NaN for the scale and a broken number for a rate are accepted, and of no use. -/
theorem accepted_and_not_usable :
    let nan : Settings := { scale := .float (0.0 / 0.0) }
    let broken : Settings := { clockHz := .float 500.5 }
    withOverrides {} [("scale", .float (0.0 / 0.0))] = .ok nan ∧ ¬nan.Usable ∧
      withOverrides {} [("clock_hz", .float 500.5)] = .ok broken ∧ ¬broken.Usable := by
  intro nan broken
  have hnan : withOverrides {} [("scale", .float (0.0 / 0.0))] = .ok nan :=
    withOverrides_eq_ok_iff.mpr ⟨by decide, rfl⟩
  have hbroken : withOverrides {} [("clock_hz", .float 500.5)] = .ok broken :=
    withOverrides_eq_ok_iff.mpr ⟨by decide, rfl⟩
  refine ⟨hnan, fun husable => ?_, hbroken, fun husable => ?_⟩
  · exact ((usable_iff hnan).2.2.2.2.mp husable).1 nan.scale (by simp [speeds]) _ rfl rfl
  · obtain ⟨-, clock, frame, hclock, hframe, hcounts⟩ :=
      (usable_iff hbroken).2.2.2.2.mp husable
    cases hclock
    cases hframe
    cases hcounts with
    | whole m n ha hb => cases ha
    | one x y ha hb h =>
        cases ha
        cases hb
        exact absurd h (by decide)

end Settings

end Chip8
