import Chip8.Proofs.Surroundings

/-!
# Chip8.Proofs.RandomNumbers

The numbers that a machine draws, and what depends on them.

A source of numbers is as good as the sequence that it gives (`RandomSource.number`). A cycle draws
one number if it runs the one instruction for that, whatever its mask, and otherwise none. So after
any run the source is behind as many numbers as the run had such cycles (`source_after`), and the
k-th of them had the k-th number.

Nothing else of a machine depends on its source. Runs of machines that differ in their sources go
alike for as long as the numbers that are drawn agree in the bits that the masks let through
(`sourceless_after`).
-/

namespace Chip8

/-! ### Sequences of numbers -/

namespace RandomSource

variable {ρ : Type} [RandomSource ρ]

/-- The source behind its first `n` numbers. -/
def rest (source : ρ) : Nat → ρ
  | 0 => source
  | n + 1 => rest (draw source).2 n

/-- The number that is drawn after `k` others. -/
def number (source : ρ) (k : Nat) : Int := (draw (rest source k)).1

end RandomSource

/-- A source that counts the numbers it has given. -/
structure Counted (ρ : Type) where
  source : ρ
  given : Nat := 0

namespace Counted

open RandomSource

variable {ρ : Type} [RandomSource ρ]

instance : RandomSource (Counted ρ) where
  draw s := ((draw s.source).1, { source := (draw s.source).2, given := s.given + 1 })

theorem rest_eq (s : Counted ρ) (n : Nat) :
    rest s n = { source := rest s.source n, given := s.given + n } := by
  induction n generalizing s with
  | zero => rfl
  | succ n ih =>
      rw [rest, ih, rest]
      simp only [draw, Counted.mk.injEq, true_and]
      omega

/-- Counting makes no difference to the numbers. -/
theorem number_eq (s : Counted ρ) (k : Nat) : number s k = number s.source k := by
  rw [number, rest_eq]
  rfl

end Counted

namespace Machine

open RandomSource (draw rest number)

variable {ρ σ : Type} {m c : Machine ρ}

/-! ### Cycles that draw a number -/

/-- The machine with other numbers to draw. -/
def withSource (m : Machine ρ) (source : σ) : Machine σ := m.within source m.keypad

/-- Whether the next cycle draws a number. -/
def drawsNumber (m : Machine ρ) : Bool :=
  match m.instruction? with
  | some (.random _ _) => true
  | _ => false

theorem drawsNumber_iff :
    m.drawsNumber = true ↔ ∃ x mask, m.instruction? = some (.random x mask) := by
  unfold drawsNumber
  split
  · rename_i x mask hi
    exact iff_of_true rfl ⟨x, mask, hi⟩
  · rename_i hother
    refine iff_of_false Bool.false_ne_true fun hdraws => ?_
    obtain ⟨x, mask, hi⟩ := hdraws
    exact hother x mask hi

variable [RandomSource ρ] [RandomSource σ]

/-- The machine after a cycle that loads its next number. -/
def afterRandom (m : Machine ρ) (x : Fin 16) (mask : Fin 256) : Machine ρ :=
  ((m.withSource (rest m.source 1)).setV x (Bitwise.and (number m.source 0) mask.val)).next.tick

theorem cycle_of_random {x : Fin 16} {mask : Fin 256}
    (hi : m.instruction? = some (.random x mask)) : m.cycle = .done (m.afterRandom x mask) :=
  cycle_of_instruction? hi rfl

/-- **A cycle that draws no number does not depend on the source,** and leaves it alone. -/
theorem withSource_cycle (hdraws : ¬m.drawsNumber = true) (source : σ) :
    (m.withSource source).cycle = m.cycle.map (·.withSource source) := by
  refine map_cycle (f := (·.withSource source)) rfl rfl (fun _ => rfl) (fun _ => rfl)
    (fun _ => ?_) fun i hi => ?_
  · have hpoll : (m.withSource source).poll = m.poll.within source m.keypad :=
      within_scan m source _
    have hkeypad : m.poll.keypad = m.keypad := changesOnly_poll m .keypad (by decide)
    rw [hpoll, withSource, hkeypad]
  · have hsource : .source ∉ i.footprint := fun hmem => by
      obtain ⟨x, mask, rfl⟩ := Instruction.source_mem_footprint.mp hmem
      exact hdraws (drawsNumber_iff.mpr ⟨x, mask, hi⟩)
    have hkeypad : (m.perform i).state.keypad = m.keypad :=
      changesOnly_perform m i .keypad i.keypad_notMem_footprint
    have hwithin : (m.withSource source).perform i = (m.perform i).map (·.within source m.keypad) :=
      within_perform hsource fun _ _ => rfl
    rw [hwithin]
    refine Outcome.map_congr ?_
    rw [withSource, hkeypad]

theorem source_cycle (hdraws : ¬m.drawsNumber = true) : m.cycle.state.source = m.source := by
  refine keeps_cycle m (c := .source) (by decide) fun i hi hmem => ?_
  obtain ⟨x, mask, rfl⟩ := Instruction.source_mem_footprint.mp hmem
  exact hdraws (drawsNumber_iff.mpr ⟨x, mask, hi⟩)

/-! ### Runs -/

/-- The machines that those cycles of a run set out from that draw a number, in order. -/
def draws (m : Machine ρ) (run : List Operation) : List (Machine ρ) :=
  (m.starts run).filter drawsNumber

theorem draws_cons_of_ne (m : Machine ρ) {op : Operation} (hop : op ≠ .cycle)
    (run : List Operation) : m.draws (op :: run) = (m.operate op).draws run := by
  rw [draws, starts_cons_of_ne m hop, draws]

theorem draws_cons_of_drawsNumber (hdraws : m.drawsNumber = true) (run : List Operation) :
    m.draws (.cycle :: run) = m :: (m.operate .cycle).draws run := by
  rw [draws, starts, List.filter_cons_of_pos hdraws, draws]

theorem draws_cons_of_not_drawsNumber (hdraws : ¬m.drawsNumber = true) (run : List Operation) :
    m.draws (.cycle :: run) = (m.operate .cycle).draws run := by
  rw [draws, starts, List.filter_cons_of_neg hdraws, draws]

/-- **An operation either draws a number or passes by.** One that passes by has no part in the draws
of the run, leaves the source alone and does not depend on it. -/
theorem draws_cases (m : Machine ρ) (op : Operation) (run : List Operation) :
    (m.draws (op :: run) = (m.operate op).draws run ∧ (m.operate op).source = m.source ∧
      ∀ source : σ, (m.withSource source).operate op = (m.operate op).withSource source) ∨
      op = .cycle ∧ (∃ x mask, m.instruction? = some (.random x mask)) ∧
        m.draws (op :: run) = m :: (m.operate op).draws run := by
  by_cases hop : op = .cycle
  · subst hop
    by_cases hdraws : m.drawsNumber = true
    · exact .inr ⟨rfl, drawsNumber_iff.mp hdraws, draws_cons_of_drawsNumber hdraws run⟩
    · refine .inl ⟨draws_cons_of_not_drawsNumber hdraws run, source_cycle hdraws, fun source => ?_⟩
      rw [operate, operate, withSource_cycle hdraws]
      cases m.cycle <;> rfl
  · refine .inl ⟨draws_cons_of_ne m hop run, changesOnly_operate m hop .source (by decide),
      fun source => ?_⟩
    cases op with
    | cycle => exact absurd rfl hop
    | load program =>
        rw [operate_load, operate_load]
        split <;> rfl
    | keyDown | keyUp | clearDrawFlag | clearCueFlag => rfl

theorem operate_of_random {x : Fin 16} {mask : Fin 256}
    (hi : m.instruction? = some (.random x mask)) : m.operate .cycle = m.afterRandom x mask := by
  rw [operate, cycle_of_random hi, Outcome.state_done]

/-- **After a run, the source is behind the numbers that were drawn.** -/
theorem source_after (m : Machine ρ) (run : List Operation) :
    (m.after run).source = rest m.source (m.draws run).length := by
  induction run generalizing m with
  | nil => rfl
  | cons op run ih =>
      rw [after_cons, ih]
      rcases m.draws_cases (σ := ρ) op run with
        ⟨hpass, hsource, -⟩ | ⟨rfl, ⟨x, mask, hi⟩, hdraw⟩
      · rw [hpass, hsource]
      · rw [hdraw, operate_of_random hi]
        rfl

/-- The cycle that draws the k-th number finds the source behind the numbers before it. -/
theorem source_of_draws {run : List Operation} {k : Nat} (hc : (m.draws run)[k]? = some c) :
    c.source = rest m.source k := by
  induction run generalizing m k with
  | nil => cases hc
  | cons op run ih =>
      rcases m.draws_cases (σ := ρ) op run with
        ⟨hpass, hsource, -⟩ | ⟨rfl, ⟨x, mask, hi⟩, hdraw⟩
      · rw [hpass] at hc
        rw [ih hc, hsource]
      · rw [hdraw] at hc
        cases k with
        | zero =>
            cases hc
            rfl
        | succ k =>
            rw [List.getElem?_cons_succ] at hc
            rw [ih hc, operate_of_random hi]
            rfl

/-- The cycle that draws the k-th number leaves it in its register, as far as the mask lets it
through. -/
theorem exists_cycle_of_draws {run : List Operation} {k : Nat} {x : Fin 16} {mask : Fin 256}
    (hc : (m.draws run)[k]? = some c) (hi : c.instruction? = some (.random x mask)) :
    ∃ c', c.cycle = .done c' ∧ c'.v[x] = Bitwise.and (number m.source k) mask.val := by
  refine ⟨_, cycle_of_random hi, ?_⟩
  simp only [afterRandom, tick, next, goto, setV, getElem_setAt, if_pos]
  rw [source_of_draws hc]
  rfl

/-! ### Two runs -/

/-- All of a machine but its source of numbers. -/
def sourceless (m : Machine ρ) : Machine Unit := m.withSource ()

/-- A run with other numbers leaves the same machine if each number that it draws is the same behind
its mask. -/
theorem sourceless_after {m : Machine ρ} {source : σ} {run : List Operation}
    (hsame : ∀ k c x mask, (m.draws run)[k]? = some c → c.instruction? = some (.random x mask) →
      Bitwise.and (number source k) mask.val = Bitwise.and (number m.source k) mask.val) :
    ((m.withSource source).after run).sourceless = (m.after run).sourceless := by
  induction run generalizing m source with
  | nil => rfl
  | cons op run ih =>
      rw [after_cons, after_cons]
      rcases m.draws_cases (σ := σ) op run with
        ⟨hpass, hsource, hwith⟩ | ⟨rfl, ⟨x, mask, hi⟩, hdraw⟩
      · rw [hwith]
        refine ih fun k c x mask hc hi => ?_
        rw [hsource]
        exact hsame k c x mask (hpass ▸ hc) hi
      · have hfirst : Bitwise.and (number source 0) mask.val =
            Bitwise.and (number m.source 0) mask.val :=
          hsame 0 m x mask (by rw [hdraw]; rfl) hi
        -- The same bits are loaded, and both sources are behind their first number.
        have hwith : (m.withSource source).operate .cycle =
            (m.operate .cycle).withSource (rest source 1) := by
          rw [operate_of_random hi, afterRandom, ← hfirst]
          exact operate_of_random hi
        rw [hwith]
        refine ih fun k c x mask hc hi' => ?_
        have hnext := hsame (k + 1) c x mask (by rw [hdraw]; exact hc) hi'
        rw [operate_of_random hi]
        exact hnext

/-- **One number for each random load.** After any run of a new machine its source has been asked as
often as numbers were loaded, and the k-th of them was the k-th number of the source behind the
mask. So the numbers of another source, of whatever kind, leave the same machine if what the masks
let through is the same. The beginning of a run is a run, so two runs with different numbers agree
up to the first load in which the difference shows. -/
theorem one_number_each (source : ρ) (keypad : Keypad) (screen : Screen) (run : List Operation) :
    let m := new ({ source } : Counted ρ) keypad screen
    (m.after run).source.given = (m.draws run).length ∧
    (∀ k c x mask, (m.draws run)[k]? = some c → c.instruction? = some (.random x mask) →
      ∃ c', c.cycle = .done c' ∧ c'.v[x] = Bitwise.and (number source k) mask.val) ∧
    ∀ other : σ,
      (∀ k c x mask, (m.draws run)[k]? = some c → c.instruction? = some (.random x mask) →
        Bitwise.and (number other k) mask.val = Bitwise.and (number source k) mask.val) →
      ((new other keypad screen).after run).sourceless = (m.after run).sourceless := by
  intro m
  refine ⟨?_, fun k c x mask hc hi => ?_, fun other hsame => ?_⟩
  · rw [source_after, Counted.rest_eq]
    exact Nat.zero_add _
  · obtain ⟨c', hcycle, hv⟩ := exists_cycle_of_draws hc hi
    rw [Counted.number_eq] at hv
    exact ⟨c', hcycle, hv⟩
  · have hnew : new other keypad screen = m.withSource other := rfl
    rw [hnew]
    refine sourceless_after fun k c x mask hc hi => ?_
    rw [Counted.number_eq]
    exact hsame k c x mask hc hi

/-- The program `C0FF`, `C100`, `C20F`: it loads three numbers, the second behind an empty mask. -/
def threeLoads : Array UInt8 := #[0xC0, 0xFF, 0xC1, 0x00, 0xC2, 0x0F]

/-- The numbers `AB`, `07` and `3C`. -/
def threeNumbers : CyclicNumbers := ⟨[0xAB, 0x07, 0x3C], [0xAB, 0x07, 0x3C]⟩

/-- Numbers that the masks of the program do not tell from those. -/
def threeOthers : CyclicNumbers := ⟨[0xAB, 0x99, 0xFC], [0xAB, 0x99, 0xFC]⟩

/-- The machine that has the program in memory. -/
def beforeLoads : Machine (Counted CyclicNumbers) where
  source := { source := threeNumbers }
  memory := Memory.initial.overlay programStart threeLoads

/-- The empty mask takes its number too, and the other numbers leave the same machine. -/
theorem threeLoads_take_three :
    let m := new ({ source := threeNumbers } : Counted CyclicNumbers) .released .standard
    let run : List Operation := [.load threeLoads, .cycle, .cycle, .cycle]
    (m.draws run).length = 3 ∧ (m.after run).source.given = 3 ∧
      (∃ c c', (m.draws run)[2]? = some c ∧ c.instruction? = some (.random 2 0x0F) ∧
        c.cycle = .done c' ∧ c'.v[(2 : Fin 16)] = 0xC) ∧
      ((new threeOthers .released .standard).after run).sourceless = (m.after run).sourceless := by
  intro m run
  have hload : m.operate (.load threeLoads) = beforeLoads := by
    rw [operate_load, if_neg (by decide)]
    rfl
  have hfirst : beforeLoads.instruction? = some (.random 0 0xFF) :=
    instruction?_of_program (k := 0) rfl rfl rfl (by decide) (by decide) rfl
  have hsecond : (beforeLoads.afterRandom 0 0xFF).instruction? = some (.random 1 0x00) :=
    instruction?_of_program (k := 2) rfl rfl rfl (by decide) (by decide) rfl
  have hthird : ((beforeLoads.afterRandom 0 0xFF).afterRandom 1 0x00).instruction? =
      some (.random 2 0x0F) :=
    instruction?_of_program (k := 4) rfl rfl rfl (by decide) (by decide) rfl
  have hdraws : m.draws run = [beforeLoads, beforeLoads.afterRandom 0 0xFF,
      (beforeLoads.afterRandom 0 0xFF).afterRandom 1 0x00] := by
    rw [draws_cons_of_ne m (by simp), hload,
      draws_cons_of_drawsNumber (drawsNumber_iff.mpr ⟨_, _, hfirst⟩), operate_of_random hfirst,
      draws_cons_of_drawsNumber (drawsNumber_iff.mpr ⟨_, _, hsecond⟩), operate_of_random hsecond,
      draws_cons_of_drawsNumber (drawsNumber_iff.mpr ⟨_, _, hthird⟩)]
    rfl
  have hnew : new { source := threeNumbers } .released .standard = m := rfl
  have heach := one_number_each (σ := CyclicNumbers) threeNumbers .released .standard run
  rw [hnew] at heach
  obtain ⟨hgiven, hloads, hother⟩ := heach
  rw [hdraws] at hgiven hloads hother ⊢
  obtain ⟨c', hcycle, hv⟩ := hloads 2 _ 2 0x0F rfl hthird
  refine ⟨rfl, hgiven, ⟨_, c', rfl, hthird, hcycle, hv⟩,
    hother threeOthers fun k c x mask hc hi => ?_⟩
  match k with
  | 0 =>
      obtain rfl := Option.some.inj hc
      cases hfirst.symm.trans hi
      rfl
  | 1 =>
      obtain rfl := Option.some.inj hc
      cases hsecond.symm.trans hi
      rfl
  | 2 =>
      obtain rfl := Option.some.inj hc
      cases hthird.symm.trans hi
      rfl
  | k + 3 => cases hc

end Machine

end Chip8
