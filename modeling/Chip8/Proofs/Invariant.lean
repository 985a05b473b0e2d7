import Chip8.Proofs.Run
import Chip8.Proofs.Step
import Chip8.Proofs.Perform

/-!
# Chip8.Proofs.Invariant

What holds of every machine that can come up.

Registers, pointers and timers are integers without bounds, and only some instructions mask what
they write. The bounds are therefore a property of runs: a new machine has them (`sound_new`), each
instruction keeps them (`Sound.perform`), and so do the wait for a key, the tick of the timers and
everything that is done to a machine from outside (`Sound.operate`).

The bounds of the program counter and of the stack lean on each other. An instruction is carried out
only where both its bytes are in memory, so at most at address 4094. From there a call pushes at
most 4094, a return goes at most two further, a skip four further, and the offset jump, which can go
furthest, reaches `4095 + 255`.
-/

namespace Chip8

/-! ### Bytes -/

/-- An integer that fits into a byte. -/
def IsByte (n : Int) : Prop := 0 ≤ n ∧ n ≤ 255

theorem isByte_natCast {n : Nat} (h : n < 256) : IsByte n := ⟨by omega, by omega⟩

theorem isByte_emod (n : Int) : IsByte (n % 256) := ⟨by omega, by omega⟩

theorem isByte_toNat (b : UInt8) : IsByte b.toNat := isByte_natCast b.toNat_lt

/-- A byte that is counted down stays a byte. -/
theorem IsByte.countdown {n : Int} (h : IsByte n) : IsByte (if 0 < n then n - 1 else n) := by
  obtain ⟨hlow, hhigh⟩ := h
  split
  · exact ⟨by omega, by omega⟩
  · exact ⟨hlow, hhigh⟩

/-- A cell keeps a byte as it is. -/
theorem IsByte.toNat_lowByte {n : Int} (h : IsByte n) : ((lowByte n).toNat : Int) = n := by
  obtain ⟨hlow, hhigh⟩ := h
  have hfield : bitField 0 8 n = n.toNat := by
    simp only [bitField]
    omega
  rw [lowByte, hfield, UInt8.toNat_ofNat_of_lt' (by simp only [UInt8.size]; omega)]
  omega

theorem IsByte.exists_nat {n : Int} (h : IsByte n) : ∃ k : Nat, n = k ∧ k < 256 := by
  obtain ⟨hlow, hhigh⟩ := h
  exact ⟨n.toNat, by omega, by omega⟩

theorem isByte_or {a b : Int} (ha : IsByte a) (hb : IsByte b) : IsByte (Bitwise.or a b) := by
  obtain ⟨j, rfl, hj⟩ := ha.exists_nat
  obtain ⟨k, rfl, hk⟩ := hb.exists_nat
  rw [Bitwise.or_natCast]
  exact isByte_natCast (Nat.or_lt_two_pow (n := 8) hj hk)

theorem isByte_xor {a b : Int} (ha : IsByte a) (hb : IsByte b) : IsByte (Bitwise.xor a b) := by
  obtain ⟨j, rfl, hj⟩ := ha.exists_nat
  obtain ⟨k, rfl, hk⟩ := hb.exists_nat
  rw [Bitwise.xor_natCast]
  exact isByte_natCast (Nat.xor_lt_two_pow (n := 8) hj hk)

/-- Masking with a byte gives a byte, whatever is masked. -/
theorem isByte_and (a : Int) {b : Int} (hb : IsByte b) : IsByte (Bitwise.and a b) := by
  obtain ⟨mask, rfl, hmask⟩ := hb.exists_nat
  obtain ⟨k, hk, hle⟩ := Bitwise.and_natCast_right_mem a mask
  rw [hk]
  exact isByte_natCast (by omega)

namespace Machine

variable {ρ : Type} {m : Machine ρ}

theorem isByte_bit (c : Bool) : IsByte (bit c) := by
  cases c <;> exact ⟨by decide, by decide⟩

/-! ### The invariant -/

/-- Registers are bytes, and the two pointers that instructions follow are in range. -/
structure Bounded (m : Machine ρ) : Prop where
  v (x : Fin 16) : IsByte m.v[x]
  sp : 0 ≤ m.sp ∧ m.sp ≤ 16
  i : 0 ≤ m.i ∧ m.i ≤ 0xFFFF

/-- All numbers in the state of a machine are in the range that runs keep them in. -/
structure Sound (m : Machine ρ) : Prop extends Bounded m where
  stack (k : Fin 16) : 0 ≤ m.stack[k] ∧ m.stack[k] ≤ 4094
  pc : 0 ≤ m.pc ∧ m.pc ≤ 4350
  delay : IsByte m.delay
  sound : IsByte m.sound

/-- The columns and rows of the machine's screen. -/
def screenSize (m : Machine ρ) : Nat × Nat := (m.screen.width, m.screen.height)

/-- What the types of the state say: how many cells, registers, slots, keys and pixels there are,
that a cell is a byte and that the register that waits for a key is one of the sixteen. -/
structure Shaped (m : Machine ρ) : Prop where
  memory : m.memory.cells.toList.length = 4096 ∧ ∀ b ∈ m.memory.cells.toList, b.toNat ≤ 255
  registers : m.v.toList.length = 16
  slots : m.stack.toList.length = 16
  keyRegister : m.keyRegister.val ≤ 15
  keysAtWait : m.keysAtWait.toList.length = 16
  keypad : m.keypad.held.toList.length = 16
  pixels : m.screen.rows.toList.length = m.screen.height ∧
    ∀ row ∈ m.screen.rows.toList, row.toList.length = m.screen.width

theorem shaped (m : Machine ρ) : m.Shaped where
  memory := ⟨m.memory.cells.length_toList, fun b _ => Nat.le_of_lt_succ b.toNat_lt⟩
  registers := m.v.length_toList
  slots := m.stack.length_toList
  keyRegister := Nat.le_of_lt_succ m.keyRegister.isLt
  keysAtWait := m.keysAtWait.length_toList
  keypad := m.keypad.held.length_toList
  pixels := ⟨m.screen.rows.length_toList, fun row _ => row.length_toList⟩

/-! ### What the parts of an instruction keep -/

theorem Sound.withRegisters (h : m.Sound) {v : Vector Int 16} (hv : ∀ x : Fin 16, IsByte v[x]) :
    Sound { m with v } :=
  { h with v := hv }

theorem Sound.setV (h : m.Sound) (x : Fin 16) {a : Int} (ha : IsByte a) : (m.setV x a).Sound := by
  refine h.withRegisters fun y => ?_
  simp only [getElem_setAt]
  split
  · exact ha
  · exact h.v y

theorem Sound.setFlag (h : m.Sound) {a : Int} (ha : IsByte a) : (m.setFlag a).Sound := h.setV 15 ha

theorem Sound.goto (h : m.Sound) {pc : Int} (hpc : 0 ≤ pc ∧ pc ≤ 4350) : (m.goto pc).Sound :=
  { h with pc := hpc }

theorem Sound.next (h : m.Sound) (hpc : m.pc ≤ 4094) : m.next.Sound :=
  h.goto (by have := h.pc; omega)

theorem Sound.skipIf (h : m.Sound) (hpc : m.pc ≤ 4094) (c : Bool) : (m.skipIf c).Sound := by
  unfold Machine.skipIf
  split
  · exact h.goto (by have := h.pc; omega)
  · exact h.next hpc

theorem Sound.withMemory (h : m.Sound) (memory : Memory) : Sound { m with memory } := { h with }

theorem Sound.withScreen (h : m.Sound) (screen : Screen) :
    Sound { m with screen, drawFlag := true } := { h with }

theorem Sound.withSource (h : m.Sound) (source : ρ) : Sound { m with source } := { h with }

theorem Sound.withIndex (h : m.Sound) {i : Int} (hi : 0 ≤ i ∧ i ≤ 0xFFFF) : Sound { m with i } :=
  { h with i := hi }

theorem Sound.withDelay (h : m.Sound) {delay : Int} (hd : IsByte delay) : Sound { m with delay } :=
  { h with delay := hd }

theorem Sound.withSound (h : m.Sound) {sound : Int} (hs : IsByte sound) : Sound { m with sound } :=
  { h with sound := hs }

theorem Sound.withWait (h : m.Sound) (mode : Mode) (keyRegister : Fin 16)
    (keysAtWait : Vector Bool 16) : Sound { m with mode, keyRegister, keysAtWait } := { h with }

theorem Sound.pop (h : m.Sound) {sp : Int} (hsp : 0 ≤ sp ∧ sp ≤ 16) : Sound { m with sp } :=
  { h with sp := hsp }

/-- A pushed address is one that an instruction was carried out at. -/
theorem Sound.push (h : m.Sound) (hpc : m.pc ≤ 4094) (k : Fin 16) {sp : Int}
    (hsp : 0 ≤ sp ∧ sp ≤ 16) : Sound { m with stack := setAt m.stack k m.pc, sp } where
  v := h.v
  sp := hsp
  i := h.i
  stack j := by
    have hpos := h.pc
    simp only [getElem_setAt]
    split
    · omega
    · exact h.stack j
  pc := h.pc
  delay := h.delay
  sound := h.sound

theorem Sound.loading (h : m.Sound) (n : Nat) : (m.loading n).Sound := by
  refine h.withRegisters fun y => ?_
  rw [getElem_loadedRegisters]
  split
  · exact isByte_toNat _
  · exact h.v y

/-- **Every instruction keeps the invariant,** whether it is done or stops on the way. -/
theorem Sound.perform [RandomSource ρ] (h : m.Sound) (hpc : m.pc ≤ 4094) (i : Instruction) :
    (m.perform i).state.Sound := by
  have hv := h.v
  have hpos := h.pc
  have hsp := h.sp
  cases i with
  | clear => exact (h.withScreen _).next hpc
  | ret =>
      rw [perform_ret hsp.1 hsp.2]
      split
      · exact h
      · have hslot := h.stack ⟨(m.sp - 1).toNat, by omega⟩
        rw [← slot_eq (by omega) (by omega)] at hslot
        exact (h.pop (by omega)).goto (by omega)
  | jump target => exact h.goto (by omega)
  | call target =>
      rw [perform_call hsp.1 hsp.2]
      split
      · exact h
      · rw [pushed_eq hsp.1 (by omega)]
        exact (h.push hpc _ (by omega)).goto (by omega)
  | skipEqByte x byte => exact h.skipIf hpc _
  | skipNeByte x byte => exact h.skipIf hpc _
  | skipEq x y => exact h.skipIf hpc _
  | loadByte x byte => exact (h.setV x (isByte_natCast byte.isLt)).next hpc
  | addByte x byte => exact (h.setV x (isByte_emod _)).next hpc
  | copy x y => exact (h.setV x (hv y)).next hpc
  | or x y => exact (h.setV x (isByte_or (hv x) (hv y))).next hpc
  | and x y => exact (h.setV x (isByte_and _ (hv y))).next hpc
  | xor x y => exact (h.setV x (isByte_xor (hv x) (hv y))).next hpc
  | add x y => exact ((h.setV x (isByte_emod _)).setFlag (isByte_bit _)).next hpc
  | sub x y => exact ((h.setV x (isByte_emod _)).setFlag (isByte_bit _)).next hpc
  | shiftRight x =>
      obtain ⟨hlow, hhigh⟩ := hv x
      exact ((h.setV x ⟨by omega, by omega⟩).setFlag ⟨by omega, by omega⟩).next hpc
  | subFrom x y => exact ((h.setV x (isByte_emod _)).setFlag (isByte_bit _)).next hpc
  | shiftLeft x => exact ((h.setV x (isByte_emod _)).setFlag ⟨by omega, by omega⟩).next hpc
  | skipNe x y => exact h.skipIf hpc _
  | loadIndex address => exact (h.withIndex (by omega)).next hpc
  | jumpOffset base =>
      obtain ⟨hlow, hhigh⟩ := hv 0
      exact h.goto (by omega)
  | random x mask =>
      exact ((h.withSource _).setV x (isByte_and _ (isByte_natCast mask.isLt))).next hpc
  | draw x y rows =>
      rw [perform_draw h.i.1]
      split
      · split
        · exact h
        · exact ((h.withScreen _).setFlag (isByte_bit _)).next hpc
      · exact h
  | skipPressed x => exact h.skipIf hpc _
  | skipReleased x => exact h.skipIf hpc _
  | readDelay x => exact (h.setV x h.delay).next hpc
  | awaitKey x => exact (h.withWait _ _ _).next hpc
  | setDelay x => exact (h.withDelay (hv x)).next hpc
  | setSound x => exact (h.withSound (hv x)).next hpc
  | addIndex x => exact ((h.withIndex (by omega)).setFlag (isByte_bit _)).next hpc
  | glyph x =>
      obtain ⟨hlow, hhigh⟩ := hv x
      exact (h.withIndex (by unfold glyphSize; omega)).next hpc
  | storeDecimal x =>
      rw [perform_storeDecimal h.i.1]
      split
      · exact (h.withMemory _).next hpc
      · exact h.withMemory _
  | storeRegisters x =>
      rw [perform_storeRegisters h.i.1]
      split
      · exact (h.withMemory _).next hpc
      · exact h.withMemory _
  | loadRegisters x =>
      rw [perform_loadRegisters h.i.1]
      split
      · exact (h.loading _).next hpc
      · exact h.loading _

/-! ### Cycles -/

/-- Looking at the keypad can end with a key in a register, and that is all it does to a number. -/
theorem Sound.scan (h : m.Sound) (keys : List (Fin 16)) : (m.scan keys).Sound := by
  induction keys generalizing m with
  | nil => exact h
  | cons k keys ih =>
      rw [Machine.scan]
      split
      · have hk : IsByte k.val := isByte_natCast (by omega)
        exact { h.setV m.keyRegister hk with }
      · split
        · exact ih h
        · exact ih { h with }

theorem Sound.act [RandomSource ρ] (h : m.Sound) : m.act.state.Sound := by
  rcases m.act_cases with ⟨-, hact⟩ | ⟨-, address, -, hact⟩ | ⟨-, w, i, hfetch, -, hact⟩ |
    ⟨-, w, -, -, hact⟩
  · rw [hact]
    exact h.scan _
  · rw [hact]
    exact h
  · rw [hact]
    exact h.perform (fetch_eq_ok hfetch).1.2 i
  · rw [hact]
    exact { h with }

theorem Sound.tick (h : m.Sound) : m.tick.Sound where
  v := h.v
  sp := h.sp
  i := h.i
  stack := h.stack
  pc := h.pc
  delay := h.delay.countdown
  sound := h.sound.countdown

theorem Sound.cycle [RandomSource ρ] (h : m.Sound) : m.cycle.state.Sound := by
  have hact := h.act
  unfold Machine.cycle
  cases hm : m.act with
  | done m' => exact Sound.tick (by rwa [hm] at hact)
  | stopped fault m' => rwa [hm] at hact

/-! ### The size of the screen -/

theorem screenSize_withMemory (m : Machine ρ) (memory : Memory) :
    screenSize { m with memory } = m.screenSize := rfl

theorem screenSize_skipIf (m : Machine ρ) (c : Bool) : (m.skipIf c).screenSize = m.screenSize := by
  unfold skipIf
  split <;> rfl

theorem screenSize_store (m : Machine ρ) (bytes : List UInt8) :
    (m.store bytes).state.screenSize = m.screenSize := by
  unfold store
  split <;> rfl

theorem screenSize_fill (m : Machine ρ) (xs : List (Fin 16)) :
    (m.fill xs).state.screenSize = m.screenSize := by
  induction xs generalizing m with
  | nil => rfl
  | cons x xs ih =>
      rw [fill]
      split
      · rfl
      · exact ih _

theorem state_andThen {σ : Type} (o : Outcome σ) (f : σ → σ) :
    (o.andThen f).state = o.state ∨ (o.andThen f).state = f o.state := by
  cases o with
  | done s => exact .inr rfl
  | stopped fault s => exact .inl rfl

theorem size_of_draw? {s s' : Screen} {x y : Int} {sprite : List Int} {hit : Bool}
    (h : s.draw? x y sprite = some (s', hit)) : s'.width = s.width ∧ s'.height = s.height := by
  unfold Screen.draw? at h
  dsimp only at h
  split at h
  · cases h
  · rw [Option.some.injEq, Prod.ext_iff] at h
    obtain ⟨rfl, -⟩ := h
    exact ⟨Screen.width_paint .., Screen.height_paint ..⟩

theorem screenSize_perform [RandomSource ρ] (m : Machine ρ) (i : Instruction) :
    (m.perform i).state.screenSize = m.screenSize := by
  cases i with
  | ret =>
      rw [perform]
      split
      · rfl
      · dsimp only
        split <;> rfl
  | call target =>
      rw [perform]
      split
      · rfl
      · split <;> rfl
  | draw x y rows =>
      rw [perform]
      split
      · rfl
      · split
        · rfl
        · rename_i hdraw
          exact Prod.ext (size_of_draw? hdraw).1 (size_of_draw? hdraw).2
  | storeDecimal x => exact screenSize_store m _
  | storeRegisters x => exact screenSize_store m _
  | loadRegisters x =>
      rw [perform]
      rcases state_andThen (m.fill (registersTo x)) next with h | h
      · rw [h]
        exact screenSize_fill m _
      · rw [h]
        exact screenSize_fill m _
  | skipEqByte | skipNeByte | skipEq | skipNe | skipPressed | skipReleased =>
      exact screenSize_skipIf m _
  | _ => rfl

theorem screenSize_scan (m : Machine ρ) (keys : List (Fin 16)) :
    (m.scan keys).screenSize = m.screenSize := by
  induction keys generalizing m with
  | nil => rfl
  | cons k keys ih =>
      rw [scan]
      split
      · rfl
      · split
        · exact ih _
        · exact ih _

theorem screenSize_act [RandomSource ρ] (m : Machine ρ) :
    m.act.state.screenSize = m.screenSize := by
  rcases m.act_cases with ⟨-, hact⟩ | ⟨-, address, -, hact⟩ | ⟨-, w, i, -, -, hact⟩ |
    ⟨-, w, -, -, hact⟩
  · rw [hact]
    exact screenSize_scan m _
  · rw [hact]
    rfl
  · rw [hact]
    exact screenSize_perform m i
  · rw [hact]
    rfl

theorem screenSize_cycle [RandomSource ρ] (m : Machine ρ) :
    m.cycle.state.screenSize = m.screenSize := by
  unfold cycle
  rcases state_andThen m.act tick with h | h
  · rw [h]
    exact screenSize_act m
  · rw [h]
    exact screenSize_act m

/-! ### Runs -/

theorem sound_new (source : ρ) (keypad : Keypad) (screen : Screen) :
    (new source keypad screen).Sound where
  v x := by simp [new, IsByte]
  sp := by simp [new]
  i := by simp [new]
  stack k := by simp [new]
  pc := by simp [new, programStart]
  delay := by simp [new, IsByte]
  sound := by simp [new, IsByte]

theorem Sound.operate [RandomSource ρ] (h : m.Sound) (op : Operation) : (m.operate op).Sound := by
  cases op with
  | load program =>
      rw [operate_load]
      split
      · exact h
      · exact h.withMemory _
  | keyDown key => exact { h with }
  | keyUp key => exact { h with }
  | cycle => exact h.cycle
  | clearDrawFlag => exact { h with }
  | clearCueFlag => exact { h with }

theorem screenSize_operate [RandomSource ρ] (m : Machine ρ) (op : Operation) :
    (m.operate op).screenSize = m.screenSize := by
  cases op with
  | load program =>
      rw [operate_load]
      split
      · rfl
      · exact screenSize_withMemory m _
  | cycle => exact screenSize_cycle m
  | _ => rfl

theorem Sound.after [RandomSource ρ] (h : m.Sound) (run : List Operation) :
    (m.after run).Sound := by
  induction run generalizing m with
  | nil => exact h
  | cons op run ih => exact ih (h.operate op)

theorem screenSize_after [RandomSource ρ] (m : Machine ρ) (run : List Operation) :
    (m.after run).screenSize = m.screenSize := by
  induction run generalizing m with
  | nil => rfl
  | cons op run ih => exact (ih (m.operate op)).trans (screenSize_operate m op)

theorem Reachable.sound [RandomSource ρ] (h : m.Reachable) : m.Sound := by
  obtain ⟨source, keypad, screen, run, -, -, rfl⟩ := h
  exact (sound_new source keypad screen).after run

/-- A screen with pixels keeps them. -/
theorem Reachable.screen_pos [RandomSource ρ] (h : m.Reachable) :
    0 < m.screen.width ∧ 0 < m.screen.height := by
  obtain ⟨source, keypad, screen, run, hw, hh, rfl⟩ := h
  have hsize := screenSize_after (new source keypad screen) run
  simp only [screenSize, Prod.mk.injEq] at hsize
  exact ⟨by rw [hsize.1]; exact hw, by rw [hsize.2]; exact hh⟩

/-- **The invariant of all runs.** Whatever programs are loaded, keys pressed and flags cleared
between the cycles of a new machine, and whether its cycles fault or not, all numbers in its state
stay in range and the screen keeps its size. The source may yield any integers. -/
theorem sound_after_new [RandomSource ρ] (source : ρ) (keypad : Keypad) (screen : Screen)
    (run : List Operation) :
    ((new source keypad screen).after run).Sound ∧
      ((new source keypad screen).after run).Shaped ∧
      ((new source keypad screen).after run).screenSize = (screen.width, screen.height) :=
  ⟨(sound_new source keypad screen).after run, shaped _, screenSize_after _ run⟩

end Machine

end Chip8
