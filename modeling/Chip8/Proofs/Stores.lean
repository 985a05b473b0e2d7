import Chip8.Proofs.Stopped

/-!
# Chip8.Proofs.Stores

Where the bytes of memory come from.

Two instructions write memory, and both write a list of numbers from the index register on
(`Machine.stores`). A cycle therefore leaves in a cell either the number that the list has for it or
what was there (`cells_cycle`), and it makes no difference whether the cycle faults: the part of the
list that lies in memory has been written by then. Over a run, the byte in a cell is the last number
that was put there, and the first byte if none was (`cells_after`).
-/

namespace Chip8.Machine

variable {ρ : Type} {m m' : Machine ρ}

/-- What the next cycle stores from the index register on: the decimal digits of a register, or the
registers up to one. -/
def stores (m : Machine ρ) : List Int :=
  match m.instruction? with
  | some (.storeDecimal x) => [m.v[x] / 100, m.v[x] / 10 % 10, m.v[x] % 10]
  | some (.storeRegisters x) => m.v.toList.take (x.val + 1)
  | _ => []

theorem stores_of_storeDecimal {x : Fin 16} (hi : m.instruction? = some (.storeDecimal x)) :
    m.stores = [m.v[x] / 100, m.v[x] / 10 % 10, m.v[x] % 10] := by
  rw [stores, hi]

theorem stores_of_storeRegisters {x : Fin 16} (hi : m.instruction? = some (.storeRegisters x)) :
    m.stores = m.v.toList.take (x.val + 1) := by
  rw [stores, hi]

/-- The number that the next cycle puts into a cell, if it puts one there. -/
def put? (m : Machine ρ) (a : Fin memorySize) : Option Int :=
  if m.i ≤ a.val then m.stores[(a.val - m.i).toNat]? else none

/-! ### One cycle -/

/-- Nothing to store, nothing stored. -/
theorem Stored.nil (m : Machine ρ) : m.Stored [] m where
  frame := rfl
  stored k hk := by cases hk
  kept address _ := rfl

/-- After a store, a cell holds the number that was stored in it or what it held before. -/
theorem Stored.cell {values : List Int} (h : m.Stored values m') (a : Fin memorySize) :
    (m'.memory.cells[a].toNat : Int) =
      (if m.i ≤ a.val then values[(a.val - m.i).toNat]? else none).getD
        m.memory.cells[a].toNat := by
  by_cases hin : m.i ≤ a.val ∧ (a.val - m.i).toNat < values.length
  · obtain ⟨hfrom, hlt⟩ := hin
    have haddress : m.i + (a.val - m.i).toNat = a.val := by omega
    have hstored := h.stored _ hlt (by have := a.isLt; unfold memorySize at this; omega)
    rw [haddress, Memory.read?_val, Option.map_some, Option.some.injEq] at hstored
    rw [hstored, if_pos hfrom, List.getElem?_eq_getElem hlt, Option.getD_some]
  · have hkept := h.kept a.val fun k hk heq => hin ⟨by omega, by omega⟩
    rw [Memory.read?_val, Memory.read?_val, Option.some.injEq] at hkept
    rw [hkept]
    by_cases hfrom : m.i ≤ a.val
    · have hfar : values.length ≤ (a.val - m.i).toNat :=
        Nat.le_of_not_lt fun hlt => hin ⟨hfrom, hlt⟩
      rw [if_pos hfrom, List.getElem?_eq_none hfar, Option.getD_none]
    · rw [if_neg hfrom, Option.getD_none]

variable [RandomSource ρ]

/-- **The memory after a cycle,** whether it completes or faults. -/
theorem stored_cycle (h : m.Bounded) :
    m.Stored m.stores { m with memory := m.cycle.state.memory } := by
  have htick : m.cycle.state.memory = m.act.state.memory :=
    changesOnly_act_cycle m .memory (by decide)
  -- Only the two stores have memory in their footprint.
  by_cases hdigits : ∃ x, m.instruction? = some (.storeDecimal x)
  · obtain ⟨x, hi⟩ := hdigits
    have hmemory : m.cycle.state.memory =
        (m.storing ((decimalDigits m.v[x]).map lowByte)).memory := by
      rw [htick, (act_of_instruction? hi).1, perform_storeDecimal h.i.1]
      split <;> rfl
    rw [hmemory, stores_of_storeDecimal hi]
    exact stored_digits h.i.1 (h.v x)
  · by_cases hregisters : ∃ x, m.instruction? = some (.storeRegisters x)
    · obtain ⟨x, hi⟩ := hregisters
      have hmemory : m.cycle.state.memory =
          (m.storing ((registersTo x).map fun k => lowByte m.v[k])).memory := by
        rw [htick, (act_of_instruction? hi).1, perform_storeRegisters h.i.1]
        split <;> rfl
      rw [hmemory, stores_of_storeRegisters hi]
      exact stored_registers h.i.1 h.v x
    · have hmemory : m.Keeps m.cycle.state .memory := by
        refine keeps_cycle m (by decide) fun i hi hmem => ?_
        rcases Instruction.memory_mem_footprint.mp hmem with ⟨x, rfl⟩ | ⟨x, rfl⟩
        · exact hdigits ⟨x, hi⟩
        · exact hregisters ⟨x, hi⟩
      have hnothing : m.stores = [] := by
        unfold stores
        split
        · rename_i x hi
          exact absurd ⟨x, hi⟩ hdigits
        · rename_i x hi
          exact absurd ⟨x, hi⟩ hregisters
        · rfl
      rw [hnothing, show m.cycle.state.memory = m.memory from hmemory]
      exact .nil m

theorem cells_cycle (h : m.Bounded) (a : Fin memorySize) :
    (m.cycle.state.memory.cells[a].toNat : Int) = (m.put? a).getD m.memory.cells[a].toNat :=
  (stored_cycle h).cell a

/-! ### Runs -/

/-- The numbers that the cycles of a run put into a cell, in order. -/
def puts (m : Machine ρ) (run : List Operation) (a : Fin memorySize) : List Int :=
  (m.starts run).filterMap (·.put? a)

/-- **A cell holds what was put there last.** -/
theorem cells_after (h : m.Sound) {run : List Operation} (hplay : ∀ op ∈ run, op.isPlay = true)
    (a : Fin memorySize) :
    ((m.after run).memory.cells[a].toNat : Int) =
      (m.puts run a).getLastD m.memory.cells[a].toNat := by
  induction run generalizing m with
  | nil => rfl
  | cons op run ih =>
      have hrest : ∀ op ∈ run, op.isPlay = true := fun op hop =>
        hplay op (List.mem_cons_of_mem _ hop)
      rw [after_cons, ih (h.operate op) hrest]
      cases op with
      | cycle =>
          -- What the cycle leaves in the cell is where the rest of the run begins.
          rw [operate, cells_cycle h.toBounded, puts, puts, starts, operate, List.filterMap_cons]
          cases m.put? a with
          | none => rw [Option.getD_none]
          | some value => rw [Option.getD_some, List.getLastD_cons]
      | keyDown | keyUp => rfl
      | load | clearDrawFlag | clearCueFlag => cases hplay _ List.mem_cons_self

/-- **Memory changes only where a store wrote.** After a run of cycles, completed or faulted, with
any key events between them, a cell holds the last of the numbers that the stores of the run put
into it, and the byte that it held at first if there was none. So what no store of the run touches
is intact. -/
theorem cells_hold_last_stored (h : m.Reachable) {run : List Operation}
    (hplay : ∀ op ∈ run, op.isPlay = true) :
    (∀ a : Fin memorySize, ((m.after run).memory.cells[a].toNat : Int) =
      (m.puts run a).getLastD m.memory.cells[a].toNat) ∧
    ∀ region : Fin memorySize → Prop,
      (∀ c ∈ m.starts run, ∀ a, region a → c.put? a = none) →
        ∀ a, region a → (m.after run).memory.cells[a] = m.memory.cells[a] := by
  refine ⟨cells_after h.sound hplay, fun region helsewhere a ha => ?_⟩
  have hnone : m.puts run a = [] :=
    List.filterMap_eq_nil_iff.mpr fun c hc => helsewhere c hc a ha
  have hcell := cells_after h.sound hplay a
  rw [hnone, List.getLastD_nil] at hcell
  exact UInt8.toNat_inj.mp (Int.ofNat_inj.mp hcell)

/-- The program `609D`, `AFFD`, `F033`, `F355`: it stores the digits of 157 in the last three cells,
and then four registers in the same place. -/
def storeTwice : Array UInt8 := #[0x60, 0x9D, 0xAF, 0xFD, 0xF0, 0x33, 0xF3, 0x55]

/-- The machine that has the program in memory. -/
def beforeNumber : Machine CyclicNumbers :=
  { source := ⟨[0], [0]⟩, memory := Memory.initial.overlay programStart storeTwice }

/-- The machine that is about to store the digits. -/
def beforeDigits : Machine CyclicNumbers :=
  (Machine.next { (beforeNumber.setV 0 157).next.tick with i := 0xFFD }).tick

/-- The machine that is about to store the registers. -/
def afterDigits : Machine CyclicNumbers :=
  (beforeDigits.storing ((decimalDigits 157).map lowByte)).next.tick

theorem reachable_beforeDigits : beforeDigits.Reachable := by
  have hfirst : beforeNumber.instruction? = some (.loadByte 0 157) :=
    instruction?_of_program (k := 0) rfl rfl rfl (by decide) (by decide) rfl
  have hcycle₁ : beforeNumber.cycle = .done (beforeNumber.setV 0 157).next.tick :=
    cycle_of_instruction? hfirst rfl
  have hsecond : (beforeNumber.setV 0 157).next.tick.instruction? = some (.loadIndex 0xFFD) :=
    instruction?_of_program (k := 2) rfl rfl rfl (by decide) (by decide) rfl
  have hcycle₂ : (beforeNumber.setV 0 157).next.tick.cycle = .done beforeDigits :=
    cycle_of_instruction? hsecond rfl
  have hloaded : beforeNumber.Reachable :=
    reachable_of_program (by decide) _ _ (by decide) (by decide)
  exact (hloaded.of_cycle hcycle₁).of_cycle hcycle₂

theorem instruction?_beforeDigits : beforeDigits.instruction? = some (.storeDecimal 0) :=
  instruction?_of_program (k := 4) rfl rfl rfl (by decide) (by decide) rfl

theorem cycle_beforeDigits : beforeDigits.cycle = .done afterDigits := by
  refine cycle_of_instruction? instruction?_beforeDigits ?_
  rw [perform_storeDecimal (by decide), if_pos (by decide)]
  rfl

/-- The digits have not been stored over the program. -/
theorem fetch_afterDigits : afterDigits.fetch = .ok 0xF355 := by
  have hfetch : beforeDigits.next.fetch = .ok 0xF355 :=
    fetch_of_program (k := 6) rfl rfl (by decide) (by decide) (by decide)
  have hcovers : ¬beforeDigits.next.CoversOpcode ((decimalDigits 157).map lowByte).length := by
    have hpc : beforeDigits.next.pc = 0x206 := rfl
    have hi : beforeDigits.next.i = 0xFFD := rfl
    intro hcovers
    obtain ⟨k, -, -, hcode⟩ := hcovers
    rw [hi, hpc] at hcode
    omega
  have hnext (m : Machine CyclicNumbers) (bytes : List UInt8) :
      (m.storing bytes).next.tick.fetch = (m.next.storing bytes).fetch := by
    simp only [fetch, storing, next, goto, tick]
  rw [afterDigits, hnext]
  exact fetch_storing hfetch hcovers

theorem instruction?_afterDigits :
    (afterDigits.keyDown 5).instruction? = some (.storeRegisters 3) :=
  instruction?_of_fetch rfl fetch_afterDigits rfl

theorem starts_beforeDigits :
    beforeDigits.starts [.cycle, .keyDown 5, .cycle] = [beforeDigits, afterDigits.keyDown 5] := by
  rw [starts, operate, cycle_beforeDigits]
  rfl

/-- What the two stores put into the third cell from the end. -/
theorem puts_beforeDigits (a : Fin memorySize) (ha : (a.val : Int) = 0xFFD) :
    beforeDigits.puts [.cycle, .keyDown 5, .cycle] a = [1, 157] := by
  have hfirst : beforeDigits.put? a = some 1 := by
    have hfrom : beforeDigits.i = 0xFFD := rfl
    have hnumber : beforeDigits.v[(0 : Fin 16)] = 157 := rfl
    rw [put?, stores_of_storeDecimal instruction?_beforeDigits, hnumber, hfrom, ha]
    rfl
  have hsecond : (afterDigits.keyDown 5).put? a = some 157 := by
    have hfrom : (afterDigits.keyDown 5).i = 0xFFD := rfl
    have hregisters : (afterDigits.keyDown 5).v.toList.take 4 = [157, 0, 0, 0] := rfl
    rw [put?, stores_of_storeRegisters instruction?_afterDigits, hfrom, ha]
    exact congrArg (·[0]?) hregisters
  simp only [puts, starts_beforeDigits, List.filterMap_cons, hfirst, hsecond, List.filterMap_nil]

/-- The first of the digits is overwritten by a store that faults, and the font stays as it was. -/
theorem digit_overwritten :
    let run : List Operation := [.cycle, .keyDown 5, .cycle]
    let a : Fin memorySize := ⟨0xFFD, by decide⟩
    beforeDigits.Reachable ∧ (afterDigits.keyDown 5).cycle.fault? = some (.outOfMemory 4096) ∧
      beforeDigits.puts run a = [1, 157] ∧ (beforeDigits.after run).memory.cells[a].toNat = 157 ∧
      ∀ b : Fin memorySize, b.val < 0x50 →
        (beforeDigits.after run).memory.cells[b] = beforeDigits.memory.cells[b] := by
  intro run a
  have hfault : (afterDigits.keyDown 5).cycle.fault? = some (.outOfMemory 4096) := by
    rw [cycle, (act_of_instruction? instruction?_afterDigits).1,
      perform_storeRegisters (by decide), if_neg (by decide)]
    rfl
  have hplay : ∀ op ∈ run, op.isPlay = true := by decide
  obtain ⟨hcells, hkept⟩ := cells_hold_last_stored reachable_beforeDigits hplay
  have hputs : beforeDigits.puts run a = [1, 157] := puts_beforeDigits a rfl
  have hcell := hcells a
  rw [hputs, List.getLastD_cons, List.getLastD_cons, List.getLastD_nil] at hcell
  refine ⟨reachable_beforeDigits, hfault, hputs, Int.ofNat_inj.mp hcell, ?_⟩
  refine hkept (·.val < 0x50) fun c hc b hb => ?_
  have hfrom : c.i = 0xFFD := by
    rw [starts_beforeDigits, List.mem_cons, List.mem_singleton] at hc
    cases hc with
    | inl hdigits => rw [hdigits]; rfl
    | inr hregisters => rw [hregisters]; rfl
  rw [put?, hfrom, if_neg (by omega)]

end Chip8.Machine
