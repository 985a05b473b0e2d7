import Chip8.Machine.Cycle
import Chip8.Proofs.Blocks
import Chip8.Proofs.Opcode

/-!
# Chip8.Proofs.Step

Everything a cycle can do before the timers tick.

`act_cases` lists the four possibilities: a look at the keypad, a fetch that leaves memory, an
instruction, or a word that is none. Proofs about cycles start from this list; decoding has dropped
out of it, and instructions are named by the opcodes they are printed with.

`Machine.instruction?` names the instruction of a cycle, for statements that care about a few
instructions and not about what the others do.
-/

namespace Chip8.Machine

variable {ρ : Type} {m : Machine ρ}

/-! ### Fetching -/

/-- An opcode is fetched only where both its bytes are in memory, and it is a word. -/
theorem fetch_eq_ok {w : Int} (h : m.fetch = .ok w) :
    (0 ≤ m.pc ∧ m.pc ≤ 4094) ∧ 0 ≤ w ∧ w < 0x10000 := by
  unfold fetch at h
  split at h
  · cases h
  · cases h
  · rename_i high low hhigh hlow
    have hpc := Memory.bounds_of_read?_eq_some hhigh
    have hpc' := Memory.bounds_of_read?_eq_some hlow
    have := high.toNat_lt
    have := low.toNat_lt
    cases h
    unfold memorySize at hpc hpc'
    omega

/-- A fetch that fails reports the program counter or the end of memory, whichever is further. -/
theorem fetch_eq_error {address : Int} (h₀ : 0 ≤ m.pc) (h : m.fetch = .error address) :
    4095 ≤ m.pc ∧ address = max m.pc 4096 := by
  unfold fetch at h
  split at h
  · rename_i hread
    rw [Memory.read?_eq_none] at hread
    unfold memorySize at hread
    cases h
    omega
  · rename_i hhigh hread
    have hpc := Memory.bounds_of_read?_eq_some hhigh
    rw [Memory.read?_eq_none] at hread
    unfold memorySize at hread hpc
    cases h
    omega
  · cases h

/-- Behind the last opcode of memory nothing is fetched. -/
theorem fetch_of_le (h : 4095 ≤ m.pc) : m.fetch = .error (max m.pc 4096) := by
  cases hfetch : m.fetch with
  | error address => rw [(fetch_eq_error (by omega) hfetch).2]
  | ok w =>
      have := (fetch_eq_ok hfetch).1
      omega

/-- What is fetched depends on the memory and on the program counter. -/
theorem fetch_congr {m' : Machine ρ} (hmemory : m'.memory = m.memory) (hpc : m'.pc = m.pc) :
    m'.fetch = m.fetch := by
  rw [fetch, fetch, hmemory, hpc]

/-- Where both bytes are in memory, a word is fetched. -/
theorem exists_fetch_eq_ok (h₀ : 0 ≤ m.pc) (h₁ : m.pc ≤ 4094) : ∃ w, m.fetch = .ok w := by
  cases hfetch : m.fetch with
  | ok w => exact ⟨w, rfl⟩
  | error address =>
      have := (fetch_eq_error h₀ hfetch).1
      omega

/-- The opcodes of a program are fetched from its bytes, the high one first. -/
theorem fetch_of_program {mem : Memory} {program : Array UInt8} {k : Nat} {w : Int}
    (hmem : m.memory = mem.overlay programStart program) (hpc : m.pc = programStart + k)
    (hsize : program.size ≤ maxProgramSize) (hk : k + 1 < program.size)
    (hw : ((program.getD k 0).toNat : Int) * 256 + (program.getD (k + 1) 0).toNat = w) :
    m.fetch = .ok w := by
  have hhigh := Memory.read?_overlay mem hsize (k := k) (by omega)
  have hlow := Memory.read?_overlay mem hsize hk
  rw [fetch, hmem, hpc, hhigh, show (programStart : Int) + k + 1 = programStart + (k + 1 : Nat) by
    omega, hlow]
  simpa [hk, show k < program.size by omega] using hw

/-- The instruction that the next cycle runs, if it runs one. -/
def instruction? (m : Machine ρ) : Option Instruction :=
  match m.mode, m.fetch with
  | .running, .ok w =>
    match decode w with
    | .instruction i => some i
    | _ => none
  | _, _ => none

theorem instruction?_eq_some_iff {i : Instruction} :
    m.instruction? = some i ↔ m.mode = .running ∧ ∃ w, m.fetch = .ok w ∧ i.HasOpcode w := by
  constructor
  · intro h
    unfold instruction? at h
    split at h
    · rename_i w hmode hfetch
      split at h
      · rename_i hdecode
        cases h
        exact ⟨hmode, w, hfetch, decode_eq_instruction_iff.mp hdecode⟩
      · cases h
    · cases h
  · rintro ⟨hmode, w, hfetch, hi⟩
    simp only [instruction?, hmode, hfetch, decode_of_hasOpcode hi]

theorem instruction?_of_fetch {w : Int} {i : Instruction} (hmode : m.mode = .running)
    (hfetch : m.fetch = .ok w) (hi : i.HasOpcode w) : m.instruction? = some i :=
  instruction?_eq_some_iff.mpr ⟨hmode, w, hfetch, hi⟩

/-- The instructions of a program are run from its bytes. -/
theorem instruction?_of_program {mem : Memory} {program : Array UInt8} {k : Nat} {i : Instruction}
    (hmode : m.mode = .running) (hmem : m.memory = mem.overlay programStart program)
    (hpc : m.pc = programStart + k) (hsize : program.size ≤ maxProgramSize)
    (hk : k + 1 < program.size)
    (hi : i.HasOpcode ((program.getD k 0).toNat * 256 + (program.getD (k + 1) 0).toNat)) :
    m.instruction? = some i :=
  instruction?_of_fetch hmode (fetch_of_program hmem hpc hsize hk rfl) hi

/-! ### Acting -/

variable [RandomSource ρ]

theorem act_of_awaitingKey (h : m.mode = .awaitingKey) : m.act = .done m.poll := by
  simp only [act, h]

theorem act_of_fetch_eq_error {address : Int} (hmode : m.mode = .running)
    (h : m.fetch = .error address) : m.act = .stopped (.outOfMemory address) m := by
  simp only [act, hmode, h]

theorem act_of_fetch_eq_ok {w : Int} (hmode : m.mode = .running) (h : m.fetch = .ok w) :
    m.act = m.execute w := by
  simp only [act, hmode, h]

/-- An opcode does what its instruction does. -/
theorem execute_of_hasOpcode {w : Int} {i : Instruction} (h : i.HasOpcode w) :
    m.execute w = m.perform i := by
  simp only [execute, decode_of_hasOpcode h]

/-- A word that is no instruction is noted. -/
theorem execute_of_unassigned {w : Int} (h₀ : 0 ≤ w) (h₁ : w < 0x10000)
    (h : ∀ i : Instruction, ¬i.HasOpcode w) :
    m.execute w = .done { m with lastUnknown := some ⟨w, m.pc⟩ } := by
  rcases decode_word h₀ h₁ with ⟨i, -, hi⟩ | hnone
  · exact absurd hi (h i)
  · simp only [execute, hnone]

/-- A word is printed for an instruction or for none, and is executed accordingly. -/
theorem execute_cases (m : Machine ρ) {w : Int} (h₀ : 0 ≤ w) (h₁ : w < 0x10000) :
    (∃ i : Instruction, i.HasOpcode w ∧ m.execute w = m.perform i) ∨
      (∀ i : Instruction, ¬i.HasOpcode w) ∧
        m.execute w = .done { m with lastUnknown := some ⟨w, m.pc⟩ } := by
  by_cases h : ∃ i : Instruction, i.HasOpcode w
  · obtain ⟨i, hi⟩ := h
    exact .inl ⟨i, hi, execute_of_hasOpcode hi⟩
  · rw [not_exists] at h
    exact .inr ⟨h, execute_of_unassigned h₀ h₁ h⟩

/-- **The four things a cycle can do** before the timers tick. -/
theorem act_cases (m : Machine ρ) :
    (m.mode = .awaitingKey ∧ m.act = .done m.poll) ∨
      (m.mode = .running ∧ ∃ address, m.fetch = .error address ∧
        m.act = .stopped (.outOfMemory address) m) ∨
      (m.mode = .running ∧ ∃ w i, m.fetch = .ok w ∧ i.HasOpcode w ∧ m.act = m.perform i) ∨
      (m.mode = .running ∧ ∃ w, m.fetch = .ok w ∧ (∀ i : Instruction, ¬i.HasOpcode w) ∧
        m.act = .done { m with lastUnknown := some ⟨w, m.pc⟩ }) := by
  have hmodes : m.mode = .awaitingKey ∨ m.mode = .running := by cases m.mode <;> simp
  rcases hmodes with hmode | hmode
  · exact .inl ⟨hmode, act_of_awaitingKey hmode⟩
  · refine .inr ?_
    cases hfetch : m.fetch with
    | error address => exact .inl ⟨hmode, address, rfl, act_of_fetch_eq_error hmode hfetch⟩
    | ok w =>
        obtain ⟨-, h₀, h₁⟩ := fetch_eq_ok hfetch
        have hact := act_of_fetch_eq_ok hmode hfetch
        rcases m.execute_cases h₀ h₁ with ⟨i, hi, hexec⟩ | ⟨hnone, hexec⟩
        · exact .inr (.inl ⟨hmode, w, i, rfl, hi, hact.trans hexec⟩)
        · exact .inr (.inr ⟨hmode, w, rfl, hnone, hact.trans hexec⟩)

/-- A cycle with an instruction carries it out, where there is a next one too. -/
theorem act_of_instruction? {i : Instruction} (h : m.instruction? = some i) :
    m.act = m.perform i ∧ m.pc ≤ 4094 := by
  obtain ⟨hmode, w, hfetch, hi⟩ := instruction?_eq_some_iff.mp h
  rw [act_of_fetch_eq_ok hmode hfetch, execute_of_hasOpcode hi]
  exact ⟨rfl, (fetch_eq_ok hfetch).1.2⟩

/-- A cycle without an instruction looks at the keypad, fails to fetch or notes a word. -/
theorem act_of_instruction?_eq_none (h : m.instruction? = none) :
    (m.mode = .awaitingKey ∧ m.act = .done m.poll) ∨
      (∃ address, m.act = .stopped (.outOfMemory address) m) ∨
      ∃ unknown, m.act = .done { m with lastUnknown := some unknown } := by
  rcases m.act_cases with ⟨hmode, hact⟩ | ⟨-, address, -, hact⟩ | ⟨hmode, w, i, hfetch, hi, -⟩ |
    ⟨-, w, -, -, hact⟩
  · exact .inl ⟨hmode, hact⟩
  · exact .inr (.inl ⟨address, hact⟩)
  · rw [instruction?_of_fetch hmode hfetch hi] at h
    cases h
  · exact .inr (.inr ⟨_, hact⟩)

/-! ### Ticking -/

theorem cycle_eq_stopped_iff {fault : Fault} {m' : Machine ρ} :
    m.cycle = .stopped fault m' ↔ m.act = .stopped fault m' := by
  unfold cycle
  cases m.act <;> simp

theorem cycle_of_instruction? {i : Instruction} {m' : Machine ρ} (hi : m.instruction? = some i)
    (hdone : m.perform i = .done m') : m.cycle = .done m'.tick := by
  rw [cycle, (act_of_instruction? hi).1, hdone, Outcome.andThen_done]

/-- A cycle that completes ends with a tick. -/
theorem cycle_eq_done_iff {m' : Machine ρ} :
    m.cycle = .done m' ↔ ∃ acted, m.act = .done acted ∧ m' = acted.tick := by
  unfold cycle
  cases m.act with
  | done acted => simp [eq_comm]
  | stopped fault left => simp

end Chip8.Machine
