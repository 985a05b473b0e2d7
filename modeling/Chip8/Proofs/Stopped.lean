import Chip8.Proofs.Faults
import Chip8.Proofs.KeyWait

/-!
# Chip8.Proofs.Stopped

A machine that has faulted faults again.

The program counter does not move in a cycle that faults, so the next cycle fetches from the same
two cells. What a fault leaves behind is a part of a store or of a register load, and doing that
part twice is doing it once (`exists_storing_eq`, `loading_loading`). Hence the next cycle stops in
the same way and leaves nothing new, as often as it is tried and whatever keys are pressed in
between (`stays_stopped`).

There is one way out. A store can put its bytes over its own opcode (`WritesItself`), which takes an
opcode at the end of memory, and the next cycle then runs whatever stands there
(`runs_what_it_stored`).
-/

namespace Chip8

/-! ### Doing a part of an instruction twice -/

namespace Memory

variable {mem : Memory} {base : Int}

theorem withBytes_withBytes (mem : Memory) (base : Int) (bytes : List UInt8) :
    (mem.withBytes base bytes).withBytes base bytes = mem.withBytes base bytes := by
  refine ext_cells fun a => ?_
  rw [cells_withBytes, cells_withBytes]
  split
  · simp only [List.getD_eq_getElem?_getD]
    cases bytes[(a.val - base).toNat]? <;> rfl
  · rfl

end Memory

namespace Machine

variable {ρ : Type} {m m' : Machine ρ} {fault : Fault}

/-- A store of bytes that are already there. -/
theorem storing_of_fixed {memory : Memory} {bytes : List UInt8}
    (h : memory.withBytes m.i bytes = memory) :
    Machine.storing { m with memory } bytes = { m with memory } := by
  rw [storing]
  dsimp only
  rw [h]

-- The memory is named, because comparing it with the old one would unfold all its cells.
/-- What a store leaves is a memory that the same store leaves alone. -/
theorem exists_storing_eq (m : Machine ρ) (bytes : List UInt8) :
    ∃ memory, m.storing bytes = { m with memory } ∧
      Machine.storing { m with memory } bytes = { m with memory } := by
  refine ⟨m.memory.withBytes m.i bytes, rfl, storing_of_fixed ?_⟩
  exact Memory.withBytes_withBytes m.memory m.i bytes

/-- A register that has been stored is found in its cell. -/
theorem read?_storing_registers (h : m.Bounded) {x k : Fin 16} (hk : k ≤ x)
    (hmem : m.i + k.val ≤ 4095) :
    (m.memory.withBytes m.i ((registersTo x).map fun k => lowByte m.v[k])).read? (m.i + k.val) =
      some (lowByte m.v[k]) := by
  have hregister : (registersTo x)[k.val]? = some k := by
    rw [registersTo, List.getElem?_take_of_lt (by omega), List.getElem?_eq_getElem (by simp)]
    simp
  have hlen : k.val < ((registersTo x).map fun k => lowByte m.v[k]).length := by
    rw [List.length_map, length_registersTo]
    exact Nat.lt_succ_of_le hk
  rw [Memory.read?_withBytes_of_lt h.i.1 hlen (by unfold memorySize; omega),
    ← List.getElem?_eq_getElem hlen, List.getElem?_map, hregister]
  rfl

theorem loading_loading (m : Machine ρ) (n : Nat) : (m.loading n).loading n = m.loading n := by
  have hv : (m.loading n).loadedRegisters n = m.loadedRegisters n := by
    refine ext_entries fun k => ?_
    have hloaded : (m.loading n).v[k] = (m.loadedRegisters n)[k] := rfl
    rw [getElem_loadedRegisters, memory_loading, i_loading, hloaded, getElem_loadedRegisters]
    by_cases h : k.val < n ∧ m.i + k.val < memorySize
    · simp only [if_pos h]
    · simp only [if_neg h]
  rw [loading, hv]
  rfl

/-- Loading registers does not look at the keys. -/
theorem loading_withKeypad (m : Machine ρ) (keypad : Keypad) (n : Nat) :
    Machine.loading { m with keypad } n = { m.loading n with keypad } := by
  have hv : Machine.loadedRegisters { m with keypad } n = m.loadedRegisters n :=
    ext_entries fun k => by rw [getElem_loadedRegisters, getElem_loadedRegisters]
  rw [loading, hv]
  rfl

/-! ### The opcode of a machine that has stopped -/

/-- Of the `n` cells from the index register on, one is in memory and holds a byte of the opcode. -/
def CoversOpcode (m : Machine ρ) (n : Nat) : Prop :=
  ∃ k : Nat, k < n ∧ m.i + k ≤ 4095 ∧ (m.i + k = m.pc ∨ m.i + k = m.pc + 1)

/-- The instruction is a store, and it writes over its own opcode. -/
inductive WritesItself (m : Machine ρ) : Prop
  | storeDecimal (x : Fin 16) (hw : m.fetch = .ok (0xF033 + 0x100 * x.val))
    (h : m.CoversOpcode 3)
  | storeRegisters (x : Fin 16) (hw : m.fetch = .ok (0xF055 + 0x100 * x.val))
    (h : m.CoversOpcode (x.val + 1))

theorem fetch_storing {w : Int} (hfetch : m.fetch = .ok w) {bytes : List UInt8}
    (h : ¬m.CoversOpcode bytes.length) : (m.storing bytes).fetch = .ok w := by
  have hpc := (fetch_eq_ok hfetch).1
  have hhigh : (m.memory.withBytes m.i bytes).read? m.pc = m.memory.read? m.pc :=
    Memory.read?_withBytes_of_ne fun k hk heq => h ⟨k, hk, by omega, by omega⟩
  have hlow : (m.memory.withBytes m.i bytes).read? (m.pc + 1) = m.memory.read? (m.pc + 1) :=
    Memory.read?_withBytes_of_ne fun k hk heq => h ⟨k, hk, by omega, by omega⟩
  rw [← hfetch]
  simp only [fetch, storing, hhigh, hlow]

/-- The same opcode is fetched again, unless the store that stopped has written over it. -/
theorem fetch_of_stops {w : Int} {i : Instruction} (hfetch : m.fetch = .ok w)
    (hi : i.HasOpcode w) (hcode : ¬m.WritesItself) (hstop : m.Stops i fault m') :
    m'.fetch = .ok w := by
  cases hstop with
  | ret | call | draw => exact hfetch
  | storeDecimal x =>
      obtain rfl := hi
      exact fetch_storing hfetch fun hcovers => hcode (.storeDecimal x hfetch hcovers)
  | storeRegisters x =>
      obtain rfl := hi
      refine fetch_storing hfetch fun hcovers => hcode (.storeRegisters x hfetch ?_)
      rwa [List.length_map, length_registersTo] at hcovers
  | loadRegisters x => exact hfetch

/-! ### The next cycle -/

/-- A store that stops whatever is in memory stops again after itself. -/
theorem stops_storing {i : Instruction} {bytes : List UInt8}
    (h : ∀ memory, Stops { m with memory } i fault (Machine.storing { m with memory } bytes)) :
    (m.storing bytes).Stops i fault (m.storing bytes) := by
  obtain ⟨memory, hstoring, hagain⟩ := m.exists_storing_eq bytes
  have hstop := h memory
  rw [hagain] at hstop
  rwa [hstoring]

/-- An instruction that has stopped stops again and leaves nothing new. -/
theorem Stops.again {i : Instruction} (hstop : m.Stops i fault m') : m'.Stops i fault m' := by
  cases hstop with
  | ret hsp => exact .ret hsp
  | call target hsp => exact .call target hsp
  | draw x y rows hspans => exact .draw x y rows hspans
  | storeDecimal x hspans => exact stops_storing fun _ => .storeDecimal x hspans
  | storeRegisters x hspans => exact stops_storing fun _ => .storeRegisters x hspans
  | loadRegisters x hspans =>
      have hstop := Stops.loadRegisters (m := m.loading (x.val + 1)) x hspans
      rwa [loading_loading] at hstop

/-- No instruction that stops has looked at the keys. -/
theorem Stops.withKeypad {i : Instruction} (hstop : m.Stops i fault m') (keypad : Keypad) :
    Stops { m with keypad } i fault { m' with keypad } := by
  cases hstop with
  | ret hsp => exact .ret hsp
  | call target hsp => exact .call target hsp
  | draw x y rows hspans => exact .draw x y rows hspans
  | storeDecimal x hspans => exact .storeDecimal x hspans
  | storeRegisters x hspans => exact .storeRegisters x hspans
  | loadRegisters x hspans =>
      have hstop := Stops.loadRegisters (m := { m with keypad }) x hspans
      rwa [loading_withKeypad] at hstop

variable [RandomSource ρ]

/-- However the keys are held, the next cycle stops with this fault and changes nothing. -/
def Stuck (m : Machine ρ) (fault : Fault) : Prop :=
  ∀ keypad : Keypad, cycle { m with keypad } = .stopped fault { m with keypad }

theorem stuck_of_cycle_eq_stopped (h : m.Sound) (hw : 0 < m.screen.width)
    (hh : 0 < m.screen.height) (hcycle : m.cycle = .stopped fault m') (hcode : ¬m.WritesItself) :
    m'.Stuck fault := by
  intro keypad
  have hkept := changesOnly_of_cycle_eq_stopped h.toBounded hcycle
  have hmode : m'.mode = m.mode := hkept .mode (by decide)
  have hscreen : m'.screen = m.screen := hkept .screen (by decide)
  have hsound : m'.Sound := by
    have hafter := h.cycle
    rwa [hcycle] at hafter
  have hsound' : Sound { m' with keypad } := { hsound with }
  rw [cycle_eq_stopped_iff_stops hsound' (by rwa [hscreen]) (by rwa [hscreen])]
  -- The first cycle stopped at the program counter or in an instruction; so does this one.
  obtain ⟨hrunning, ⟨hpc, rfl, rfl⟩ | ⟨w, i, hfetch, hi, hstop⟩⟩ :=
    (cycle_eq_stopped_iff_stops h hw hh).mp hcycle
  · exact ⟨hrunning, .inl ⟨hpc, rfl, rfl⟩⟩
  · have hagain : m'.fetch = .ok w := fetch_of_stops hfetch hi hcode hstop
    exact ⟨hmode.trans hrunning, .inr ⟨w, i, hagain, hi, hstop.again.withKeypad keypad⟩⟩

/-- Only the keys move. -/
theorem Stuck.operate (h : m.Stuck fault) {op : Operation} (hplay : op.isPlay = true) :
    m.operate op = { m with keypad := op.onKeypad m.keypad } := by
  cases op with
  | cycle =>
      have hcycle : m.cycle = .stopped fault m := h m.keypad
      rw [Machine.operate, hcycle]
      rfl
  | keyDown | keyUp => rfl
  | load | clearDrawFlag | clearCueFlag => cases hplay

theorem Stuck.after (h : m.Stuck fault) {run : List Operation}
    (hplay : ∀ op ∈ run, op.isPlay = true) :
    m.after run = { m with keypad := run.foldl (fun pad op => op.onKeypad pad) m.keypad } := by
  induction run generalizing m with
  | nil => rfl
  | cons op run ih =>
      have hstuck : Stuck { m with keypad := op.onKeypad m.keypad } fault := h
      rw [after_cons, h.operate (hplay op List.mem_cons_self),
        ih hstuck fun op hop => hplay op (List.mem_cons_of_mem _ hop)]
      rfl

/-- **A machine that has faulted stays as it is.** Unless the instruction was a store over its own
opcode, every further cycle reports the same fault and changes nothing, whatever keys go up and down
between the cycles: the keypad is all that differs from what the first fault left. -/
theorem stays_stopped (h : m.Reachable) (hcycle : m.cycle = .stopped fault m')
    (hcode : ¬m.WritesItself) {run : List Operation} (hplay : ∀ op ∈ run, op.isPlay = true) :
    m'.after run = { m' with keypad := run.foldl (fun pad op => op.onKeypad pad) m'.keypad } ∧
      (m'.after run).cycle = .stopped fault (m'.after run) := by
  obtain ⟨hw, hh⟩ := h.screen_pos
  have hstuck : m'.Stuck fault := stuck_of_cycle_eq_stopped h.sound hw hh hcycle hcode
  have hafter := hstuck.after hplay
  refine ⟨hafter, ?_⟩
  rw [hafter]
  exact hstuck _

/-- A store of two registers at the last address, tried three times. -/
theorem stays_stopped_beforeStore :
    (beforeStore.Reachable ∧ ¬beforeStore.WritesItself) ∧
      ∃ m', beforeStore.cycle = .stopped (.outOfMemory 4096) m' ∧
        (m'.after [.keyDown 5, .cycle, .keyUp 5]).cycle =
          .stopped (.outOfMemory 4096) (m'.after [.keyDown 5, .cycle, .keyUp 5]) := by
  have hcode : ¬beforeStore.WritesItself := by
    have hpc : beforeStore.pc = 0x202 := rfl
    have hi : beforeStore.i = 0xFFF := rfl
    rintro (⟨x, -, k, hk, hmem, hcode⟩ | ⟨x, -, k, hk, hmem, hcode⟩) <;>
      rw [hi] at hcode <;> rw [hpc] at hcode <;> omega
  exact ⟨⟨reachable_beforeStore, hcode⟩, _, cycle_beforeStore,
    (stays_stopped reachable_beforeStore cycle_beforeStore hcode (by decide)).2⟩

/-! ### The way out -/

/-- A store that begins at its own opcode, at the end of memory, has put two registers there when it
faults. The next cycle fetches the word that they make. -/
theorem runs_what_it_stored (h : m.Bounded) (hmode : m.mode = .running) (hpc : m.pc = 0xFFE)
    (hi : m.i = 0xFFE) {x : Fin 16} (hx : 2 ≤ x) (hfetch : m.fetch = .ok (0xF055 + 0x100 * x.val)) :
    ∃ m', m.cycle = .stopped (.outOfMemory 4096) m' ∧
      m'.fetch = .ok (m.v[(0 : Fin 16)] * 256 + m.v[(1 : Fin 16)]) := by
  have hspans : ¬Memory.Spans m.i (x.val + 1) := by rw [Memory.spans_iff]; omega
  have hoverrun : m.overrun = .outOfMemory 4096 := by rw [overrun, hi]; rfl
  refine ⟨m.storing ((registersTo x).map fun k => lowByte m.v[k]), ?_, ?_⟩
  · rw [cycle_eq_stopped_iff, act_of_fetch_eq_ok hmode hfetch,
      execute_of_hasOpcode (i := .storeRegisters x) rfl, perform_storeRegisters h.i.1,
      if_neg hspans, hoverrun]
  · have hhigh := read?_storing_registers h (x := x) (k := 0) (by omega) (by rw [hi]; decide)
    have hlow := read?_storing_registers h (x := x) (k := 1) (by omega) (by rw [hi]; decide)
    rw [show m.i + (0 : Fin 16).val = m.pc by rw [hi, hpc]; rfl] at hhigh
    rw [show m.i + (1 : Fin 16).val = m.pc + 1 by rw [hi, hpc]; rfl] at hlow
    simp only [fetch, storing, hhigh, hlow, (h.v 0).toNat_lowByte, (h.v 1).toNat_lowByte]

end Machine

end Chip8
