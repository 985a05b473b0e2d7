import Chip8.Machine.Notice
import Chip8.Proofs.Invariant
import Chip8.Proofs.Pixels

/-!
# Chip8.Proofs.Faults

When a cycle faults, which fault it reports and what it leaves behind.

`Machine.Stops` says for each instruction when it stops, with the fault and the machine that is
left; `perform_eq_stopped_iff` proves that this is what `perform` does in a machine within its
bounds. The two results about cycles are read off it: `Machine.Faults` lists the causes with their
exact conditions, `Machine.Leaves` what can be left behind.
-/

namespace Chip8.Machine

open Memory (Spans firstMissing)

variable {ρ : Type} {m : Machine ρ}

/-! ### Instructions -/

/-- The instructions that stop, each with the condition, the fault and what it leaves. -/
inductive Stops (m : Machine ρ) : Instruction → Fault → Machine ρ → Prop
  | ret (h : m.sp = 0) : Stops m .ret (.returnWithoutCall m.pc) m
  | call (target : Fin 4096) (h : m.sp = 16) :
    Stops m (.call target) (.callTooDeep target m.pc) m
  | draw (x y rows : Fin 16) (h : ¬Spans m.i rows) : Stops m (.draw x y rows) m.overrun m
  | storeDecimal (x : Fin 16) (h : ¬Spans m.i 3) :
    Stops m (.storeDecimal x) m.overrun (m.storing ((decimalDigits m.v[x]).map lowByte))
  | storeRegisters (x : Fin 16) (h : ¬Spans m.i (x.val + 1)) :
    Stops m (.storeRegisters x) m.overrun
      (m.storing ((registersTo x).map fun k => lowByte m.v[k]))
  | loadRegisters (x : Fin 16) (h : ¬Spans m.i (x.val + 1)) :
    Stops m (.loadRegisters x) m.overrun (m.loading (x.val + 1))

theorem done_or_stopped_iff {c : Prop} [Decidable c] {a b m' : Machine ρ} {fault fault' : Fault} :
    (if c then .done a else .stopped fault b : Outcome (Machine ρ)) = .stopped fault' m' ↔
      ¬c ∧ fault = fault' ∧ b = m' := by
  by_cases hc : c <;> simp [hc]

theorem stopped_or_done_iff {c : Prop} [Decidable c] {a b m' : Machine ρ} {fault fault' : Fault} :
    (if c then .stopped fault a else .done b : Outcome (Machine ρ)) = .stopped fault' m' ↔
      c ∧ fault = fault' ∧ a = m' := by
  by_cases hc : c <;> simp [hc]

theorem perform_of_stops [RandomSource ρ] (h : m.Bounded) {i : Instruction} {fault : Fault}
    {m' : Machine ρ} (hstops : m.Stops i fault m') : m.perform i = .stopped fault m' := by
  cases hstops with
  | ret hsp => rw [perform_ret h.sp.1 h.sp.2, if_pos hsp]
  | call target hsp => rw [perform_call h.sp.1 h.sp.2, if_pos hsp]
  | draw x y rows hspans => rw [perform_draw h.i.1, if_neg hspans]
  | storeDecimal x hspans => rw [perform_storeDecimal h.i.1, if_neg hspans]
  | storeRegisters x hspans => rw [perform_storeRegisters h.i.1, if_neg hspans]
  | loadRegisters x hspans => rw [perform_loadRegisters h.i.1, if_neg hspans]

theorem stops_of_perform [RandomSource ρ] (h : m.Bounded) (hw : 0 < m.screen.width)
    (hh : 0 < m.screen.height) {i : Instruction} {fault : Fault} {m' : Machine ρ}
    (hstop : m.perform i = .stopped fault m') : m.Stops i fault m' := by
  cases i with
  | ret =>
      rw [perform_ret h.sp.1 h.sp.2, stopped_or_done_iff] at hstop
      obtain ⟨hsp, rfl, rfl⟩ := hstop
      exact .ret hsp
  | call target =>
      rw [perform_call h.sp.1 h.sp.2, stopped_or_done_iff] at hstop
      obtain ⟨hsp, rfl, rfl⟩ := hstop
      exact .call target hsp
  | draw x y rows =>
      -- With pixels to draw on, only the reading of the sprite can fail.
      rw [perform_draw h.i.1, Screen.draw?_of_pos hw hh, done_or_stopped_iff] at hstop
      obtain ⟨hspans, rfl, rfl⟩ := hstop
      exact .draw x y rows hspans
  | storeDecimal x =>
      rw [perform_storeDecimal h.i.1, done_or_stopped_iff] at hstop
      obtain ⟨hspans, rfl, rfl⟩ := hstop
      exact .storeDecimal x hspans
  | storeRegisters x =>
      rw [perform_storeRegisters h.i.1, done_or_stopped_iff] at hstop
      obtain ⟨hspans, rfl, rfl⟩ := hstop
      exact .storeRegisters x hspans
  | loadRegisters x =>
      rw [perform_loadRegisters h.i.1, done_or_stopped_iff] at hstop
      obtain ⟨hspans, rfl, rfl⟩ := hstop
      exact .loadRegisters x hspans
  | _ => cases hstop

/-- **Where instructions stop.** In a machine within its bounds, on a screen with pixels, an
instruction stops exactly as `Stops` says; nothing else can go wrong with it. -/
theorem perform_eq_stopped_iff [RandomSource ρ] (h : m.Bounded) (hw : 0 < m.screen.width)
    (hh : 0 < m.screen.height) {i : Instruction} {fault : Fault} {m' : Machine ρ} :
    m.perform i = .stopped fault m' ↔ m.Stops i fault m' :=
  ⟨stops_of_perform h hw hh, perform_of_stops h⟩

theorem fault?_eq_some_iff {o : Outcome (Machine ρ)} {fault : Fault} :
    o.fault? = some fault ↔ ∃ m', o = .stopped fault m' := by
  cases o <;> simp

/-- Whether a cycle faults: the fetch fails, or the instruction that was fetched stops. -/
theorem cycle_eq_stopped_iff_stops [RandomSource ρ] (h : m.Sound) (hw : 0 < m.screen.width)
    (hh : 0 < m.screen.height) {fault : Fault} {m' : Machine ρ} :
    m.cycle = .stopped fault m' ↔
      m.mode = .running ∧
        ((4095 ≤ m.pc ∧ fault = .outOfMemory (max m.pc 4096) ∧ m' = m) ∨
          ∃ w i, m.fetch = .ok w ∧ i.HasOpcode w ∧ m.Stops i fault m') := by
  rw [cycle_eq_stopped_iff]
  constructor
  · intro hact
    rcases m.act_cases with ⟨-, hdone⟩ | ⟨hmode, address, hfetch, hstop⟩ |
      ⟨hmode, w, i, hfetch, hi, hperform⟩ | ⟨-, w, -, -, hdone⟩
    · rw [hdone] at hact
      cases hact
    · rw [hstop] at hact
      cases hact
      obtain ⟨hpc, rfl⟩ := fetch_eq_error h.pc.1 hfetch
      exact ⟨hmode, .inl ⟨hpc, rfl, rfl⟩⟩
    · rw [hperform] at hact
      exact ⟨hmode, .inr ⟨w, i, hfetch, hi, (perform_eq_stopped_iff h.toBounded hw hh).mp hact⟩⟩
    · rw [hdone] at hact
      cases hact
  · rintro ⟨hmode, ⟨hpc, rfl, rfl⟩ | ⟨w, i, hfetch, hi, hstop⟩⟩
    · exact act_of_fetch_eq_error hmode (fetch_of_le hpc)
    · rw [act_of_fetch_eq_ok hmode hfetch, execute_of_hasOpcode hi]
      exact (perform_eq_stopped_iff h.toBounded hw hh).mpr hstop

/-! ### The causes -/

/-- The faults of a cycle that runs an instruction, each with its condition and the class it is
raised as: a call or a return that the stack has no place for is a `StackFault`, an access outside
memory a `MemoryFault`. Of such an access the first address that does not exist is reported, which
is the end of memory, or the address at which the access begins if that is further on. -/
inductive Faults (m : Machine ρ) : Fault → ErrorKind → Prop
  /-- The opcode is not in memory, or only its first byte is. -/
  | fetch (h : 4095 ≤ m.pc) : Faults m (.outOfMemory (max m.pc 4096)) .memoryFault
  | ret (hw : m.fetch = .ok 0x00EE) (h : m.sp = 0) :
    Faults m (.returnWithoutCall m.pc) .stackFault
  | call (target : Fin 4096) (hw : m.fetch = .ok (0x2000 + target.val)) (h : m.sp = 16) :
    Faults m (.callTooDeep target m.pc) .stackFault
  /-- A sprite that reaches out of memory. One without rows reaches nowhere. -/
  | draw (x y rows : Fin 16)
    (hw : m.fetch = .ok (0xD000 + 0x100 * x.val + 0x10 * y.val + rows.val))
    (hrows : 1 ≤ rows.val) (h : 4095 < m.i + rows.val - 1) :
    Faults m (.outOfMemory (max m.i 4096)) .memoryFault
  | storeDecimal (x : Fin 16) (hw : m.fetch = .ok (0xF033 + 0x100 * x.val))
    (h : 4095 < m.i + 2) : Faults m (.outOfMemory (max m.i 4096)) .memoryFault
  | storeRegisters (x : Fin 16) (hw : m.fetch = .ok (0xF055 + 0x100 * x.val))
    (h : 4095 < m.i + x.val) : Faults m (.outOfMemory (max m.i 4096)) .memoryFault
  | loadRegisters (x : Fin 16) (hw : m.fetch = .ok (0xF065 + 0x100 * x.val))
    (h : 4095 < m.i + x.val) : Faults m (.outOfMemory (max m.i 4096)) .memoryFault

/-- Each fault is of the class its cause is listed with. -/
theorem Faults.kind?_eq {fault : Fault} {kind : ErrorKind} (h : m.Faults fault kind) :
    fault.kind? = some kind := by
  cases h <;> rfl

/-- The reported fault of an instruction that stops is among those listed. -/
theorem faults_of_stops {w : Int} {i : Instruction} (hw : m.fetch = .ok w) (hi : i.HasOpcode w)
    {fault : Fault} {m' : Machine ρ} (h : m.Stops i fault m') : ∃ kind, m.Faults fault kind := by
  cases h with
  | ret hsp =>
      obtain rfl := hi
      exact ⟨_, .ret hw hsp⟩
  | call target hsp =>
      obtain rfl := hi
      exact ⟨_, .call target hw hsp⟩
  | draw x y rows hspans =>
      obtain rfl := hi
      obtain ⟨hrows, hend⟩ := (Memory.not_spans_iff _ _).mp hspans
      exact ⟨_, .draw x y rows hw hrows hend⟩
  | storeDecimal x hspans =>
      obtain rfl := hi
      have hend := (Memory.not_spans_iff _ _).mp hspans
      exact ⟨_, .storeDecimal x hw (by omega)⟩
  | storeRegisters x hspans =>
      obtain rfl := hi
      have hend := (Memory.not_spans_iff _ _).mp hspans
      exact ⟨_, .storeRegisters x hw (by omega)⟩
  | loadRegisters x hspans =>
      obtain rfl := hi
      have hend := (Memory.not_spans_iff _ _).mp hspans
      exact ⟨_, .loadRegisters x hw (by omega)⟩

/-- Each fault listed has an instruction that stops with it, unless it is that of the fetch. -/
theorem Faults.exists_stops {fault : Fault} {kind : ErrorKind} (h : m.Faults fault kind) :
    (4095 ≤ m.pc ∧ fault = .outOfMemory (max m.pc 4096)) ∨
      ∃ w i m', m.fetch = .ok w ∧ Instruction.HasOpcode w i ∧ m.Stops i fault m' := by
  cases h with
  | fetch hpc => exact .inl ⟨hpc, rfl⟩
  | ret hw hsp => exact .inr ⟨_, .ret, _, hw, rfl, .ret hsp⟩
  | call target hw hsp => exact .inr ⟨_, .call target, _, hw, rfl, .call target hsp⟩
  | draw x y rows hw hrows hi =>
      have hspans : ¬Spans m.i rows.val := (Memory.not_spans_iff _ _).mpr ⟨hrows, hi⟩
      exact .inr ⟨_, .draw x y rows, _, hw, rfl, .draw x y rows hspans⟩
  | storeDecimal x hw hi =>
      have hspans : ¬Spans m.i 3 := (Memory.not_spans_iff _ _).mpr ⟨by decide, by omega⟩
      exact .inr ⟨_, .storeDecimal x, _, hw, rfl, .storeDecimal x hspans⟩
  | storeRegisters x hw hi =>
      have hspans : ¬Spans m.i (x.val + 1) := by rw [Memory.spans_iff]; omega
      exact .inr ⟨_, .storeRegisters x, _, hw, rfl, .storeRegisters x hspans⟩
  | loadRegisters x hw hi =>
      have hspans : ¬Spans m.i (x.val + 1) := by rw [Memory.spans_iff]; omega
      exact .inr ⟨_, .loadRegisters x, _, hw, rfl, .loadRegisters x hspans⟩

/-- **The exact condition of a fault.** A cycle of a machine that can come up faults if it runs an
instruction and one of the causes is there, and then it reports that cause; in no other way does it
go wrong. What it reports is of the class the cause is listed with. -/
theorem cycle_fault_iff [RandomSource ρ] (h : m.Reachable) (fault : Fault) :
    (m.cycle.fault? = some fault ↔ m.mode = .running ∧ ∃ kind, m.Faults fault kind) ∧
      ∀ kind, m.Faults fault kind → fault.kind? = some kind := by
  obtain ⟨hw, hh⟩ := h.screen_pos
  have hstop (m' : Machine ρ) : m.cycle = .stopped fault m' ↔ _ :=
    cycle_eq_stopped_iff_stops h.sound hw hh
  refine ⟨?_, fun kind hfaults => hfaults.kind?_eq⟩
  rw [fault?_eq_some_iff]
  constructor
  · rintro ⟨m', hcycle⟩
    obtain ⟨hmode, ⟨hpc, rfl, -⟩ | ⟨w, i, hfetch, hi, hstop⟩⟩ := (hstop m').mp hcycle
    · exact ⟨hmode, _, .fetch hpc⟩
    · exact ⟨hmode, faults_of_stops hfetch hi hstop⟩
  · rintro ⟨hmode, kind, hfaults⟩
    rcases hfaults.exists_stops with ⟨hpc, rfl⟩ | ⟨w, i, m', hfetch, hi, hi'⟩
    · exact ⟨m, (hstop m).mpr ⟨hmode, .inl ⟨hpc, rfl, rfl⟩⟩⟩
    · exact ⟨m', (hstop m').mpr ⟨hmode, .inr ⟨w, i, hfetch, hi, hi'⟩⟩⟩

/-- The program `AFFF`, `F155`: it stores two registers at the last address. -/
def storeAtEnd : Array UInt8 := #[0xAF, 0xFF, 0xF1, 0x55]

/-- The machine that has the program in memory. -/
def beforeIndex : Machine CyclicNumbers :=
  { source := ⟨[0], [0]⟩, memory := Memory.initial.overlay programStart storeAtEnd }

/-- The machine that is about to store. -/
def beforeStore : Machine CyclicNumbers := (Machine.next { beforeIndex with i := 0xFFF }).tick

theorem reachable_beforeStore : beforeStore.Reachable := by
  have hi : beforeIndex.instruction? = some (.loadIndex 0xFFF) :=
    instruction?_of_program (k := 0) rfl rfl rfl (by decide) (by decide) rfl
  have hloaded : beforeIndex.Reachable :=
    reachable_of_program (by decide) _ _ (by decide) (by decide)
  exact hloaded.of_cycle (cycle_of_instruction? hi rfl)

theorem fetch_beforeStore : beforeStore.fetch = .ok 0xF155 := by
  have hmem : beforeStore.memory = Memory.initial.overlay programStart storeAtEnd := rfl
  exact fetch_of_program (k := 2) hmem rfl (by decide) (by decide) (by decide)

theorem cycle_beforeStore :
    beforeStore.cycle = .stopped beforeStore.overrun
      (beforeStore.storing ((registersTo 1).map fun k => lowByte beforeStore.v[k])) := by
  rw [cycle, act_of_fetch_eq_ok rfl fetch_beforeStore,
    execute_of_hasOpcode (w := 0xF155) (i := .storeRegisters 1) rfl,
    perform_storeRegisters (by decide), if_neg (by decide)]
  rfl

/-- Storing registers is refused where the second of them has no place. -/
theorem faults_beforeStore : beforeStore.Faults (.outOfMemory 4096) .memoryFault :=
  .storeRegisters 1 fetch_beforeStore (by decide)

/-- Of two registers at the last address the second has no place. -/
theorem cycle_fault_beforeStore :
    beforeStore.Reachable ∧ beforeStore.cycle.fault? = some (.outOfMemory 4096) ∧
      (Fault.outOfMemory 4096).kind? = some .memoryFault :=
  ⟨reachable_beforeStore,
    (cycle_fault_iff reachable_beforeStore _).1.mpr ⟨rfl, _, faults_beforeStore⟩,
    (cycle_fault_iff reachable_beforeStore _).2 _ faults_beforeStore⟩

/-! ### What is left -/

/-- Values have been stored from the index register on, as far as memory reaches, and nothing else
has changed. -/
structure Stored (m : Machine ρ) (values : List Int) (m' : Machine ρ) : Prop where
  frame : m' = { m with memory := m'.memory }
  stored (k : Nat) (hk : k < values.length) (h : m.i + k ≤ 4095) :
    (m'.memory.read? (m.i + k)).map (fun b => (b.toNat : Int)) = some values[k]
  kept (address : Int) (h : ∀ k : Nat, k < values.length → address ≠ m.i + k) :
    m'.memory.read? address = m.memory.read? address

/-- The first `n` registers have been loaded from the index register on, as far as memory reaches,
and nothing else has changed. -/
structure Loaded (m : Machine ρ) (n : Nat) (m' : Machine ρ) : Prop where
  frame : m' = { m with v := m'.v }
  loaded (k : Fin 16) (hk : k < n) (h : m.i + k ≤ 4095) :
    (m.memory.read? (m.i + k)).map (fun b => (b.toNat : Int)) = some m'.v[k]
  kept (k : Fin 16) (h : ¬(k < n ∧ m.i + k ≤ 4095)) : m'.v[k] = m.v[k]

/-- How a machine can look after a cycle that faulted. Three instructions leave a part of their work
behind, and all others leave the machine as it was. -/
inductive Leaves (m : Machine ρ) : Machine ρ → Prop
  | storedDecimal (x : Fin 16) (hw : m.fetch = .ok (0xF033 + 0x100 * x.val)) {m' : Machine ρ}
    (h : m.Stored [m.v[x] / 100, m.v[x] / 10 % 10, m.v[x] % 10] m') : Leaves m m'
  | storedRegisters (x : Fin 16) (hw : m.fetch = .ok (0xF055 + 0x100 * x.val)) {m' : Machine ρ}
    (h : m.Stored (m.v.toList.take (x.val + 1)) m') : Leaves m m'
  | loadedRegisters (x : Fin 16) (hw : m.fetch = .ok (0xF065 + 0x100 * x.val)) {m' : Machine ρ}
    (h : m.Loaded (x.val + 1) m') : Leaves m m'
  | unchanged (hw : ∀ x : Fin 16, m.fetch ≠ .ok (0xF033 + 0x100 * x.val) ∧
      m.fetch ≠ .ok (0xF055 + 0x100 * x.val) ∧ m.fetch ≠ .ok (0xF065 + 0x100 * x.val)) :
    Leaves m m

theorem stored_storing (h₀ : 0 ≤ m.i) {values : List Int} (hvalues : ∀ a ∈ values, IsByte a) :
    m.Stored values (m.storing (values.map lowByte)) where
  frame := rfl
  stored k hk h := by
    have hlen : k < (values.map lowByte).length := by rwa [List.length_map]
    rw [storing, Memory.read?_withBytes_of_lt h₀ hlen (by unfold memorySize; omega),
      Option.map_some, List.getElem_map, (hvalues _ (List.getElem_mem hk)).toNat_lowByte]
  kept address h := by
    refine Memory.read?_withBytes_of_ne fun k hk => h k ?_
    rwa [List.length_map] at hk

theorem loaded_loading (h₀ : 0 ≤ m.i) (n : Nat) : m.Loaded n (m.loading n) where
  frame := rfl
  loaded k hk h := by
    have hlt : m.i + k < memorySize := by unfold memorySize; omega
    rw [Memory.read?_of_mem (by omega) hlt, Option.map_some, loading,
      getElem_loadedRegisters, if_pos ⟨hk, hlt⟩]
  kept k h := by
    rw [loading, getElem_loadedRegisters,
      if_neg (by unfold memorySize; omega)]

theorem isByte_decimalDigits {value : Int} (h : IsByte value) {a : Int}
    (ha : a ∈ decimalDigits value) : IsByte a := by
  obtain ⟨hlow, hhigh⟩ := h
  simp only [decimalDigits, List.mem_cons, List.not_mem_nil, or_false] at ha
  exact ⟨by omega, by omega⟩

/-- A store of digits stores them, as far as memory reaches. -/
theorem stored_digits (h₀ : 0 ≤ m.i) {x : Fin 16} (hx : IsByte m.v[x]) :
    m.Stored [m.v[x] / 100, m.v[x] / 10 % 10, m.v[x] % 10]
      (m.storing ((decimalDigits m.v[x]).map lowByte)) :=
  stored_storing h₀ fun _ ha => isByte_decimalDigits hx ha

/-- A store of registers stores them, as far as memory reaches. -/
theorem stored_registers (h₀ : 0 ≤ m.i) (hv : ∀ k : Fin 16, IsByte m.v[k]) (x : Fin 16) :
    m.Stored (m.v.toList.take (x.val + 1))
      (m.storing ((registersTo x).map fun k => lowByte m.v[k])) := by
  have hvalues : ∀ a ∈ m.v.toList.take (x.val + 1), IsByte a := by
    intro a ha
    rw [← map_registersTo, List.mem_map] at ha
    obtain ⟨k, -, rfl⟩ := ha
    exact hv k
  have hstored := stored_storing h₀ hvalues
  rw [← map_registersTo] at hstored ⊢
  rwa [List.map_map] at hstored

/-- Opcodes of other instructions leave nothing behind. -/
theorem leaves_self {w : Int} (hw : m.fetch = .ok w)
    (h : ∀ x : Fin 16, w ≠ 0xF033 + 0x100 * x.val ∧ w ≠ 0xF055 + 0x100 * x.val ∧
      w ≠ 0xF065 + 0x100 * x.val) : m.Leaves m := by
  refine .unchanged fun x => ?_
  rw [hw]
  simpa only [ne_eq, Except.ok.injEq] using h x

/-- What an instruction that stops leaves. -/
theorem leaves_of_stops (h : m.Bounded) {w : Int} {i : Instruction} (hw : m.fetch = .ok w)
    (hi : i.HasOpcode w) {fault : Fault} {m' : Machine ρ} (hstop : m.Stops i fault m') :
    m.Leaves m' := by
  cases hstop with
  | ret =>
      obtain rfl := hi
      exact leaves_self hw fun x => by omega
  | call target =>
      obtain rfl := hi
      exact leaves_self hw fun x => by omega
  | draw x y rows =>
      obtain rfl := hi
      exact leaves_self hw fun x => by omega
  | storeDecimal x =>
      obtain rfl := hi
      exact .storedDecimal x hw (stored_digits h.i.1 (h.v x))
  | storeRegisters x =>
      obtain rfl := hi
      exact .storedRegisters x hw (stored_registers h.i.1 h.v x)
  | loadRegisters x =>
      obtain rfl := hi
      exact .loadedRegisters x hw (loaded_loading h.i.1 _)

/-- The cue sounds only at the end of a cycle. -/
theorem cue_notMem_actNotices (m : Machine ρ) (pc delay sound : Int) (flag : Bool) :
    Notice.cue pc delay sound flag ∉ m.actNotices := by
  unfold actNotices executeNotices
  split
  · simp
  · split
    · simp
    · split <;> simp

/-- **What a fault leaves behind.** A cycle that faults leaves the machine as it found it, except
for the cells that a store and the registers that a load has reached. The cue is silent. -/
theorem leaves_of_cycle_eq_stopped [RandomSource ρ] (h : m.Reachable) {fault : Fault}
    {m' : Machine ρ} (hcycle : m.cycle = .stopped fault m') :
    m.Leaves m' ∧ m.cues = false ∧
      ∀ pc delay sound flag, Notice.cue pc delay sound flag ∉ m.observe.1 := by
  obtain ⟨hw, hh⟩ := h.screen_pos
  have hact := cycle_eq_stopped_iff.mp hcycle
  refine ⟨?_, by rw [cues, hact], fun pc delay sound flag => ?_⟩
  · obtain ⟨-, ⟨hpc, -, rfl⟩ | ⟨w, i, hfetch, hi, hstop⟩⟩ :=
      (cycle_eq_stopped_iff_stops h.sound hw hh).mp hcycle
    · exact .unchanged fun x => by simp [fetch_of_le hpc]
    · exact leaves_of_stops h.sound.toBounded hfetch hi hstop
  · rw [observe, hact]
    exact m.cue_notMem_actNotices pc delay sound flag

/-- Of two registers at the last address the first has been stored. -/
theorem leaves_beforeStore :
    beforeStore.Reachable ∧ ∃ m', beforeStore.cycle = .stopped (.outOfMemory 4096) m' ∧
      beforeStore.Leaves m' :=
  ⟨reachable_beforeStore, _, cycle_beforeStore,
    (leaves_of_cycle_eq_stopped reachable_beforeStore cycle_beforeStore).1⟩

end Chip8.Machine
