import Chip8.Proofs.Faults
import Chip8.Proofs.Footprint

/-!
# Chip8.Proofs.Calls

Calls and returns nest.

Only a call and a return touch the stack (`stack_cases`). A call writes the slot at the stack
pointer and a return none, so the slots below the pointer keep what they hold for as long as the
pointer stays above them (`stack_below`), whatever the body of a call does in the meantime: calls of
its own, waits, jumps or stores over its own code. The return that brings the pointer back therefore
finds the address that the call left.
-/

namespace Chip8

def Instruction.isCall : Instruction → Bool
  | .call _ => true
  | _ => false

theorem Instruction.isCall_iff {i : Instruction} :
    i.isCall = true ↔ ∃ target, i = .call target := by
  cases i <;> simp [isCall]

namespace Machine

variable {ρ : Type} {m m' : Machine ρ}

/-- The number of calls among the cycles of a history. -/
def calls (history : List (Machine ρ)) : Nat :=
  history.countP fun m => m.instruction?.any Instruction.isCall

/-- The number of returns among the cycles of a history. -/
def returns (history : List (Machine ρ)) : Nat :=
  history.countP fun m => m.instruction? = some .ret

/-- A call replaces the slot at the stack pointer. -/
theorem getElem_pushed (h₀ : 0 ≤ m.sp) (h₁ : m.sp < 16) (k : Fin 16) :
    m.pushed[k] = if m.sp = k.val then m.pc else m.stack[k] := by
  rw [pushed_eq h₀ h₁, getElem_setAt]
  have hk : (⟨m.sp.toNat, by omega⟩ : Fin 16) = k ↔ m.sp = k.val := by
    rw [Fin.ext_iff]
    dsimp only
    omega
  simp only [hk]

/-- The machine after a cycle with a call. -/
def calling (m : Machine ρ) (target : Fin 4096) : Machine ρ :=
  ({ m with stack := m.pushed, sp := m.sp + 1 }.goto target.val).tick

/-- The machine after a cycle with a return. -/
def returning (m : Machine ρ) : Machine ρ :=
  ({ m with sp := m.sp - 1 }.goto (m.slot (m.sp - 1) + 2)).tick

/-! ### One cycle -/

variable [RandomSource ρ]

theorem cycle_of_call {target : Fin 4096} (hi : m.instruction? = some (.call target))
    (h₀ : 0 ≤ m.sp) (h₁ : m.sp < 16) : m.cycle = .done (m.calling target) := by
  refine cycle_of_instruction? hi ?_
  rw [perform_call h₀ (by omega), if_neg (by omega)]

theorem cycle_of_ret (hi : m.instruction? = some .ret) (h₀ : 0 < m.sp) (h₁ : m.sp ≤ 16) :
    m.cycle = .done m.returning := by
  refine cycle_of_instruction? hi ?_
  rw [perform_ret (by omega) h₁, if_neg (by omega)]

/-- What a completed cycle does to the stack: it pushes, it pops, or it does nothing. -/
theorem stack_cases (h : m.Bounded) (hcycle : m.cycle = .done m') :
    (∃ target : Fin 4096, m.instruction? = some (.call target) ∧ m.sp < 16 ∧ m'.sp = m.sp + 1 ∧
        m'.stack = m.pushed) ∨
      (m.instruction? = some .ret ∧ 0 < m.sp ∧ m'.sp = m.sp - 1 ∧ m'.stack = m.stack ∧
        m'.pc = m.slot (m.sp - 1) + 2) ∨
      (m.instruction?.any Instruction.isCall = false ∧ m.instruction? ≠ some .ret ∧
        m'.sp = m.sp ∧ m'.stack = m.stack) := by
  obtain ⟨hlow, hhigh⟩ := h.sp
  obtain ⟨acted, hact, rfl⟩ := cycle_eq_done_iff.mp hcycle
  by_cases hcall : ∃ target, m.instruction? = some (.call target)
  · obtain ⟨target, hi⟩ := hcall
    rw [(act_of_instruction? hi).1, perform_call hlow hhigh] at hact
    split at hact
    · cases hact
    · cases hact
      exact .inl ⟨target, hi, by omega, rfl, rfl⟩
  · by_cases hret : m.instruction? = some .ret
    · rw [(act_of_instruction? hret).1, perform_ret hlow hhigh] at hact
      split at hact
      · cases hact
      · cases hact
        exact .inr (.inl ⟨hret, by omega, rfl, rfl, rfl⟩)
    · refine .inr (.inr ⟨?_, hret, ?_, ?_⟩)
      · rw [Option.any_eq_false]
        intro i hi
        rw [← Bool.not_eq_true, Instruction.isCall_iff]
        rintro ⟨target, rfl⟩
        exact hcall ⟨target, hi⟩
      · have hsp : m.Keeps m.cycle.state .sp := by
          refine keeps_cycle m (by decide) fun i hi hmem => ?_
          rcases Instruction.sp_mem_footprint.mp hmem with rfl | ⟨target, rfl⟩
          · exact hret hi
          · exact hcall ⟨target, hi⟩
        rwa [hcycle] at hsp
      · have hstack : m.Keeps m.cycle.state .stack := by
          refine keeps_cycle m (by decide) fun i hi hmem => ?_
          obtain ⟨target, rfl⟩ := Instruction.stack_mem_footprint.mp hmem
          exact hcall ⟨target, hi⟩
        rwa [hcycle] at hstack

/-- A completed cycle keeps the slots below the stack pointer, and the pointer goes down by at most
one. -/
theorem stack_below_cycle (h : m.Bounded) {d : Int} (hd : d < m.sp) (hcycle : m.cycle = .done m') :
    d ≤ m'.sp ∧ ∀ k : Fin 16, k.val ≤ d → m'.stack[k] = m.stack[k] := by
  rcases stack_cases h hcycle with ⟨target, -, hroom, hsp, hstack⟩ | ⟨-, -, hsp, hstack, -⟩ |
    ⟨-, -, hsp, hstack⟩
  · refine ⟨by omega, fun k hk => ?_⟩
    rw [hstack, getElem_pushed h.sp.1 hroom, if_neg (by omega)]
  · exact ⟨by omega, fun k _ => by rw [hstack]⟩
  · exact ⟨by omega, fun k _ => by rw [hstack]⟩

/-- The stack overflows on a call with all slots in use and underflows on a return with none. -/
theorem stackFault_iff (h : m.Sound) (hw : 0 < m.screen.width) (hh : 0 < m.screen.height) :
    (∃ fault, m.cycle.fault? = some fault ∧ fault.kind? = some .stackFault) ↔
      (∃ target, m.instruction? = some (.call target)) ∧ m.sp = 16 ∨
        m.instruction? = some .ret ∧ m.sp = 0 := by
  constructor
  · rintro ⟨fault, hfault, hkind⟩
    obtain ⟨m', hstop⟩ := fault?_eq_some_iff.mp hfault
    obtain ⟨hmode, ⟨-, rfl, -⟩ | ⟨w, i, hfetch, hi, hstops⟩⟩ :=
      (cycle_eq_stopped_iff_stops h hw hh).mp hstop
    · cases hkind
    · have hinstruction := instruction?_of_fetch hmode hfetch hi
      cases hstops with
      | ret hsp => exact .inr ⟨hinstruction, hsp⟩
      | call target hsp => exact .inl ⟨⟨target, hinstruction⟩, hsp⟩
      | draw | storeDecimal | storeRegisters | loadRegisters => cases hkind
  · have hstops {i : Instruction} {fault : Fault} (hi : m.instruction? = some i)
        (hfault : m.Stops i fault m) : m.cycle.fault? = some fault := by
      obtain ⟨hmode, w, hfetch, hw'⟩ := instruction?_eq_some_iff.mp hi
      exact fault?_eq_some_iff.mpr ⟨m, (cycle_eq_stopped_iff_stops h hw hh).mpr
        ⟨hmode, .inr ⟨w, i, hfetch, hw', hfault⟩⟩⟩
    rintro (⟨⟨target, hi⟩, hsp⟩ | ⟨hi, hsp⟩)
    · exact ⟨_, hstops hi (.call target hsp), rfl⟩
    · exact ⟨_, hstops hi (.ret hsp), rfl⟩

/-! ### Runs -/

/-- While the stack pointer stays above `d`, the slots up to `d` keep what they hold. -/
theorem stack_below (h : m.Sound) {d : Int} (hd : d < m.sp) (run : List Operation)
    (hfirst : ∀ c ∈ m.history run, c.cycle.state.sp ≠ d) :
    d < (m.after run).sp ∧ ∀ k : Fin 16, k.val ≤ d → (m.after run).stack[k] = m.stack[k] := by
  induction run generalizing m with
  | nil => exact ⟨hd, fun k _ => rfl⟩
  | cons op run ih =>
      rw [after_cons]
      rcases operate_cases h.toBounded op run with ⟨hpass, hhistory⟩ | ⟨hcycle, hhistory⟩
      · have hsp : (m.operate op).sp = m.sp := hpass .sp (by decide)
        have hstack : (m.operate op).stack = m.stack := hpass .stack (by decide)
        rw [hhistory] at hfirst
        rw [← hstack]
        exact ih (h.operate op) (by omega) hfirst
      · rw [hhistory] at hfirst
        have hne := hfirst m List.mem_cons_self
        rw [hcycle, Outcome.state_done] at hne
        obtain ⟨hsp, hstack⟩ := stack_below_cycle h.toBounded hd hcycle
        obtain ⟨hend, hkept⟩ :=
          ih (h.operate op) (by omega) fun c hc => hfirst c (List.mem_cons_of_mem _ hc)
        exact ⟨hend, fun k hk => (hkept k hk).trans (hstack k hk)⟩

/-- The stack pointer counts the calls that have not returned. -/
theorem sp_after (h : m.Sound) (run : List Operation) :
    (m.after run).sp = m.sp + calls (m.history run) - returns (m.history run) := by
  induction run generalizing m with
  | nil => simp [calls, returns]
  | cons op run ih =>
      rw [after_cons, ih (h.operate op)]
      rcases operate_cases h.toBounded op run with ⟨hpass, hhistory⟩ | ⟨hcycle, hhistory⟩
      · have hsp : (m.operate op).sp = m.sp := hpass .sp (by decide)
        rw [hhistory, hsp]
      · rw [hhistory, calls, calls, returns, returns, List.countP_cons, List.countP_cons]
        rcases stack_cases h.toBounded hcycle with ⟨target, hi, -, hsp, -⟩ | ⟨hi, -, hsp, -, -⟩ |
          ⟨hcall, hret, hsp, -⟩
        · simp [hi, hsp, Instruction.isCall]
          omega
        · simp [hi, hsp, Instruction.isCall]
          omega
        · simp [hcall, hret, hsp]

/-- A cycle that brings the stack pointer down to slot `k` is a return to the address in it. -/
theorem ret_of_sp_eq (h : m.Bounded) {k : Fin 16} (hk : k.val < m.sp) (hcycle : m.cycle = .done m')
    (hsp' : m'.sp = k.val) :
    m.instruction? = some .ret ∧ m'.pc = m.stack[k] + 2 ∧ m'.stack = m.stack := by
  obtain ⟨hlow, hhigh⟩ := h.sp
  rcases stack_cases h hcycle with ⟨target, -, -, hsp, -⟩ | ⟨hret, hpos, hsp, hstack, hpc⟩ |
    ⟨-, -, hsp, -⟩
  · omega
  · have hslot : (⟨(m.sp - 1).toNat, by omega⟩ : Fin 16) = k := by
      rw [Fin.ext_iff]
      dsimp only
      omega
    rw [slot_eq (by omega) (by omega), hslot] at hpc
    exact ⟨hret, hpc, hstack⟩
  · omega

/-- After a call, the first completed cycle that brings the stack pointer back is the return from
it. -/
theorem ret_of_call (h : m.Sound) {target : Fin 4096} (hi : m.instruction? = some (.call target))
    {called returned : Machine ρ} {run : List Operation} (hcalled : m.cycle = .done called)
    (hreturned : (called.after run).cycle = .done returned) (hsp : returned.sp = m.sp)
    (hfirst : ∀ c ∈ called.history run, c.cycle.state.sp ≠ m.sp) :
    (called.after run).instruction? = some .ret ∧ returned.pc = m.pc + 2 ∧
      ∀ k : Fin 16, k.val ≤ m.sp → returned.stack[k] = called.stack[k] := by
  have hsound : called.Sound := by
    have hcycle := h.cycle
    rwa [hcalled] at hcycle
  obtain ⟨hroom, hsp', hstack⟩ : m.sp < 16 ∧ called.sp = m.sp + 1 ∧ called.stack = m.pushed := by
    rcases stack_cases h.toBounded hcalled with ⟨target', -, hpush⟩ | ⟨hret, -⟩ | ⟨hcall, -⟩
    · exact hpush
    · rw [hi] at hret
      cases hret
    · rw [hi] at hcall
      cases hcall
  -- The slot that the call wrote.
  obtain ⟨d, hd⟩ : ∃ d : Fin 16, m.sp = d.val :=
    ⟨⟨m.sp.toNat, by have := h.sp; omega⟩, by have := h.sp; dsimp only; omega⟩
  obtain ⟨habove, hbelow⟩ := stack_below hsound (d := m.sp) (by omega) run hfirst
  obtain ⟨hret, hpc, hkept⟩ := ret_of_sp_eq (hsound.after run).toBounded (k := d) (by omega)
    hreturned (hsp.trans hd)
  refine ⟨hret, ?_, fun k hk => ?_⟩
  · rw [hpc, hbelow d (by omega), hstack, getElem_pushed h.sp.1 hroom, if_pos hd]
  · rw [hkept, hbelow k hk]

/-- **Calls and returns nest.** Whatever happens in the body of a call, the first completed cycle
that brings the stack pointer back to where the call found it is a return, it goes on behind the
call, and the slots up to the one that the call wrote are as the call left them. At every moment the
stack pointer is its first value plus the calls less the returns that have completed, and the stack
faults exactly where that number would leave `0 … 16`. -/
theorem calls_and_returns_nest (h : m.Reachable) :
    (∀ (target : Fin 4096) (called : Machine ρ) (run : List Operation) (returned : Machine ρ),
      m.instruction? = some (.call target) → m.cycle = .done called →
      (called.after run).cycle = .done returned → returned.sp = m.sp →
      (∀ c ∈ called.history run, c.cycle.state.sp ≠ m.sp) →
        (called.after run).instruction? = some .ret ∧ returned.pc = m.pc + 2 ∧
          ∀ k : Fin 16, k.val ≤ m.sp → returned.stack[k] = called.stack[k]) ∧
      ∀ run : List Operation,
        let depth := m.sp + calls (m.history run) - returns (m.history run)
        (m.after run).sp = depth ∧
          ((∃ fault, (m.after run).cycle.fault? = some fault ∧ fault.kind? = some .stackFault) ↔
            (∃ target, (m.after run).instruction? = some (.call target)) ∧ 16 < depth + 1 ∨
              (m.after run).instruction? = some .ret ∧ depth - 1 < 0) := by
  refine ⟨fun target called run returned hi hcalled hreturned hsp hfirst =>
    ret_of_call h.sound hi hcalled hreturned hsp hfirst, fun run => ?_⟩
  intro depth
  have hsp : (m.after run).sp = depth := sp_after h.sound run
  have hsound := h.sound.after run
  obtain ⟨hw, hh⟩ := (h.after run).screen_pos
  refine ⟨hsp, ?_⟩
  rw [stackFault_iff hsound hw hh, hsp]
  have hbounds := hsound.sp
  have hfull : depth = 16 ↔ 16 < depth + 1 := by omega
  have hempty : depth = 0 ↔ depth - 1 < 0 := by omega
  rw [hfull, hempty]

/-- The program `2206`, two words of nothing, `220A`, `00EE`, `00EE`: a call whose body makes a call
of its own. -/
def nestedCalls : Array UInt8 := #[0x22, 0x06, 0, 0, 0, 0, 0x22, 0x0A, 0x00, 0xEE, 0x00, 0xEE]

/-- The machine that is about to make the outer call. -/
def beforeCall : Machine CyclicNumbers :=
  { source := ⟨[0], [0]⟩, memory := Memory.initial.overlay programStart nestedCalls }

theorem reachable_beforeCall : beforeCall.Reachable := by
  exact reachable_of_program (by decide) _ _ (by decide) (by decide)

/-- The outer call returns behind itself, after the inner one has come and gone. -/
theorem nested_calls_return :
    let inBody := beforeCall.calling 0x206
    let behindInner := (inBody.calling 0x20A).returning
    beforeCall.Reachable ∧ beforeCall.cycle = .done inBody ∧
      inBody.after [.cycle, .cycle] = behindInner ∧
      behindInner.cycle = .done behindInner.returning ∧
      behindInner.returning.pc = beforeCall.pc + 2 := by
  intro inBody behindInner
  have houter : beforeCall.instruction? = some (.call 0x206) :=
    instruction?_of_program (k := 0) rfl rfl rfl (by decide) (by decide) rfl
  have hinner : inBody.instruction? = some (.call 0x20A) :=
    instruction?_of_program (k := 6) rfl rfl rfl (by decide) (by decide) rfl
  have hback : (inBody.calling 0x20A).instruction? = some .ret :=
    instruction?_of_program (k := 10) rfl rfl rfl (by decide) (by decide) rfl
  have hlast : behindInner.instruction? = some .ret :=
    instruction?_of_program (k := 8) rfl rfl rfl (by decide) (by decide) rfl
  have hcalled := cycle_of_call houter (by decide) (by decide)
  have hcalled' := cycle_of_call hinner (by decide) (by decide)
  have hreturned' := cycle_of_ret hback (by decide) (by decide)
  have hreturned : behindInner.cycle = .done behindInner.returning :=
    cycle_of_ret hlast (by decide) (by decide)
  have hrun : inBody.after [.cycle, .cycle] = behindInner := by
    rw [after_cons, operate, hcalled', Outcome.state_done, after_cons, operate, hreturned']
    rfl
  have hfirst : ∀ c ∈ inBody.history [.cycle, .cycle], c.cycle.state.sp ≠ beforeCall.sp := by
    rw [history_cons_of_done hcalled', history_cons_of_done hreturned']
    intro c hc
    simp only [history_nil, List.mem_cons, List.not_mem_nil, or_false] at hc
    rcases hc with rfl | rfl
    · rw [hcalled']
      decide
    · rw [hreturned']
      decide
  have hnest := (calls_and_returns_nest reachable_beforeCall).1 0x206 inBody [.cycle, .cycle]
    behindInner.returning houter hcalled (by rw [hrun]; exact hreturned) rfl hfirst
  exact ⟨reachable_beforeCall, hcalled, hrun, hreturned, hnest.2.1⟩

end Machine

end Chip8
