import Chip8.Proofs.Invariant

/-!
# Chip8.Proofs.Footprint

What instructions, cycles and the owner of a machine leave alone.

`Instruction.footprint` lists the components of the state that an instruction can change, and
`changesOnly_perform` proves that it changes no others, whether it is done or stops on the way. The
same is then said of a cycle (`keeps_cycle`), of a cycle that faults and of everything that is done
to a machine from outside. A statement about one component, such as the stack pointer, thereby
needs a look at the instructions that have it in their footprint and at no others.
-/

namespace Chip8

/-- The components of the state of a machine. -/
inductive Component
  | memory
  | v
  | i
  | pc
  | sp
  | stack
  | delay
  | sound
  | mode
  | keyRegister
  | keysAtWait
  | keypad
  | screen
  | source
  | drawFlag
  | cueFlag
  | lastUnknown
  deriving DecidableEq

/-- The components that an instruction can change. -/
def Instruction.footprint : Instruction → List Component
  | .clear => [.screen, .drawFlag, .pc]
  | .ret => [.sp, .pc]
  | .call _ => [.stack, .sp, .pc]
  | .jump _ | .jumpOffset _ | .skipEqByte _ _ | .skipNeByte _ _ | .skipEq _ _ | .skipNe _ _
  | .skipPressed _ | .skipReleased _ => [.pc]
  | .loadByte _ _ | .addByte _ _ | .copy _ _ | .or _ _ | .and _ _ | .xor _ _ | .add _ _ | .sub _ _
  | .shiftRight _ | .subFrom _ _ | .shiftLeft _ | .readDelay _ | .loadRegisters _ => [.v, .pc]
  | .loadIndex _ | .glyph _ => [.i, .pc]
  | .addIndex _ => [.i, .v, .pc]
  | .random _ _ => [.source, .v, .pc]
  | .draw _ _ _ => [.screen, .drawFlag, .v, .pc]
  | .awaitKey _ => [.mode, .keyRegister, .keysAtWait, .pc]
  | .setDelay _ => [.delay, .pc]
  | .setSound _ => [.sound, .pc]
  | .storeDecimal _ | .storeRegisters _ => [.memory, .pc]

/-- The stack pointer moves on calls and returns only. -/
theorem Instruction.sp_mem_footprint {i : Instruction} :
    .sp ∈ i.footprint ↔ i = .ret ∨ ∃ target, i = .call target := by
  cases i <;> simp [footprint]

/-- Memory is written by the two stores only. -/
theorem Instruction.memory_mem_footprint {i : Instruction} :
    .memory ∈ i.footprint ↔ (∃ x, i = .storeDecimal x) ∨ ∃ x, i = .storeRegisters x := by
  cases i <;> simp [footprint]

/-- The stack is written by calls only. -/
theorem Instruction.stack_mem_footprint {i : Instruction} :
    .stack ∈ i.footprint ↔ ∃ target, i = .call target := by
  cases i <;> simp [footprint]

theorem Instruction.delay_mem_footprint {i : Instruction} :
    .delay ∈ i.footprint ↔ ∃ x, i = .setDelay x := by
  cases i <;> simp [footprint]

theorem Instruction.sound_mem_footprint {i : Instruction} :
    .sound ∈ i.footprint ↔ ∃ x, i = .setSound x := by
  cases i <;> simp [footprint]

/-- A wait for a key is begun by one instruction. -/
theorem Instruction.mode_mem_footprint {i : Instruction} :
    .mode ∈ i.footprint ↔ ∃ x, i = .awaitKey x := by
  cases i <;> simp [footprint]

/-- No instruction presses a key. -/
theorem Instruction.keypad_notMem_footprint (i : Instruction) : .keypad ∉ i.footprint := by
  cases i <;> simp [footprint]

/-- The cue flag is a matter of the timers. -/
theorem Instruction.cueFlag_notMem_footprint (i : Instruction) : .cueFlag ∉ i.footprint := by
  cases i <;> simp [footprint]

namespace Machine

variable {ρ : Type} {m m' m'' : Machine ρ}

/-- A component is as it was. -/
def Keeps (m m' : Machine ρ) : Component → Prop
  | .memory => m'.memory = m.memory
  | .v => m'.v = m.v
  | .i => m'.i = m.i
  | .pc => m'.pc = m.pc
  | .sp => m'.sp = m.sp
  | .stack => m'.stack = m.stack
  | .delay => m'.delay = m.delay
  | .sound => m'.sound = m.sound
  | .mode => m'.mode = m.mode
  | .keyRegister => m'.keyRegister = m.keyRegister
  | .keysAtWait => m'.keysAtWait = m.keysAtWait
  | .keypad => m'.keypad = m.keypad
  | .screen => m'.screen = m.screen
  | .source => m'.source = m.source
  | .drawFlag => m'.drawFlag = m.drawFlag
  | .cueFlag => m'.cueFlag = m.cueFlag
  | .lastUnknown => m'.lastUnknown = m.lastUnknown

theorem Keeps.refl (m : Machine ρ) (c : Component) : m.Keeps m c := by
  cases c <;> rfl

theorem Keeps.trans {c : Component} (h : m.Keeps m' c) (h' : m'.Keeps m'' c) : m.Keeps m'' c := by
  cases c <;> exact Eq.trans h' h

/-- All components but those listed are as they were. -/
def ChangesOnly (m : Machine ρ) (cs : List Component) (m' : Machine ρ) : Prop :=
  ∀ c, c ∉ cs → m.Keeps m' c

namespace ChangesOnly

variable {cs ds : List Component}

theorem refl (m : Machine ρ) (cs : List Component) : m.ChangesOnly cs m :=
  fun c _ => Keeps.refl m c

theorem trans (h : m.ChangesOnly cs m') (h' : m'.ChangesOnly ds m'') :
    m.ChangesOnly (cs ++ ds) m'' := by
  intro c hc
  rw [List.mem_append, not_or] at hc
  exact (h c hc.1).trans (h' c hc.2)

theorem mono (h : m.ChangesOnly cs m') (hsub : cs ⊆ ds) : m.ChangesOnly ds m' :=
  fun c hc => h c fun hmem => hc (hsub hmem)

end ChangesOnly

/-! ### The operations that instructions are made of -/

theorem changesOnly_setV (m : Machine ρ) (x : Fin 16) (value : Int) :
    m.ChangesOnly [.v] (m.setV x value) := by
  intro c hc
  cases c with
  | v => exact absurd (List.mem_singleton_self _) hc
  | _ => rfl

theorem changesOnly_setFlag (m : Machine ρ) (value : Int) : m.ChangesOnly [.v] (m.setFlag value) :=
  changesOnly_setV m 15 value

/-- The flag is a register too. -/
theorem changesOnly_setV_setFlag (m : Machine ρ) (x : Fin 16) (value flag : Int) :
    m.ChangesOnly [.v] ((m.setV x value).setFlag flag) :=
  ((changesOnly_setV m x value).trans (changesOnly_setFlag _ flag)).mono (by decide)

theorem changesOnly_goto (m : Machine ρ) (pc : Int) : m.ChangesOnly [.pc] (m.goto pc) := by
  intro c hc
  cases c with
  | pc => exact absurd (List.mem_singleton_self _) hc
  | _ => rfl

theorem changesOnly_next (m : Machine ρ) : m.ChangesOnly [.pc] m.next := changesOnly_goto m _

theorem changesOnly_skipIf (m : Machine ρ) (c : Bool) : m.ChangesOnly [.pc] (m.skipIf c) := by
  unfold skipIf
  split
  · exact changesOnly_goto m _
  · exact changesOnly_next m

theorem changesOnly_withMemory (m : Machine ρ) (memory : Memory) :
    m.ChangesOnly [.memory] { m with memory } := by
  intro c hc
  cases c with
  | memory => exact absurd (List.mem_singleton_self _) hc
  | _ => rfl

theorem changesOnly_withIndex (m : Machine ρ) (i : Int) : m.ChangesOnly [.i] { m with i } := by
  intro c hc
  cases c with
  | i => exact absurd (List.mem_singleton_self _) hc
  | _ => rfl

theorem changesOnly_withSource (m : Machine ρ) (source : ρ) :
    m.ChangesOnly [.source] { m with source } := by
  intro c hc
  cases c with
  | source => exact absurd (List.mem_singleton_self _) hc
  | _ => rfl

theorem changesOnly_withDelay (m : Machine ρ) (delay : Int) :
    m.ChangesOnly [.delay] { m with delay } := by
  intro c hc
  cases c with
  | delay => exact absurd (List.mem_singleton_self _) hc
  | _ => rfl

theorem changesOnly_withSound (m : Machine ρ) (sound : Int) :
    m.ChangesOnly [.sound] { m with sound } := by
  intro c hc
  cases c with
  | sound => exact absurd (List.mem_singleton_self _) hc
  | _ => rfl

theorem changesOnly_withPointer (m : Machine ρ) (sp : Int) : m.ChangesOnly [.sp] { m with sp } := by
  intro c hc
  cases c with
  | sp => exact absurd (List.mem_singleton_self _) hc
  | _ => rfl

theorem changesOnly_withStack (m : Machine ρ) (stack : Vector Int 16) (sp : Int) :
    m.ChangesOnly [.stack, .sp] { m with stack, sp } := by
  intro c hc
  cases c with
  | stack | sp => exact absurd (by simp) hc
  | _ => rfl

theorem changesOnly_withScreen (m : Machine ρ) (screen : Screen) :
    m.ChangesOnly [.screen, .drawFlag] { m with screen, drawFlag := true } := by
  intro c hc
  cases c with
  | screen | drawFlag => exact absurd (by simp) hc
  | _ => rfl

theorem changesOnly_withWait (m : Machine ρ) (mode : Mode) (keyRegister : Fin 16)
    (keysAtWait : Vector Bool 16) :
    m.ChangesOnly [.mode, .keyRegister, .keysAtWait] { m with mode, keyRegister, keysAtWait } := by
  intro c hc
  cases c with
  | mode | keyRegister | keysAtWait => exact absurd (by simp) hc
  | _ => rfl

theorem changesOnly_store (m : Machine ρ) (bytes : List UInt8) :
    m.ChangesOnly [.memory, .pc] (m.store bytes).state := by
  unfold store
  split
  · exact (changesOnly_withMemory m _).trans (changesOnly_next _)
  · exact (changesOnly_withMemory m _).mono (by decide)

theorem changesOnly_fill (m : Machine ρ) (xs : List (Fin 16)) :
    m.ChangesOnly [.v] (m.fill xs).state := by
  induction xs generalizing m with
  | nil => exact .refl m _
  | cons x xs ih =>
      rw [fill]
      split
      · exact .refl m _
      · exact ((changesOnly_setV m x _).trans (ih _)).mono (by decide)

/-! ### Instructions -/

/-- **An instruction stays within its footprint,** whether it is done or stops on the way. -/
theorem changesOnly_perform [RandomSource ρ] (m : Machine ρ) (i : Instruction) :
    m.ChangesOnly i.footprint (m.perform i).state := by
  cases i with
  | clear => exact (changesOnly_withScreen m _).trans (changesOnly_next _)
  | ret =>
      rw [perform]
      split
      · exact .refl m _
      · dsimp only
        split
        · exact (changesOnly_withPointer m _).trans (changesOnly_goto _ _)
        · exact (changesOnly_withPointer m _).mono (by decide)
  | jump | jumpOffset => exact changesOnly_goto m _
  | call target =>
      rw [perform]
      split
      · exact .refl m _
      · split
        · exact (changesOnly_withStack m _ _).trans (changesOnly_goto _ _)
        · exact .refl m _
  | skipEqByte | skipNeByte | skipEq | skipNe | skipPressed | skipReleased =>
      exact changesOnly_skipIf m _
  | loadByte | addByte | copy | or | and | xor | readDelay =>
      exact (changesOnly_setV m _ _).trans (changesOnly_next _)
  | add | sub | shiftRight | subFrom | shiftLeft =>
      exact (changesOnly_setV_setFlag m _ _ _).trans (changesOnly_next _)
  | loadIndex | glyph => exact (changesOnly_withIndex m _).trans (changesOnly_next _)
  | random =>
      exact (changesOnly_withSource m _).trans
        ((changesOnly_setV _ _ _).trans (changesOnly_next _))
  | draw x y rows =>
      rw [perform]
      split
      · exact .refl m _
      · split
        · exact .refl m _
        · exact (changesOnly_withScreen m _).trans
            ((changesOnly_setFlag _ _).trans (changesOnly_next _))
  | awaitKey => exact (changesOnly_withWait m _ _ _).trans (changesOnly_next _)
  | setDelay => exact (changesOnly_withDelay m _).trans (changesOnly_next _)
  | setSound => exact (changesOnly_withSound m _).trans (changesOnly_next _)
  | addIndex =>
      exact (changesOnly_withIndex m _).trans
        ((changesOnly_setFlag _ _).trans (changesOnly_next _))
  | storeDecimal | storeRegisters => exact changesOnly_store m _
  | loadRegisters x =>
      rw [perform]
      rcases state_andThen (m.fill (registersTo x)) next with h | h
      · rw [h]
        exact (changesOnly_fill m _).mono (by simp [Instruction.footprint])
      · rw [h]
        exact (changesOnly_fill m _).trans (changesOnly_next _)

/-- What an instruction leaves when it stops is a part of a store or of a register load. -/
theorem changesOnly_of_perform_eq_stopped [RandomSource ρ] (h : m.Bounded) {i : Instruction}
    {fault : Fault} (hstop : m.perform i = .stopped fault m') : m.ChangesOnly [.memory, .v] m' := by
  cases i with
  | ret =>
      rw [perform_ret h.sp.1 h.sp.2] at hstop
      split at hstop
      · cases hstop
        exact .refl m _
      · cases hstop
  | call target =>
      rw [perform_call h.sp.1 h.sp.2] at hstop
      split at hstop
      · cases hstop
        exact .refl m _
      · cases hstop
  | draw x y rows =>
      rw [perform] at hstop
      split at hstop
      · cases hstop
        exact .refl m _
      · split at hstop
        · cases hstop
          exact .refl m _
        · cases hstop
  | storeDecimal x =>
      rw [perform_storeDecimal h.i.1] at hstop
      split at hstop
      · cases hstop
      · cases hstop
        exact (changesOnly_withMemory m _).mono (by decide)
  | storeRegisters x =>
      rw [perform_storeRegisters h.i.1] at hstop
      split at hstop
      · cases hstop
      · cases hstop
        exact (changesOnly_withMemory m _).mono (by decide)
  | loadRegisters x =>
      rw [perform] at hstop
      have hfill := changesOnly_fill m (registersTo x)
      cases hm : m.fill (registersTo x) with
      | done loaded =>
          rw [hm] at hstop
          cases hstop
      | stopped fault' left =>
          rw [hm] at hstop hfill
          cases hstop
          exact hfill.mono (by decide)
  | _ => cases hstop

/-! ### Cycles -/

theorem changesOnly_scan (m : Machine ρ) (keys : List (Fin 16)) :
    m.ChangesOnly [.v, .mode, .keysAtWait] (m.scan keys) := by
  induction keys generalizing m with
  | nil => exact .refl m _
  | cons k keys ih =>
      rw [scan]
      split
      · intro c hc
        cases c with
        | v | mode => exact absurd (by simp) hc
        | _ => rfl
      · split
        · exact ih m
        · have hforget : m.ChangesOnly [.keysAtWait]
              { m with keysAtWait := setAt m.keysAtWait k false } := by
            intro c hc
            cases c with
            | keysAtWait => exact absurd (List.mem_singleton_self _) hc
            | _ => rfl
          exact (hforget.trans (ih _)).mono (by decide)

theorem changesOnly_poll (m : Machine ρ) : m.ChangesOnly [.v, .mode, .keysAtWait] m.poll :=
  changesOnly_scan m _

theorem changesOnly_tick (m : Machine ρ) : m.ChangesOnly [.delay, .sound, .cueFlag] m.tick := by
  intro c hc
  cases c with
  | delay | sound | cueFlag => exact absurd (by simp) hc
  | _ => rfl

theorem changesOnly_withKeypad (m : Machine ρ) (keypad : Keypad) :
    m.ChangesOnly [.keypad] { m with keypad } := by
  intro c hc
  cases c with
  | keypad => exact absurd (List.mem_singleton_self _) hc
  | _ => rfl

variable [RandomSource ρ]

/-- Before the timers tick, a cycle changes what its instruction can change. A look at the keypad
can end a wait, and an unknown opcode is noted. -/
theorem keeps_act (m : Machine ρ) {c : Component}
    (hc : c ∉ [.v, .mode, .keysAtWait, .lastUnknown])
    (h : ∀ i, m.instruction? = some i → c ∉ i.footprint) : m.Keeps m.act.state c := by
  simp only [List.mem_cons, List.not_mem_nil, or_false, not_or] at hc
  cases hi : m.instruction? with
  | some i =>
      rw [(act_of_instruction? hi).1]
      exact changesOnly_perform m i c (h i hi)
  | none =>
      rcases act_of_instruction?_eq_none hi with ⟨-, hact⟩ | ⟨address, hact⟩ | ⟨unknown, hact⟩
      · rw [hact]
        exact changesOnly_poll m c (by simp [hc])
      · rw [hact]
        exact .refl m c
      · rw [hact]
        cases c with
        | lastUnknown => exact absurd rfl hc.2.2.2
        | _ => rfl

/-- What a cycle does after acting concerns the timers. -/
theorem changesOnly_act_cycle (m : Machine ρ) :
    m.act.state.ChangesOnly [.delay, .sound, .cueFlag] m.cycle.state := by
  unfold cycle
  rcases state_andThen m.act tick with hstate | hstate
  · rw [hstate]
    exact .refl _ _
  · rw [hstate]
    exact changesOnly_tick _

/-- The tick adds the timers and the cue flag to what a cycle can change. -/
theorem keeps_cycle (m : Machine ρ) {c : Component}
    (hc : c ∉ [.v, .mode, .keysAtWait, .lastUnknown, .delay, .sound, .cueFlag])
    (h : ∀ i, m.instruction? = some i → c ∉ i.footprint) : m.Keeps m.cycle.state c := by
  simp only [List.mem_cons, List.not_mem_nil, or_false, not_or] at hc
  have hact : m.Keeps m.act.state c := keeps_act m (by simp [hc]) h
  exact hact.trans (changesOnly_act_cycle m c (by simp [hc]))

/-- Cycles leave the keypad alone. -/
theorem keypad_cycle (m : Machine ρ) : m.cycle.state.keypad = m.keypad :=
  keeps_cycle m (c := .keypad) (by decide) fun i _ => i.keypad_notMem_footprint

/-- A cycle that faults does not get to the timers. -/
theorem changesOnly_of_cycle_eq_stopped (h : m.Bounded) {fault : Fault}
    (hstop : m.cycle = .stopped fault m') : m.ChangesOnly [.memory, .v] m' := by
  have hact := cycle_eq_stopped_iff.mp hstop
  cases hi : m.instruction? with
  | some i =>
      rw [(act_of_instruction? hi).1] at hact
      exact changesOnly_of_perform_eq_stopped h hact
  | none =>
      rcases act_of_instruction?_eq_none hi with ⟨-, h'⟩ | ⟨address, h'⟩ | ⟨unknown, h'⟩
      · rw [h'] at hact
        cases hact
      · rw [h'] at hact
        cases hact
        exact .refl m _
      · rw [h'] at hact
        cases hact

/-! ### What is done from outside -/

/-- Between the cycles of a machine, its memory, its keypad and its flags can change. -/
theorem changesOnly_operate (m : Machine ρ) {op : Operation} (hop : op ≠ .cycle) :
    m.ChangesOnly [.memory, .keypad, .drawFlag, .cueFlag] (m.operate op) := by
  cases op with
  | cycle => exact absurd rfl hop
  | load program =>
      rw [operate_load]
      split
      · exact .refl m _
      · exact (changesOnly_withMemory m _).mono (by decide)
  | keyDown key => exact (changesOnly_withKeypad m _).mono (by decide)
  | keyUp key => exact (changesOnly_withKeypad m _).mono (by decide)
  | clearDrawFlag =>
      intro c hc
      cases c with
      | drawFlag => exact absurd (by simp) hc
      | _ => rfl
  | clearCueFlag =>
      intro c hc
      cases c with
      | cueFlag => exact absurd (by simp) hc
      | _ => rfl

/-- What can change between one completed cycle of a run and the next: cycles that fault leave
traces in memory or in the registers, and the owner has the memory, the keypad and the flags. -/
def betweenCycles : List Component := [.memory, .v, .keypad, .drawFlag, .cueFlag]

/-- **An operation either completes a cycle or passes by.** One that passes by has no part in the
history of the run and changes only what can change between cycles. -/
theorem operate_cases (h : m.Bounded) (op : Operation) (run : List Operation) :
    (m.ChangesOnly betweenCycles (m.operate op) ∧
      m.history (op :: run) = (m.operate op).history run) ∨
      m.cycle = .done (m.operate op) ∧
        m.history (op :: run) = m :: (m.operate op).history run := by
  by_cases hop : op = .cycle
  · subst hop
    rw [operate]
    cases hcycle : m.cycle with
    | done m' => exact .inr ⟨rfl, history_cons_of_done hcycle run⟩
    | stopped fault m' =>
        exact .inl ⟨(changesOnly_of_cycle_eq_stopped h hcycle).mono (by decide),
          history_cons_of_stopped hcycle run⟩
  · exact .inl ⟨(changesOnly_operate m hop).mono (by decide), history_cons_of_ne m hop run⟩

/-! ### Histories -/

/-- Every entry of a history is within its bounds, and its cycle completes. -/
theorem sound_of_mem_history (h : m.Sound) {run : List Operation} {a : Machine ρ}
    (ha : a ∈ m.history run) : a.Sound ∧ ∃ a', a.cycle = .done a' := by
  induction run generalizing m with
  | nil => cases ha
  | cons op run ih =>
      rcases operate_cases h.toBounded op run with ⟨-, hhistory⟩ | ⟨hcycle, hhistory⟩
      · rw [hhistory] at ha
        exact ih (h.operate op) ha
      · rw [hhistory, List.mem_cons] at ha
        rcases ha with rfl | ha
        · exact ⟨h, _, hcycle⟩
        · exact ih (h.operate op) ha

/-- The first completed cycle sets out from where the run began. -/
theorem changesOnly_history_zero (h : m.Sound) {run : List Operation} {a : Machine ρ}
    (ha : (m.history run)[0]? = some a) : m.ChangesOnly betweenCycles a := by
  induction run generalizing m with
  | nil => cases ha
  | cons op run ih =>
      rcases operate_cases h.toBounded op run with ⟨hpass, hhistory⟩ | ⟨-, hhistory⟩
      · rw [hhistory] at ha
        exact (hpass.trans (ih (h.operate op) ha)).mono (by decide)
      · rw [hhistory] at ha
        cases ha
        exact .refl _ _

/-- Each further one sets out from what the one before it left. -/
theorem changesOnly_history_succ (h : m.Sound) {run : List Operation} {u : Nat} {a b : Machine ρ}
    (ha : (m.history run)[u]? = some a) (hb : (m.history run)[u + 1]? = some b) :
    a.cycle.state.ChangesOnly betweenCycles b := by
  induction run generalizing m u with
  | nil => cases ha
  | cons op run ih =>
      rcases operate_cases h.toBounded op run with ⟨-, hhistory⟩ | ⟨hcycle, hhistory⟩
      · rw [hhistory] at ha hb
        exact ih (h.operate op) ha hb
      · rw [hhistory] at ha hb
        rw [List.getElem?_cons_succ] at hb
        cases u with
        | zero =>
            cases ha
            rw [hcycle]
            exact changesOnly_history_zero (h.operate op) hb
        | succ u =>
            rw [List.getElem?_cons_succ] at ha
            exact ih (h.operate op) ha hb

end Machine

end Chip8
