import Chip8.Proofs.KeyWait

/-!
# Chip8.Proofs.Idle

A machine at a word that is no instruction.

Such a word is noted and nothing else happens, so the program counter stays where it is and the next
cycle fetches the same word from the same memory. Only the timers move: they count down to zero, and
the cue sounds once on the way if the sound timer was running. Keys may go up and down meanwhile,
since nobody looks at them.

`Idled` says what a number of such cycles has done. One more cycle adds one to the number
(`Idled.cycle`), and a whole run adds the cycles in it (`Idled.after`).
-/

namespace Chip8.Machine

variable {ρ : Type} {m s : Machine ρ} {w : Int} {n : Nat}

/-- The machine is about to fetch a word that is no instruction. -/
structure AtUnknown (m : Machine ρ) (w : Int) : Prop where
  mode : m.mode = .running
  fetch : m.fetch = .ok w
  unknown (i : Instruction) : ¬i.HasOpcode w

/-- What idling can change: the timers and the flag of the cue, the note of the word, and the
keypad, which is in other hands. -/
def idleFootprint : List Component := [.delay, .sound, .cueFlag, .lastUnknown, .keypad]

/-- After `n` cycles at the word `w`, the machine `m` has come to `s`. -/
structure Idled (m : Machine ρ) (w : Int) (n : Nat) (s : Machine ρ) : Prop where
  unchanged : m.ChangesOnly idleFootprint s
  delay : s.delay = max 0 (m.delay - n)
  sound : s.sound = max 0 (m.sound - n)
  noted (h : 0 < n) : s.lastUnknown = some ⟨w, m.pc⟩

/-! ### One cycle -/

/-- A word that is noted stays where it is. -/
theorem AtUnknown.of_changesOnly (h : m.AtUnknown w) (hs : m.ChangesOnly idleFootprint s) :
    s.AtUnknown w where
  mode := by
    have hmode : s.mode = m.mode := hs .mode (by decide)
    rw [hmode, h.mode]
  fetch := by
    have hfetch : s.fetch = m.fetch := fetch_congr (hs .memory (by decide)) (hs .pc (by decide))
    rw [hfetch, h.fetch]
  unknown := h.unknown

theorem Idled.zero (h : m.Sound) (w : Int) : m.Idled w 0 m where
  unchanged := .refl m _
  delay := by
    have := h.delay.1
    omega
  sound := by
    have := h.sound.1
    omega
  noted h := by omega

theorem Idled.withKeypad (h : m.Idled w n s) (keypad : Keypad) :
    m.Idled w n { s with keypad } where
  unchanged := (h.unchanged.trans (changesOnly_withKeypad s keypad)).mono (by decide)
  delay := h.delay
  sound := h.sound
  noted := h.noted

variable [RandomSource ρ]

theorem act_of_atUnknown (h : m.AtUnknown w) :
    m.act = .done { m with lastUnknown := some ⟨w, m.pc⟩ } := by
  obtain ⟨-, h₀, h₁⟩ := fetch_eq_ok h.fetch
  rw [act_of_fetch_eq_ok h.mode h.fetch, execute_of_unassigned h₀ h₁ h.unknown]

/-- **One more cycle.** It completes, and the cue sounds in it if the sound timer, which began at
`m.sound`, has just one left. -/
theorem Idled.cycle (hm : m.AtUnknown w) (h : m.Idled w n s) :
    ∃ s', s.cycle = .done s' ∧ m.Idled w (n + 1) s' ∧ s.CueIff s' (m.sound = n + 1) := by
  have hact := act_of_atUnknown (hm.of_changesOnly h.unchanged)
  have hcycle : s.cycle = .done (tick { s with lastUnknown := some ⟨w, s.pc⟩ }) := by
    rw [Machine.cycle, hact, Outcome.andThen_done]
  have hpc : s.pc = m.pc := h.unchanged .pc (by decide)
  refine ⟨_, hcycle, ?_, ?_⟩
  · constructor
    case unchanged =>
      have hnotes : s.ChangesOnly [.lastUnknown] { s with lastUnknown := some ⟨w, s.pc⟩ } := by
        intro c hc
        cases c with
        | lastUnknown => exact absurd (List.mem_singleton_self _) hc
        | _ => rfl
      exact (h.unchanged.trans (hnotes.trans (changesOnly_tick _))).mono (by decide)
    case delay =>
      have hdelay := h.delay
      simp only [tick]
      split <;> omega
    case sound =>
      have hsound := h.sound
      simp only [tick]
      split <;> omega
    case noted =>
      intro _
      rw [← hpc]
      rfl
  · refine (cueIff_cycle hcycle).congr ?_
    rw [hact, Outcome.state_done, h.sound]
    omega

/-! ### Runs -/

/-- **A whole run.** Key events go by, and each cycle counts. -/
theorem Idled.after (hm : m.AtUnknown w) (h : m.Idled w n s) {run : List Operation}
    (hplay : ∀ op ∈ run, op.isPlay = true) : m.Idled w (n + cycles run) (s.after run) := by
  induction run generalizing n s with
  | nil => exact h
  | cons op run ih =>
      have hrest : ∀ op ∈ run, op.isPlay = true := fun op hop =>
        hplay op (List.mem_cons_of_mem _ hop)
      cases op with
      | cycle =>
          obtain ⟨s', hcycle, hnext, -⟩ := h.cycle hm
          have hstep : s.operate .cycle = s' := by rw [operate, hcycle, Outcome.state_done]
          rw [after_cons, hstep, cycles_cons_cycle, Nat.add_comm (cycles run), ← Nat.add_assoc]
          exact ih hnext hrest
      | keyDown key => exact ih (h.withKeypad _) hrest
      | keyUp key => exact ih (h.withKeypad _) hrest
      | load | clearDrawFlag | clearCueFlag => cases hplay _ List.mem_cons_self

/-- **A word that is no instruction holds the machine for good.** Its program counter is at such a
word, with both bytes in memory. However many cycles follow, with whatever key events between them,
every one completes. They leave all but the timers, the flag of the cue and the note as it was; both
timers have counted the cycles, and the note names the word and its address. The cue sounds in the
cycle in which the sound timer runs out and in no other. -/
theorem idles_for_good (h : m.Reachable) (hmode : m.mode = .running) (hpc : m.pc ≤ 4094)
    (hunknown : ∀ w (i : Instruction), m.fetch = .ok w → ¬i.HasOpcode w) {run : List Operation}
    (hplay : ∀ op ∈ run, op.isPlay = true) :
    ∃ w, m.fetch = .ok w ∧ m.Idled w (cycles run) (m.after run) ∧
      ∀ k < cycles run, ∃ a a', (m.starts run)[k]? = some a ∧ a.cycle = .done a' ∧
        a.CueIff a' (m.sound = k + 1) := by
  obtain ⟨w, hfetch⟩ := exists_fetch_eq_ok h.sound.pc.1 hpc
  have hm : m.AtUnknown w := ⟨hmode, hfetch, fun i => hunknown w i hfetch⟩
  have hafter {part : List Operation} (hpart : ∀ op ∈ part, op.isPlay = true) :
      m.Idled w (cycles part) (m.after part) := by
    have hidled := (Idled.zero h.sound w).after hm hpart
    rwa [Nat.zero_add] at hidled
  refine ⟨w, hfetch, hafter hplay, ?_⟩
  intro k hk
  obtain ⟨front, later, rfl, rfl, hstart⟩ := m.exists_getElem?_starts hk
  have hfront : ∀ op ∈ front, op.isPlay = true := fun op hop =>
    hplay op (List.mem_append_left _ hop)
  obtain ⟨a', hcycle, -, hcue⟩ := (hafter hfront).cycle hm
  exact ⟨m.after front, a', hstart, hcycle, hcue⟩

/-- The program `6003`, `F018`, `5001`: it stores three in the sound timer and comes to a word that
is no instruction. -/
def beepAtUnknown : Array UInt8 := #[0x60, 0x03, 0xF0, 0x18, 0x50, 0x01]

/-- The machine that has the program in memory. -/
def beforeIdling : Machine CyclicNumbers :=
  { source := ⟨[0], [0]⟩, memory := Memory.initial.overlay programStart beepAtUnknown }

/-- The machine that is about to meet the word, with two left in the sound timer. -/
def atUnknown : Machine CyclicNumbers :=
  (Machine.next { (beforeIdling.setV 0 3).next.tick with sound := 3 }).tick

theorem reachable_atUnknown : atUnknown.Reachable := by
  have hfirst : beforeIdling.instruction? = some (.loadByte 0 3) :=
    instruction?_of_program (k := 0) rfl rfl rfl (by decide) (by decide) rfl
  have hcycle₁ : beforeIdling.cycle = .done (beforeIdling.setV 0 3).next.tick :=
    cycle_of_instruction? hfirst rfl
  have hsecond : (beforeIdling.setV 0 3).next.tick.instruction? = some (.setSound 0) :=
    instruction?_of_program (k := 2) rfl rfl rfl (by decide) (by decide) rfl
  have hcycle₂ : (beforeIdling.setV 0 3).next.tick.cycle = .done atUnknown :=
    cycle_of_instruction? hsecond rfl
  have hloaded : beforeIdling.Reachable :=
    reachable_of_program (by decide) _ _ (by decide) (by decide)
  exact (hloaded.of_cycle hcycle₁).of_cycle hcycle₂

/-- Three cycles on the word `5001`, with a key going down: the cue sounds in the second. -/
theorem atUnknown_idles :
    let run : List Operation := [.cycle, .keyDown 5, .cycle, .cycle]
    atUnknown.Reachable ∧ (atUnknown.after run).lastUnknown = some ⟨0x5001, 0x204⟩ ∧
      (atUnknown.after run).pc = 0x204 ∧ (atUnknown.after run).sound = 0 ∧
      ∃ a, (atUnknown.starts run)[1]? = some a ∧ a.cueCount = 1 := by
  intro run
  have hfetch : atUnknown.fetch = .ok 0x5001 :=
    fetch_of_program (k := 4) rfl rfl (by decide) (by decide) (by decide)
  have hunknown (w : Int) (i : Instruction) (hw : atUnknown.fetch = .ok w) : ¬i.HasOpcode w := by
    rw [hfetch] at hw
    cases hw
    have hdecode : decode 0x5001 = .unassigned := by decide
    intro hi
    rw [decode_of_hasOpcode hi] at hdecode
    cases hdecode
  have hplay : ∀ op ∈ run, op.isPlay = true := by decide
  obtain ⟨w, hw, hidled, hcycles⟩ :=
    idles_for_good reachable_atUnknown rfl (by decide) hunknown hplay
  obtain rfl : 0x5001 = w := by
    rw [hfetch] at hw
    exact Except.ok.inj hw
  obtain ⟨a, a', hstart, -, hcue⟩ := hcycles 1 (by decide)
  have hpc : (atUnknown.after run).pc = atUnknown.pc := hidled.unchanged .pc (by decide)
  refine ⟨reachable_atUnknown, hidled.noted (by decide), ?_, ?_, a, hstart, (hcue.sounds rfl).1⟩
  · rw [hpc]
    rfl
  · rw [hidled.sound]
    rfl

end Chip8.Machine
