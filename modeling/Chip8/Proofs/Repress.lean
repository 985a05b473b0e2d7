import Chip8.Proofs.KeyWait

/-!
# Chip8.Proofs.Repress

Keys that come up and go down again while the machine waits for a key.

A wait samples the keypad: once when it begins, and once in each poll. A key that was down from the
beginning can answer only if one of these looks met it up. Where no cycle comes between a release
and the next press of the key, no look meets it, and to the machine the key was never up.

`repress_counts_iff` says so in terms of what happens from outside alone. A pad that a look has met
is what the keys did before that cycle (`mem_pads_iff`), and what a key did last decides whether it
is up (`up_after_iff`); together they place the look between a release and a press (`SeenUp`).
-/

namespace Chip8.Machine

variable {ρ : Type} [RandomSource ρ] {m w : Machine ρ} {x k : Fin 16} {past : List Keypad}

/-! ### What a key did last -/

/-- A list with a first entry and a place in it: the place is the first entry or lies behind it. -/
theorem exists_split_cons {α : Type} {a b : α} {l : List α} {p : List α → Prop} :
    (∃ before later, a :: l = before ++ b :: later ∧ p later) ↔
      (a = b ∧ p l) ∨ ∃ before later, l = before ++ b :: later ∧ p later := by
  constructor
  · rintro ⟨before, later, heq, hp⟩
    cases before with
    | nil =>
        obtain ⟨rfl, rfl⟩ := List.cons.inj heq
        exact .inl ⟨rfl, hp⟩
    | cons c before => exact .inr ⟨before, later, (List.cons.inj heq).2, hp⟩
  · rintro (⟨rfl, hp⟩ | ⟨before, later, rfl, hp⟩)
    · exact ⟨[], l, rfl, hp⟩
    · exact ⟨a :: before, later, rfl, hp⟩

/-- A key is up after a run if it was up before and has not gone down, or if it has come up and not
gone down since. -/
theorem up_after_iff (m : Machine ρ) (run : List Operation) (k : Fin 16) :
    (m.after run).keypad.held[k] = false ↔
      (m.keypad.held[k] = false ∧ .keyDown k.val ∉ run) ∨
        ∃ before later, run = before ++ .keyUp k.val :: later ∧ .keyDown k.val ∉ later := by
  -- The first operation moves the machine on, and what it does to the key is the new beginning.
  induction run generalizing m with
  | nil => simp
  | cons op run ih =>
      rw [after_cons, ih, keypad_operate, exists_split_cons, List.mem_cons, not_or]
      by_cases hup : op = .keyUp k.val
      · subst hup
        have hup : ((Operation.keyUp k.val).onKeypad m.keypad).held[k] = false := by
          simp [Operation.onKeypad, Keypad.release, Keypad.held_set]
        constructor
        · rintro (⟨-, hdown⟩ | hlater)
          · exact .inr (.inl ⟨rfl, hdown⟩)
          · exact .inr (.inr hlater)
        · rintro (⟨-, -, hdown⟩ | ⟨-, hdown⟩ | hlater)
          · exact .inl ⟨hup, hdown⟩
          · exact .inl ⟨hup, hdown⟩
          · exact .inr hlater
      · by_cases hdown : op = .keyDown k.val
        · subst hdown
          simp [Operation.onKeypad, Keypad.press, Keypad.held_set]
        · have hkept : (op.onKeypad m.keypad).held[k] = m.keypad.held[k] := by
            cases op with
            | keyDown key =>
                have hne : key ≠ k.val := fun heq => hdown (by rw [heq])
                simp [Operation.onKeypad, Keypad.press, Keypad.held_set, hne]
            | keyUp key =>
                have hne : key ≠ k.val := fun heq => hup (by rw [heq])
                simp [Operation.onKeypad, Keypad.release, Keypad.held_set, hne]
            | _ => rfl
          simp [hkept, hup, Ne.symm hdown]

/-- The pads of a run are those that its cycles find. -/
theorem mem_pads_iff {run : List Operation} {pad : Keypad} :
    pad ∈ m.pads run ↔
      ∃ front later, run = front ++ .cycle :: later ∧ pad = (m.after front).keypad := by
  induction run generalizing m with
  | nil => simp [pads, starts]
  | cons op run ih =>
      have hlater : (pad ∈ (m.operate op).pads run) ↔
          ∃ front later, op :: run = op :: front ++ .cycle :: later ∧
            pad = (m.after (op :: front)).keypad := by
        simp [ih]
      by_cases hop : op = .cycle
      · subst hop
        rw [pads_cons_cycle, List.mem_cons, hlater]
        constructor
        · rintro (rfl | ⟨front, later, hrun, hpad⟩)
          · exact ⟨[], run, rfl, rfl⟩
          · exact ⟨.cycle :: front, later, hrun, hpad⟩
        · rintro ⟨front, later, hrun, hpad⟩
          cases front with
          | nil => exact .inl hpad
          | cons op front =>
              obtain ⟨rfl, -⟩ := List.cons.inj hrun
              exact .inr ⟨front, later, hrun, hpad⟩
      · rw [pads, starts_cons_of_ne m hop, ← pads, hlater]
        constructor
        · rintro ⟨front, later, hrun, hpad⟩
          exact ⟨op :: front, later, hrun, hpad⟩
        · rintro ⟨front, later, hrun, hpad⟩
          cases front with
          | nil => exact absurd (List.cons.inj hrun).1 hop
          | cons op' front =>
              obtain ⟨rfl, -⟩ := List.cons.inj hrun
              exact ⟨front, later, hrun, hpad⟩

/-- In the wait that the next cycle begins, a look meets the key up: it is up when the wait begins,
or it comes up and a poll follows before it goes down again. -/
def SeenUp (m : Machine ρ) (run : List Operation) (k : Fin 16) : Prop :=
  m.keypad.held[k] = false ∨
    ∃ before between later, run = before ++ .keyUp k.val :: (between ++ .cycle :: later) ∧
      .keyDown k.val ∉ between

/-- The looks of a wait are taken by its cycles, the first one included. -/
theorem exists_pad_up_iff {run : List Operation} :
    (∃ pad ∈ m.pads (.cycle :: run), pad.held[k] = false) ↔ m.SeenUp run k := by
  have hkeypad : (m.operate .cycle).keypad = m.keypad := keypad_operate m .cycle
  rw [pads_cons_cycle, SeenUp]
  constructor
  · rintro ⟨pad, hpad, hup⟩
    rcases List.mem_cons.mp hpad with rfl | hpad
    · exact .inl hup
    · obtain ⟨front, later, rfl, rfl⟩ := mem_pads_iff.mp hpad
      rcases (up_after_iff _ front k).mp hup with ⟨hbefore, -⟩ | ⟨before, between, rfl, hdown⟩
      · exact .inl (hkeypad ▸ hbefore)
      · exact .inr ⟨before, between, later, by simp, hdown⟩
  · rintro (hup | ⟨before, between, later, rfl, hdown⟩)
    · exact ⟨m.keypad, List.mem_cons_self, hup⟩
    · have hup := (up_after_iff (m.operate .cycle) (before ++ .keyUp k.val :: between) k).mpr
        (.inr ⟨before, between, rfl, hdown⟩)
      refine ⟨_, List.mem_cons_of_mem _ (mem_pads_iff.mpr ?_), hup⟩
      exact ⟨before ++ .keyUp k.val :: between, later, by simp, rfl⟩

/-! ### A wait that goes on -/

/-- The wait that the next cycle begins has not ended anywhere in the run. -/
def StillWaits (m : Machine ρ) (run : List Operation) : Prop :=
  ∀ part, part <+: run → (m.after (.cycle :: part)).mode = .awaitingKey

theorem pads_append (m : Machine ρ) (run more : List Operation) :
    m.pads (run ++ more) = m.pads run ++ (m.after run).pads more := by
  induction run generalizing m with
  | nil => rfl
  | cons op run ih =>
      by_cases hop : op = .cycle
      · subst hop
        rw [List.cons_append, pads_cons_cycle, pads_cons_cycle, ih]
        rfl
      · simp only [List.cons_append, pads, starts_cons_of_ne m hop]
        exact ih (m.operate op)

/-- Whatever happens while the wait goes on, the looks so far are remembered. -/
theorem Awaits.operate (h : m.Awaits x past w) {op : Operation} (hplay : op.isPlay = true)
    (hmode : (w.operate op).mode = .awaitingKey) :
    m.Awaits x (past ++ w.pads [op]) (w.operate op) := by
  cases op with
  | cycle =>
      have hstep : w.operate .cycle = w.poll.tick := by
        rw [Machine.operate, cycle_of_awaitingKey h.mode, Outcome.state_done]
      rw [hstep] at hmode ⊢
      cases hfresh : w.freshKey? with
      | none => exact h.poll (h.freshKey?_eq_none_iff.mp hfresh)
      | some k =>
          have hends := (h.resumes (h.freshKey?_eq_some_iff.mp hfresh)).mode
          rw [hmode] at hends
          cases hends
  | keyDown key =>
      rw [show w.pads [.keyDown key] = [] from rfl, List.append_nil]
      exact h.withKeypad (w.keypad.press key)
  | keyUp key =>
      rw [show w.pads [.keyUp key] = [] from rfl, List.append_nil]
      exact h.withKeypad (w.keypad.release key)
  | load | clearDrawFlag | clearCueFlag => cases hplay

theorem Awaits.throughout (h : m.Awaits x past w) {run : List Operation}
    (hplay : ∀ op ∈ run, op.isPlay = true)
    (hwaits : ∀ part, part <+: run → (w.after part).mode = .awaitingKey) :
    m.Awaits x (past ++ w.pads run) (w.after run) := by
  -- Every first part of the run leaves the machine waiting, so no poll in it finds an answer.
  induction run generalizing past w with
  | nil => simpa [pads, starts] using h
  | cons op run ih =>
      have hfirst : (w.operate op).mode = .awaitingKey :=
        hwaits [op] (List.prefix_append [op] run)
      have hnext := ih (h.operate (hplay op List.mem_cons_self) hfirst)
        (fun op hop => hplay op (List.mem_cons_of_mem _ hop))
        (fun part hpart => hwaits (op :: part) ((List.prefix_cons_inj op).mpr hpart))
      rwa [List.append_assoc, show w.pads [op] ++ (w.operate op).pads run = w.pads (op :: run) from
        (pads_append w [op] run).symm] at hnext

/-- The next poll takes the key that answers. -/
theorem Awaits.takes_iff (h : m.Awaits x past w) : w.Takes k ↔ w.keypad.Answers past k := by
  constructor
  · intro htakes
    exact h.freshKey?_eq_some_iff.mp (freshKey?_of_takes htakes)
  · intro hanswers
    have hends := h.resumes hanswers
    refine ⟨h.mode, w.poll.tick, cycle_of_awaitingKey h.mode, hends.mode, ?_⟩
    rw [hends.v, h.keyRegister, getElem_setAt, if_pos rfl]

/-- Where a key up to `k` is fresh, one up to `k` is taken. -/
theorem Awaits.exists_takes_iff (h : m.Awaits x past w) :
    (∃ j ≤ k, w.Takes j) ↔ ∃ j ≤ k, w.keypad.Fresh past j := by
  constructor
  · rintro ⟨j, hj, htakes⟩
    exact ⟨j, hj, (h.takes_iff.mp htakes).1⟩
  · rintro ⟨j, hj, hfresh⟩
    cases hfind : w.freshKey? with
    | none => exact absurd hfresh (h.freshKey?_eq_none_iff.mp hfind j)
    | some i =>
        have hanswers := h.freshKey?_eq_some_iff.mp hfind
        have hij : i ≤ j := Fin.not_lt.mp fun hlt => hanswers.2 j hlt hfresh
        exact ⟨i, Fin.le_trans hij hj, h.takes_iff.mpr hanswers⟩

/-- **When a key that goes down again counts.** While the wait that an instruction began goes on,
keys go up and down and polls come in any order. The next cycle ends the wait with a key that is
held, or with a lower one, just if a look met it up: the key was up when the wait began, or a poll
came between a release of the key and its next press; or the same is true of a lower key. A release
and a press with no cycle between them leave no trace. -/
theorem repress_counts_iff (hmode : m.mode = .running)
    (hfetch : m.fetch = .ok (0xF00A + 0x100 * x.val)) {run : List Operation}
    (hplay : ∀ op ∈ run, op.isPlay = true) (hwaits : m.StillWaits run) :
    let w := m.after (.cycle :: run)
    w.keypad.held[k] = true →
      ((∃ j ≤ k, w.Takes j) ↔
        m.SeenUp run k ∨ ∃ j < k, w.keypad.held[j] = true ∧ m.SeenUp run j) := by
  intro w hheld
  have hi : m.instruction? = some (.awaitKey x) := instruction?_of_fetch hmode hfetch rfl
  have hstep : m.operate .cycle = m.parked x := by
    rw [operate, cycle_of_awaitKey hi, Outcome.state_done]
  have hpast : [m.keypad] ++ (m.parked x).pads run = m.pads (.cycle :: run) := by
    rw [pads_cons_cycle, hstep]
    rfl
  -- The looks of the wait are the pad it began with and those of the polls in the run.
  have hawaits : m.Awaits x (m.pads (.cycle :: run)) w := by
    rw [← hpast, show w = (m.parked x).after run from congrArg (·.after run) hstep]
    refine (Awaits.parked m x).throughout hplay fun part hpart => ?_
    have hmode := hwaits part hpart
    rwa [after_cons, hstep] at hmode
  have hfresh (j : Fin 16) : w.keypad.Fresh (m.pads (.cycle :: run)) j ↔
      w.keypad.held[j] = true ∧ m.SeenUp run j := and_congr_right' exists_pad_up_iff
  rw [hawaits.exists_takes_iff]
  constructor
  · rintro ⟨j, hj, hjfresh⟩
    obtain ⟨hdown, hseen⟩ := (hfresh j).mp hjfresh
    rcases Fin.lt_or_eq_of_le hj with hlt | rfl
    · exact .inr ⟨j, hlt, hdown, hseen⟩
    · exact .inl hseen
  · rintro (hseen | ⟨j, hlt, hdown, hseen⟩)
    · exact ⟨k, Fin.le_refl k, (hfresh k).mpr ⟨hheld, hseen⟩⟩
    · exact ⟨j, Fin.le_of_lt hlt, (hfresh j).mpr ⟨hdown, hseen⟩⟩

/-- The key 5 is down when the wait begins. It comes up and goes down again: with no poll in between
it does not end the wait, and with one it does. -/
theorem press_between_polls_is_lost :
    let lost : List Operation := [.keyUp 5, .keyDown 5]
    let seen : List Operation := [.keyUp 5, .cycle, .keyDown 5]
    beforeWait.StillWaits lost ∧
      (¬∃ j ≤ (5 : Fin 16), (beforeWait.after (.cycle :: lost)).Takes j) ∧
      beforeWait.StillWaits seen ∧
      ∃ j ≤ (5 : Fin 16), (beforeWait.after (.cycle :: seen)).Takes j := by
  intro lost seen
  have hfetch : beforeWait.fetch = .ok (0xF00A + 0x100 * (3 : Fin 16).val) :=
    fetch_of_program (k := 0) rfl rfl (by decide) (by decide) rfl
  have hi : beforeWait.instruction? = some (.awaitKey 3) := instruction?_of_fetch rfl hfetch rfl
  have hafter (run : List Operation) :
      beforeWait.after (.cycle :: run) = (beforeWait.parked 3).after run := by
    rw [after_cons, operate, cycle_of_awaitKey hi, Outcome.state_done]
  have hlost : beforeWait.StillWaits lost := by
    intro part hpart
    simp only [lost, List.prefix_cons_iff, List.prefix_nil] at hpart
    rw [hafter]
    rcases hpart with rfl | ⟨_, rfl, rfl | ⟨_, rfl, rfl⟩⟩ <;> rfl
  have hseen : beforeWait.StillWaits seen := by
    intro part hpart
    simp only [seen, List.prefix_cons_iff, List.prefix_nil] at hpart
    rw [hafter]
    rcases hpart with rfl | ⟨_, rfl, rfl | ⟨_, rfl, rfl | ⟨_, rfl, rfl⟩⟩⟩ <;> decide
  have hlower :
      ∀ j : Fin 16, j < 5 → ((beforeWait.parked 3).after lost).keypad.held[j] = false := by
    decide
  refine ⟨hlost, ?_, hseen, ?_⟩
  · have hheld : (beforeWait.after (.cycle :: lost)).keypad.held[(5 : Fin 16)] = true := by
      rw [hafter]
      decide
    rw [repress_counts_iff rfl hfetch (by decide) hlost hheld]
    rintro (⟨hup | ⟨before, between, later, hrun, -⟩⟩ | ⟨j, hj, hdown, -⟩)
    · exact absurd hup (by decide)
    · have hcycle : .cycle ∈ lost := by rw [hrun]; simp
      simp [lost] at hcycle
    · rw [hafter, hlower j hj] at hdown
      cases hdown
  · have hheld : (beforeWait.after (.cycle :: seen)).keypad.held[(5 : Fin 16)] = true := by
      rw [hafter]
      decide
    rw [repress_counts_iff rfl hfetch (by decide) hseen hheld]
    exact .inl (.inr ⟨[], [], [.keyDown 5], rfl, by simp⟩)

end Chip8.Machine
