import Chip8.Proofs.Timers

/-!
# Chip8.Proofs.KeyWait

Waits for a key, and the presses that answer them.

A wait is answered by the lowest key that is down now and was up at an earlier look: when the wait
began, or at a poll since. The machine does not remember those looks. It has one bit for each key,
which a poll clears while it visits the keys, and a poll that finds an answer leaves the rest of the
bits alone. That a key's bit says whether the key was down at every look so far (`Awaits.remembers`)
is true when the wait begins, and every poll without an answer keeps it so. Key events do not touch
the bits, so any number of them may come between two polls.

A key that has answered a wait is still down, and the next wait remembers it from its beginning. It
can answer no other wait before it comes up (`Spent`).
-/

namespace Chip8

/-- The key is down, and on one of the earlier pads it was up. -/
def Keypad.Fresh (now : Keypad) (past : List Keypad) (k : Fin 16) : Prop :=
  now.held[k] = true ∧ ∃ pad ∈ past, pad.held[k] = false

/-- The key is the lowest that is fresh. -/
def Keypad.Answers (now : Keypad) (past : List Keypad) (k : Fin 16) : Prop :=
  now.Fresh past k ∧ ∀ j < k, ¬now.Fresh past j

/-- On no pad of the list is a key fresh, measured against the pads before it. -/
def Unanswered (pads : List Keypad) : Prop :=
  ∀ (t : Nat) (ht : t < pads.length) (k : Fin 16), ¬pads[t].Fresh (pads.take t) k

instance (now : Keypad) (past : List Keypad) (k : Fin 16) : Decidable (now.Fresh past k) :=
  inferInstanceAs (Decidable (_ ∧ _))

instance (now : Keypad) (past : List Keypad) (k : Fin 16) : Decidable (now.Answers past k) :=
  inferInstanceAs (Decidable (_ ∧ _))

instance (pads : List Keypad) : Decidable (Unanswered pads) :=
  inferInstanceAs (Decidable (∀ _, _))

theorem Keypad.Answers.unique {now : Keypad} {past : List Keypad} {j k : Fin 16}
    (hj : now.Answers past j) (hk : now.Answers past k) : j = k := by
  rcases Nat.lt_trichotomy j.val k.val with hlt | heq | hgt
  · exact absurd hj.1 (hk.2 j hlt)
  · exact Fin.ext heq
  · exact absurd hk.1 (hj.2 k hgt)

theorem Unanswered.not_fresh {past later : List Keypad} {now : Keypad}
    (h : Unanswered (past ++ now :: later)) (k : Fin 16) : ¬now.Fresh past k := by
  have hnow := h past.length (by simp) k
  rw [List.take_left, List.getElem_append_right (Nat.le_refl _)] at hnow
  simpa using hnow

namespace Machine

variable {ρ : Type} {m : Machine ρ}

/-! ### A look at the keypad -/

/-- The key would end a wait. -/
def fresh (m : Machine ρ) (k : Fin 16) : Bool := m.keypad.held[k] && !m.keysAtWait[k]

theorem freshKey?_eq_none_iff : m.freshKey? = none ↔ ∀ k, m.fresh k = false := by
  rw [show m.freshKey? = (List.finRange 16).find? m.fresh from rfl, List.find?_eq_none]
  simp

/-- The key that ends a wait is the lowest that would. -/
theorem freshKey?_eq_some_iff {k : Fin 16} :
    m.freshKey? = some k ↔ m.fresh k = true ∧ ∀ j < k, m.fresh j = false := by
  rw [show m.freshKey? = (List.finRange 16).find? m.fresh from rfl,
    List.find?_eq_some_iff_getElem]
  constructor
  · rintro ⟨hk, i, hi, rfl, hleast⟩
    refine ⟨hk, fun j hj => ?_⟩
    have hbelow : j.val < i := by simpa [Fin.lt_def] using hj
    simpa using hleast j.val hbelow
  · rintro ⟨hk, hleast⟩
    refine ⟨hk, k.val, by simp, by simp, fun j hj => ?_⟩
    simpa using hleast ⟨j, by omega⟩ hj

/-- The machine that has looked at one key and remembers it no longer if it is up. -/
def lookAt (m : Machine ρ) (k : Fin 16) : Machine ρ :=
  { m with keysAtWait := setAt m.keysAtWait k (m.keysAtWait[k] && m.keypad.held[k]) }

/-- A key that is up is not fresh, remembered or not. -/
theorem fresh_lookAt (m : Machine ρ) (k : Fin 16) : (m.lookAt k).fresh = m.fresh := by
  funext j
  simp only [fresh, lookAt, getElem_setAt]
  by_cases hkj : k = j
  · rw [if_pos hkj, hkj]
    cases m.keypad.held[j] <;> simp
  · rw [if_neg hkj]

theorem scan_cons_of_fresh {k : Fin 16} (h : m.fresh k = true) (keys : List (Fin 16)) :
    m.scan (k :: keys) = { m with v := setAt m.v m.keyRegister k.val, mode := .running } :=
  if_pos h

theorem scan_cons_of_not_fresh {k : Fin 16} (h : m.fresh k = false) (keys : List (Fin 16)) :
    m.scan (k :: keys) = (m.lookAt k).scan keys := by
  rw [fresh] at h
  rw [scan, h, if_neg Bool.false_ne_true, lookAt]
  cases hheld : m.keypad.held[k] with
  | true =>
      have hsame : setAt m.keysAtWait k (m.keysAtWait[k] && true) = m.keysAtWait := by
        refine ext_entries fun j => ?_
        rw [getElem_setAt, Bool.and_true]
        split
        · rename_i hkj
          rw [hkj]
        · rfl
      rw [hsame]
      rfl
  | false =>
      rw [Bool.and_false]
      rfl

/-- A scan that meets a fresh key stores it and ends the wait. -/
theorem scan_of_find?_eq_some {keys : List (Fin 16)} {k : Fin 16}
    (h : keys.find? m.fresh = some k) :
    ∃ keysAtWait, m.scan keys =
      { m with v := setAt m.v m.keyRegister k.val, mode := .running, keysAtWait } := by
  induction keys generalizing m with
  | nil => cases h
  | cons j keys ih =>
      rw [List.find?_cons] at h
      cases hj : m.fresh j with
      | true =>
          rw [hj] at h
          cases h
          exact ⟨m.keysAtWait, scan_cons_of_fresh hj keys⟩
      | false =>
          rw [hj, ← fresh_lookAt m j] at h
          rw [scan_cons_of_not_fresh hj]
          exact ih h

/-- A scan that meets no fresh key forgets the keys that are up. -/
theorem scan_of_find?_eq_none {keys : List (Fin 16)} (h : keys.find? m.fresh = none) :
    ∃ keysAtWait, m.scan keys = { m with keysAtWait } ∧ ∀ k : Fin 16,
      keysAtWait[k] = (m.keysAtWait[k] && (m.keypad.held[k] || !keys.contains k)) := by
  induction keys generalizing m with
  | nil => exact ⟨m.keysAtWait, rfl, by simp⟩
  | cons j keys ih =>
      rw [List.find?_cons] at h
      cases hj : m.fresh j with
      | true =>
          rw [hj] at h
          cases h
      | false =>
          rw [hj, ← fresh_lookAt m j] at h
          obtain ⟨keysAtWait, hscan, hkeys⟩ := ih h
          refine ⟨keysAtWait, (scan_cons_of_not_fresh hj keys).trans hscan, fun k => ?_⟩
          rw [hkeys, List.contains_cons]
          simp only [lookAt, getElem_setAt]
          by_cases hjk : j = k
          · subst hjk
            cases m.keypad.held[j] <;> simp
          · have hkj : (k == j) = false := by simp [Ne.symm hjk]
            rw [if_neg hjk, hkj, Bool.false_or]

/-- A poll with an answer stores it and ends the wait. -/
theorem poll_of_freshKey?_eq_some {k : Fin 16} (h : m.freshKey? = some k) :
    ∃ keysAtWait, m.poll =
      { m with v := setAt m.v m.keyRegister k.val, mode := .running, keysAtWait } :=
  scan_of_find?_eq_some h

/-- A poll without one forgets the keys that are up. -/
theorem poll_of_freshKey?_eq_none (h : m.freshKey? = none) :
    ∃ keysAtWait, m.poll = { m with keysAtWait } ∧
      ∀ k : Fin 16, keysAtWait[k] = (m.keysAtWait[k] && m.keypad.held[k]) := by
  obtain ⟨keysAtWait, hpoll, hkeys⟩ := scan_of_find?_eq_none h
  exact ⟨keysAtWait, hpoll, fun k => by simp [hkeys]⟩

/-- The machine after a cycle that begins a wait. -/
def parked (m : Machine ρ) (x : Fin 16) : Machine ρ :=
  (Machine.next
    { m with mode := .awaitingKey, keyRegister := x, keysAtWait := m.keypad.held }).tick

/-! ### One wait -/

/-- What a wait can change, the answer apart. -/
def waitFootprint : List Component :=
  [.pc, .mode, .keyRegister, .keysAtWait, .keypad, .delay, .sound, .cueFlag]

/-- The wait that `m` begins for the register `x` goes on in `w`. -/
structure Waits (m : Machine ρ) (x : Fin 16) (w : Machine ρ) : Prop where
  mode : w.mode = .awaitingKey
  keyRegister : w.keyRegister = x
  pc : w.pc = m.pc + 2
  unchanged : m.ChangesOnly waitFootprint w

/-- In `w`, the wait that `m` began for the register `x` has been answered with the key `k`. -/
structure Resumes (m : Machine ρ) (x k : Fin 16) (w : Machine ρ) : Prop where
  mode : w.mode = .running
  pc : w.pc = m.pc + 2
  v : w.v = setAt m.v x k.val
  unchanged : m.ChangesOnly (.v :: waitFootprint) w

/-- The wait goes on after looks at the pads of `past`, and the machine remembers the keys that were
down on all of them. -/
structure Awaits (m : Machine ρ) (x : Fin 16) (past : List Keypad) (w : Machine ρ) : Prop
    extends Waits m x w where
  remembers (k : Fin 16) : w.keysAtWait[k] = past.all (·.held[k])

namespace Awaits

variable {x : Fin 16} {past : List Keypad} {w : Machine ρ}

theorem parked (m : Machine ρ) (x : Fin 16) : m.Awaits x [m.keypad] (m.parked x) where
  mode := rfl
  keyRegister := rfl
  pc := rfl
  unchanged := by
    have hparks := changesOnly_withWait m .awaitingKey x m.keypad.held
    exact (hparks.trans ((changesOnly_next _).trans (changesOnly_tick _))).mono (by decide)
  remembers k := by simp [Machine.parked, tick, next, goto]

theorem fresh_iff (h : m.Awaits x past w) {k : Fin 16} :
    w.fresh k = true ↔ w.keypad.Fresh past k := by
  simp [fresh, Keypad.Fresh, h.remembers]

theorem freshKey?_eq_none_iff (h : m.Awaits x past w) :
    w.freshKey? = none ↔ ∀ k, ¬w.keypad.Fresh past k := by
  simp only [Machine.freshKey?_eq_none_iff, ← h.fresh_iff, Bool.not_eq_true]

theorem freshKey?_eq_some_iff (h : m.Awaits x past w) {k : Fin 16} :
    w.freshKey? = some k ↔ w.keypad.Answers past k := by
  simp only [Machine.freshKey?_eq_some_iff, Keypad.Answers, ← h.fresh_iff, Bool.not_eq_true]

/-- Between two polls the keys go up and down as they like. -/
theorem withKeypad (h : m.Awaits x past w) (keypad : Keypad) :
    m.Awaits x past { w with keypad } where
  mode := h.mode
  keyRegister := h.keyRegister
  pc := h.pc
  unchanged := (h.unchanged.trans (changesOnly_withKeypad w keypad)).mono (by decide)
  remembers := h.remembers

/-- A poll that finds no answer is one more look. -/
theorem poll (h : m.Awaits x past w) (hnone : ∀ k, ¬w.keypad.Fresh past k) :
    m.Awaits x (past ++ [w.keypad]) w.poll.tick := by
  obtain ⟨keysAtWait, hpoll, hkeys⟩ :=
    poll_of_freshKey?_eq_none (h.freshKey?_eq_none_iff.mpr hnone)
  rw [hpoll]
  constructor
  case toWaits =>
    refine ⟨h.mode, h.keyRegister, h.pc, ?_⟩
    have hforgets := changesOnly_withWait w w.mode w.keyRegister keysAtWait
    exact (h.unchanged.trans (hforgets.trans (changesOnly_tick _))).mono (by decide)
  case remembers =>
    intro k
    have hk : keysAtWait[k] = (past.all (·.held[k]) && w.keypad.held[k]) := by
      rw [hkeys, h.remembers]
    simpa [tick] using hk

/-- A poll that finds an answer ends the wait. -/
theorem resumes (h : m.Awaits x past w) {k : Fin 16} (hk : w.keypad.Answers past k) :
    m.Resumes x k w.poll.tick := by
  have hchanges := h.unchanged.trans ((changesOnly_poll w).trans (changesOnly_tick _))
  obtain ⟨keysAtWait, hpoll⟩ := poll_of_freshKey?_eq_some (h.freshKey?_eq_some_iff.mpr hk)
  refine ⟨?_, ?_, ?_, hchanges.mono (by decide)⟩
  · rw [hpoll]
    rfl
  · rw [hpoll]
    exact h.pc
  · have hv : w.v = m.v := h.unchanged .v (by decide)
    rw [hpoll, ← hv, ← h.keyRegister]
    rfl

end Awaits

/-! ### The cycles of a wait -/

theorem value_poll (m : Machine ρ) (timer : Timer) : timer.value m.poll = timer.value m := by
  cases timer with
  | delay => exact changesOnly_poll m .delay (by decide)
  | sound => exact changesOnly_poll m .sound (by decide)

variable [RandomSource ρ] {x : Fin 16} {past : List Keypad} {w : Machine ρ}

theorem cycle_of_awaitKey (hi : m.instruction? = some (.awaitKey x)) :
    m.cycle = .done (m.parked x) :=
  cycle_of_instruction? hi rfl

theorem cycle_of_awaitingKey (h : m.mode = .awaitingKey) : m.cycle = .done m.poll.tick := by
  rw [cycle, act_of_awaitingKey h, Outcome.andThen_done]

/-- What the next poll of a wait does, from `w` to `w'`, after looks at the pads of `past`. -/
structure PollLaw (m : Machine ρ) (x : Fin 16) (past : List Keypad) (w w' : Machine ρ) : Prop where
  /-- Both timers tick, as in every cycle. -/
  timers (timer : Timer) : timer.value w' = max 0 (timer.value w - 1)
  cue : w.CueIff w' (w.sound = 1)
  waits (h : ∀ k, ¬w.keypad.Fresh past k) : m.Waits x w'
  resumes (h : ∃ k, w.keypad.Fresh past k) : ∃ k, w.keypad.Answers past k ∧ m.Resumes x k w'

theorem Awaits.pollLaw (h : m.Awaits x past w) (hsound : w.Sound) :
    ∃ w', w.cycle = .done w' ∧ m.PollLaw x past w w' := by
  have hcycle := cycle_of_awaitingKey h.mode
  have hact := act_of_awaitingKey h.mode
  refine ⟨w.poll.tick, hcycle, ?_⟩
  constructor
  case timers =>
    intro timer
    rw [timer.value_cycle hsound hcycle, hact, Outcome.state_done, value_poll]
  case cue =>
    have hcue := cueIff_cycle hcycle
    rwa [hact, Outcome.state_done, show w.poll.sound = w.sound from value_poll w .sound] at hcue
  case waits => exact fun hnone => (h.poll hnone).toWaits
  case resumes =>
    rintro ⟨j, hj⟩
    cases hfresh : w.freshKey? with
    | none => exact absurd hj (h.freshKey?_eq_none_iff.mp hfresh j)
    | some k =>
        have hanswers := h.freshKey?_eq_some_iff.mp hfresh
        exact ⟨k, hanswers, h.resumes hanswers⟩

/-! ### Runs -/

/-- What happens while the program runs and someone is at the keys. -/
def Operation.isPlay : Operation → Bool
  | .keyDown _ | .keyUp _ | .cycle => true
  | .load _ | .clearDrawFlag | .clearCueFlag => false

/-- The keypad at each cycle of a run. -/
def pads (m : Machine ρ) (run : List Operation) : List Keypad := (m.starts run).map (·.keypad)

/-- What an operation does to the keypad. -/
def Operation.onKeypad (pad : Keypad) : Operation → Keypad
  | .keyDown key => pad.press key
  | .keyUp key => pad.release key
  | _ => pad

/-- The keypad is moved by the keys and by nothing else. -/
theorem keypad_operate (m : Machine ρ) (op : Operation) :
    (m.operate op).keypad = op.onKeypad m.keypad := by
  cases op with
  | cycle => exact keypad_cycle m
  | load program =>
      rw [operate_load]
      split <;> rfl
  | _ => rfl

theorem pads_cons_cycle (m : Machine ρ) (run : List Operation) :
    m.pads (.cycle :: run) = m.keypad :: (m.operate .cycle).pads run := rfl

/-- As long as no poll finds an answer the wait goes on. -/
theorem Awaits.after (h : m.Awaits x past w) {run : List Operation}
    (hplay : ∀ op ∈ run, op.isPlay = true) (hsilent : Unanswered (past ++ w.pads run)) :
    m.Awaits x (past ++ w.pads run) (w.after run) := by
  induction run generalizing past w with
  | nil => simpa [pads, starts] using h
  | cons op run ih =>
      have hrest : ∀ op ∈ run, op.isPlay = true := fun op hop =>
        hplay op (List.mem_cons_of_mem _ hop)
      cases op with
      | cycle =>
          -- The poll moves its pad from the run to the past.
          have hstep : w.operate .cycle = w.poll.tick := by
            rw [operate, cycle_of_awaitingKey h.mode, Outcome.state_done]
          rw [pads_cons_cycle, hstep] at hsilent ⊢
          have hnext := h.poll hsilent.not_fresh
          rw [List.append_cons] at hsilent ⊢
          rw [after_cons, hstep]
          exact ih hnext hrest hsilent
      | keyDown key => exact ih (h.withKeypad _) hrest hsilent
      | keyUp key => exact ih (h.withKeypad _) hrest hsilent
      | load | clearDrawFlag | clearCueFlag => cases hplay _ List.mem_cons_self

/-- **A wait goes on until a key is down that was up before.** While no poll after the instruction
finds such a key, the machine waits, whatever keys go down and up between the polls. The next poll
completes and ticks both timers; it stores the lowest such key and ends the wait, or there is none
and the wait goes on. -/
theorem waits_until_fresh (h : m.Reachable) (hmode : m.mode = .running)
    (hfetch : m.fetch = .ok (0xF00A + 0x100 * x.val)) {run : List Operation}
    (hplay : ∀ op ∈ run, op.isPlay = true) (hsilent : Unanswered (m.pads (.cycle :: run))) :
    let past := m.pads (.cycle :: run)
    let w := m.after (.cycle :: run)
    m.Waits x w ∧ ∃ w', w.cycle = .done w' ∧ m.PollLaw x past w w' := by
  intro past w
  have hi : m.instruction? = some (.awaitKey x) := instruction?_of_fetch hmode hfetch rfl
  have hstep : m.operate .cycle = m.parked x := by
    rw [operate, cycle_of_awaitKey hi, Outcome.state_done]
  have hawaits : m.Awaits x past w := by
    simp only [past, w, pads_cons_cycle, after_cons, hstep] at hsilent ⊢
    exact (Awaits.parked m x).after hplay hsilent
  exact ⟨hawaits.toWaits, hawaits.pollLaw (h.sound.after _)⟩

/-- The program `F30A`, `F30A`: it waits for two keys. -/
def waitTwice : Array UInt8 := #[0xF3, 0x0A, 0xF3, 0x0A]

/-- The machine that is about to wait while the key 5 is down. -/
def beforeWait : Machine CyclicNumbers where
  source := ⟨[0], [0]⟩
  memory := Memory.initial.overlay programStart waitTwice
  keypad := Keypad.released.press 5

theorem reachable_beforeWait : beforeWait.Reachable :=
  reachable_of_program (by decide) _ _ (by decide) (by decide)

/-- The key that was down from the beginning comes up for one poll. When it goes down again together
with another it is the lower one that is stored. -/
theorem five_answers_beforeWait :
    let run : List Operation := [.cycle, .keyUp 5, .cycle, .keyDown 9, .keyDown 5]
    beforeWait.Reachable ∧ Unanswered (beforeWait.pads (.cycle :: run)) ∧
      ∃ w', (beforeWait.after (.cycle :: run)).cycle = .done w' ∧ w'.mode = .running ∧
        w'.v = setAt beforeWait.v 3 5 := by
  intro run
  have hfetch : beforeWait.fetch = .ok (0xF00A + 0x100 * (3 : Fin 16).val) :=
    fetch_of_program (k := 0) rfl rfl (by decide) (by decide) rfl
  have hpads (m : Machine CyclicNumbers) :
      m.pads (.cycle :: run) = [m.keypad, m.keypad, m.keypad.release 5] := by
    simp only [run, pads, starts, List.map, keypad_operate, Operation.onKeypad]
  have hkeypad (m : Machine CyclicNumbers) :
      (m.after (.cycle :: run)).keypad = ((m.keypad.release 5).press 9).press 5 := by
    simp only [run, after_cons, after_nil, keypad_operate, Operation.onKeypad]
  have hsilent : Unanswered (beforeWait.pads (.cycle :: run)) := by
    rw [hpads]
    decide
  obtain ⟨-, w', hcycle, hlaw⟩ :=
    waits_until_fresh reachable_beforeWait rfl hfetch (by decide) hsilent
  have hresumes := hlaw.resumes
  rw [hpads, hkeypad] at hresumes
  obtain ⟨k, hanswers, hend⟩ := hresumes (by decide)
  obtain rfl : k = 5 := hanswers.unique (by decide)
  exact ⟨reachable_beforeWait, hsilent, w', hcycle, hend.mode, hend.v⟩

/-! ### Presses -/

/-- The next cycle ends a wait with the key `k`. -/
structure Takes (m : Machine ρ) (k : Fin 16) : Prop where
  waits : m.mode = .awaitingKey
  ends : ∃ m', m.cycle = .done m' ∧ m'.mode = .running ∧ m'.v[m.keyRegister] = k.val

/-- The key has been down for too long to answer a wait. -/
structure Spent (m : Machine ρ) (k : Fin 16) : Prop where
  down : m.keypad.held[k] = true
  seen : m.mode = .awaitingKey → m.keysAtWait[k] = true

theorem freshKey?_of_takes {k : Fin 16} (h : m.Takes k) : m.freshKey? = some k := by
  obtain ⟨m', hcycle, hmode, hv⟩ := h.ends
  rw [cycle_of_awaitingKey h.waits] at hcycle
  cases hcycle
  cases hfresh : m.freshKey? with
  | none =>
      obtain ⟨keysAtWait, hpoll, -⟩ := poll_of_freshKey?_eq_none hfresh
      rw [hpoll] at hmode
      have hwaits : m.mode = .running := hmode
      rw [h.waits] at hwaits
      cases hwaits
  | some j =>
      obtain ⟨keysAtWait, hpoll⟩ := poll_of_freshKey?_eq_some hfresh
      rw [hpoll] at hv
      have hjk : (j.val : Int) = k.val := by simpa [tick] using hv
      have : j = k := by omega
      rw [this]

/-- A wait begins with its own instruction. -/
theorem instruction?_of_begins (hbefore : m.mode = .running)
    (hafter : m.cycle.state.mode = .awaitingKey) : ∃ x, m.instruction? = some (.awaitKey x) := by
  have htick : m.cycle.state.mode = m.act.state.mode := changesOnly_act_cycle m .mode (by decide)
  rw [htick] at hafter
  cases hi : m.instruction? with
  | some i =>
      rw [(act_of_instruction? hi).1] at hafter
      by_cases hmem : .mode ∈ i.footprint
      · obtain ⟨x, rfl⟩ := Instruction.mode_mem_footprint.mp hmem
        exact ⟨x, rfl⟩
      · have hkept : (m.perform i).state.mode = m.mode := changesOnly_perform m i .mode hmem
        rw [hkept, hbefore] at hafter
        cases hafter
  | none =>
      rcases act_of_instruction?_eq_none hi with ⟨hmode, -⟩ | ⟨address, hact⟩ | ⟨unknown, hact⟩
      · rw [hbefore] at hmode
        cases hmode
      · rw [hact, Outcome.state_stopped, hbefore] at hafter
        cases hafter
      · rw [hact, Outcome.state_done] at hafter
        rw [show m.mode = .awaitingKey from hafter] at hbefore
        cases hbefore

/-- A key that ends a wait is spent after it. -/
theorem spent_of_takes {k : Fin 16} (h : m.Takes k) : (m.operate .cycle).Spent k := by
  obtain ⟨m', hcycle, hmode, -⟩ := h.ends
  have hfresh := (freshKey?_eq_some_iff.mp (freshKey?_of_takes h)).1
  have hkeypad := keypad_cycle m
  rw [operate]
  rw [hcycle, Outcome.state_done] at hkeypad ⊢
  constructor
  case down =>
    rw [fresh, Bool.and_eq_true] at hfresh
    rw [hkeypad]
    exact hfresh.1
  case seen =>
    intro hwaits
    rw [hmode] at hwaits
    cases hwaits

theorem spent_cycle {k : Fin 16} (h : m.Spent k) : m.cycle.state.Spent k := by
  refine ⟨by rw [keypad_cycle]; exact h.down, fun hafter => ?_⟩
  cases hmode : m.mode with
  | awaitingKey =>
      rw [cycle_of_awaitingKey hmode, Outcome.state_done] at hafter ⊢
      cases hfresh : m.freshKey? with
      | none =>
          obtain ⟨keysAtWait, hpoll, hkeys⟩ := poll_of_freshKey?_eq_none hfresh
          rw [hpoll]
          have hk : keysAtWait[k] = true := by
            rw [hkeys, h.down, h.seen hmode]
            rfl
          exact hk
      | some j =>
          obtain ⟨keysAtWait, hpoll⟩ := poll_of_freshKey?_eq_some hfresh
          rw [hpoll] at hafter
          cases hafter
  | running =>
      -- Only the instruction leads into a wait, and it remembers all keys that are down.
      obtain ⟨x, hi⟩ := instruction?_of_begins hmode hafter
      rw [cycle_of_awaitKey hi]
      exact h.down

/-- A spent key stays spent until it comes up. -/
theorem spent_operate {k : Fin 16} (h : m.Spent k) {op : Operation} (hop : op ≠ .keyUp k.val) :
    (m.operate op).Spent k := by
  cases op with
  | cycle => exact spent_cycle h
  | load program =>
      rw [operate_load]
      split
      · exact h
      · exact ⟨h.down, h.seen⟩
  | keyDown key =>
      refine ⟨?_, h.seen⟩
      rw [operate, keyDown]
      simp [Keypad.press, Keypad.held_set, h.down]
  | keyUp key =>
      refine ⟨?_, h.seen⟩
      have hne : key ≠ k.val := fun heq => hop (by rw [heq])
      rw [operate, keyUp]
      simp [Keypad.release, Keypad.held_set, hne, h.down]
  | clearDrawFlag => exact ⟨h.down, h.seen⟩
  | clearCueFlag => exact ⟨h.down, h.seen⟩

theorem spent_after {k : Fin 16} (h : m.Spent k) {run : List Operation}
    (hrun : .keyUp k.val ∉ run) : (m.after run).Spent k := by
  induction run generalizing m with
  | nil => exact h
  | cons op run ih =>
      rw [List.mem_cons, not_or] at hrun
      exact ih (spent_operate h (Ne.symm hrun.1)) hrun.2

theorem not_takes_of_spent {k : Fin 16} (h : m.Spent k) : ¬m.Takes k := by
  intro htakes
  have hfresh := (freshKey?_eq_some_iff.mp (freshKey?_of_takes htakes)).1
  rw [fresh, h.seen htakes.waits, Bool.not_true, Bool.and_false] at hfresh
  cases hfresh

/-- **One press of a key answers one wait.** If a key ends a wait and later ends another, it came up
in the meantime. -/
theorem keyUp_between_answers {k : Fin 16} {between : List Operation} (hfirst : m.Takes k)
    (hsecond : ((m.operate .cycle).after between).Takes k) : .keyUp k.val ∈ between := by
  refine Classical.byContradiction fun hnever => ?_
  exact not_takes_of_spent (spent_after (spent_of_takes hfirst) hnever) hsecond

/-- The machine in its first wait, after the key 5 has come up and gone down again. -/
def beforeAnswer : Machine CyclicNumbers :=
  ((beforeWait.parked 3).keyUp 5).poll.tick.keyDown 5

/-- The key comes up once more before it ends the second wait. -/
theorem five_answers_twice :
    let between : List Operation := [.keyUp 5, .cycle, .keyDown 5]
    beforeAnswer.Takes 5 ∧ ((beforeAnswer.operate .cycle).after between).Takes 5 ∧
      .keyUp 5 ∈ between := by
  intro between
  have hfirst : beforeAnswer.Takes 5 :=
    ⟨rfl, _, cycle_of_awaitingKey rfl, by decide, by decide⟩
  have hnext : (beforeAnswer.poll.tick.keyUp 5).instruction? = some (.awaitKey 3) :=
    instruction?_of_program (k := 2) rfl rfl rfl (by decide) (by decide) rfl
  have hafter : (beforeAnswer.operate .cycle).after between =
      ((beforeAnswer.poll.tick.keyUp 5).parked 3).keyDown 5 := by
    rw [operate, cycle_of_awaitingKey rfl, Outcome.state_done, after_cons, operate, after_cons,
      operate, cycle_of_awaitKey hnext]
    rfl
  have hsecond : ((beforeAnswer.operate .cycle).after between).Takes 5 := by
    rw [hafter]
    exact ⟨rfl, _, cycle_of_awaitingKey rfl, by decide, by decide⟩
  exact ⟨hfirst, hsecond, keyUp_between_answers hfirst hsecond⟩

end Machine

end Chip8
