import Mathlib.Data.List.Induction
import Chip8.Proofs.Bare

/-!
# Chip8.Proofs.Events

What a batch of events leaves behind.

An emulator takes its events one after the other, but each part of its state looks at one kind of
them only. Whether a key of the keypad is held is decided by the last event on the one key of the
keyboard that stands for it. Whether the emulator is paused, and whether the machine's state is
shown, turns with every press of a key, so that only their number counts; and nothing that comes
after the word to stop takes it back.

Each of the statements is first made of one event and then of a batch, by one event more at its end.
Together they name everything that events can change (`TakesEvents`), so any order of a batch that
keeps the events on every key in order comes to the same (`handleAll_perm`).
-/

namespace Chip8

@[simp] theorem Json.Value.isTruthy_bool (b : Bool) : (Json.Value.bool b).isTruthy = b := rfl

/-! ### The keys of the keyboard -/

/-- The keyboard key that stands for a key of the keypad. -/
def Key.ofPad (c : Fin 16) : Key :=
  let chars : Vector Char 16 :=
    #v['x', '1', '2', '3', 'q', 'w', 'e', 'a', 's', 'd', 'z', 'c', '4', 'r', 'f', 'v']
  .char chars[c]

theorem Key.padKey?_ofPad (c : Fin 16) : (Key.ofPad c).padKey? = some c := by
  revert c
  decide

/-- **Each key of the keypad has one key of the keyboard,** and no other key stands for it. -/
theorem Key.padKey?_eq_some_iff {key : Key} {c : Fin 16} :
    key.padKey? = some c ↔ key = Key.ofPad c := by
  constructor
  · intro h
    cases key with
    | char letter =>
        obtain ⟨before, after, hkeys, -⟩ := List.lookup_eq_some_iff.mp h
        have hmem : (letter, c) ∈ padKeys := by simp [hkeys]
        have hall : ∀ p ∈ padKeys, Key.char p.1 = Key.ofPad p.2 := by decide
        exact hall _ hmem
    | _ => cases h
  · rintro rfl
    exact Key.padKey?_ofPad c

/-- The key that an event is about. -/
def Event.key? : Event → Option Key
  | .keyDown key => some key
  | .keyUp key => some key
  | _ => none

/-- The events on a key, in their order. -/
def eventsOn (key : Key) (events : List Event) : List Event := events.filter (·.key? = some key)

/-- How often a key went down. -/
def presses (key : Key) (events : List Event) : Nat := events.count (.keyDown key)

/-- A number of turns by one more. -/
theorem decide_odd_succ (n : Nat) : decide ((n + 1) % 2 = 1) = !decide (n % 2 = 1) := by
  rw [← decide_not]
  exact decide_eq_decide.mpr (by omega)

theorem eventsOn_concat (key : Key) (events : List Event) (e : Event) :
    eventsOn key (events ++ [e]) =
      eventsOn key events ++ if e.key? = some key then [e] else [] := by
  by_cases hkey : e.key? = some key <;> simp [eventsOn, hkey]

theorem presses_concat (key : Key) (events : List Event) (e : Event) :
    presses key (events ++ [e]) = presses key events + if e = .keyDown key then 1 else 0 := by
  rw [presses, List.count_append, List.count_singleton, presses]
  simp

namespace Emulator

variable {ρ : Type}

/-! ### One event -/

/-- What an event does to the emulator itself. -/
theorem handle_controls (a : Emulator ρ) (e : Event) :
    (a.handle e).running = (if e = .quit ∨ e = .keyDown .escape then false else a.running) ∧
      (a.handle e).showDebug =
        (if e = .keyDown .f1 then .bool !a.showDebug.isTruthy else a.showDebug) ∧
      (a.handle e).status =
        if e = .keyDown (.char 'p') then (if a.paused then .resumed else .paused)
        else a.status := by
  cases e with
  | quit => simp [handle]
  | other => simp [handle]
  | keyUp key =>
      rw [handle, keyUp]
      split <;> simp
  | keyDown key =>
      rw [handle, keyDown]
      split
      · rename_i hescape
        simp [hescape]
      · rename_i hescape
        split
        · rename_i hpause
          simp [hpause]
        · rename_i hpause
          split
          · rename_i hdebug
            simp [hdebug]
          · rename_i hdebug
            split <;> simp [hescape, hpause, hdebug]

/-- An event changes nothing but what it may. -/
theorem handle_rest (a : Emulator ρ) (e : Event) :
    let b := a.handle e
    b = { a with
      machine := { a.machine with keypad := b.machine.keypad }
      running := b.running, paused := b.paused, showDebug := b.showDebug, status := b.status } := by
  obtain ⟨keypad, running, paused, showDebug, status, heq⟩ := a.handle_eq e
  rw [heq]

/-! ### Batches -/

theorem handleAll_concat (a : Emulator ρ) (events : List Event) (e : Event) :
    a.handleAll (events ++ [e]) = (a.handleAll events).handle e :=
  List.foldl_append

/-- The emulator is told to stop once and for all. -/
theorem running_handleAll (a : Emulator ρ) (events : List Event) :
    (a.handleAll events).running =
      if .quit ∈ events ∨ .keyDown .escape ∈ events then false else a.running := by
  induction events using List.reverseRecOn with
  | nil => simp [handleAll]
  | append_singleton events e ih =>
      rw [handleAll_concat, (handle_controls _ e).1, ih]
      by_cases hstop : e = .quit ∨ e = .keyDown .escape
      · rw [if_pos hstop, if_pos]
        rcases hstop with rfl | rfl <;> simp
      · rw [if_neg hstop]
        obtain ⟨hquit, hescape⟩ := not_or.mp hstop
        simp [Ne.symm hquit, Ne.symm hescape]

/-- The machine's state is shown and hidden again with every press of its key. -/
theorem isTruthy_showDebug_handleAll (a : Emulator ρ) (events : List Event) :
    (a.handleAll events).showDebug.isTruthy =
      (a.showDebug.isTruthy ^^ decide (presses .f1 events % 2 = 1)) := by
  induction events using List.reverseRecOn with
  | nil => simp [handleAll, presses]
  | append_singleton events e ih =>
      rw [handleAll_concat, (handle_controls _ e).2.1, presses_concat]
      by_cases hdebug : e = .keyDown .f1
      · simp [hdebug, decide_odd_succ, ih]
      · simp [hdebug, ih]

/-- A setting that was no truth value is one after the first press. -/
theorem showDebug_handleAll (a : Emulator ρ) (events : List Event) :
    (a.handleAll events).showDebug =
      if presses .f1 events = 0 then a.showDebug
      else .bool (a.showDebug.isTruthy ^^ decide (presses .f1 events % 2 = 1)) := by
  induction events using List.reverseRecOn with
  | nil => simp [handleAll, presses]
  | append_singleton events e ih =>
      rw [handleAll_concat, (handle_controls _ e).2.1, presses_concat]
      by_cases hdebug : e = .keyDown .f1
      · simp [hdebug, decide_odd_succ, isTruthy_showDebug_handleAll]
      · simp [hdebug, ih]

theorem handleAll_rest (a : Emulator ρ) (events : List Event) :
    let b := a.handleAll events
    b = { a with
      machine := { a.machine with keypad := b.machine.keypad }
      running := b.running, paused := b.paused, showDebug := b.showDebug, status := b.status } := by
  induction events using List.reverseRecOn with
  | nil => rfl
  | append_singleton events e ih =>
      rw [handleAll_concat]
      dsimp only at ih ⊢
      rw [handle_rest, ih]

/-! ### The keypad and the pause -/

variable [RandomSource ρ]

/-- A keyboard key moves the key of the keypad that it stands for, and no other. -/
theorem held_after_call (m : Machine ρ) (key : Key) (c : Fin 16) {down : Bool}
    {call : Fin 16 → Machine.Operation}
    (hcall : ∀ k : Fin 16, (m.operate (call k)).keypad = m.keypad.set k.val down) :
    (m.after (key.padKey?.map call).toList).keypad.held[c] =
      if key = Key.ofPad c then down else m.keypad.held[c] := by
  cases hkey : key.padKey? with
  | none =>
      have hne : key ≠ Key.ofPad c := by
        rintro rfl
        rw [Key.padKey?_ofPad] at hkey
        cases hkey
      rw [if_neg hne]
      rfl
  | some k =>
      have hiff : key = Key.ofPad c ↔ (k.val : Int) = c.val := by
        rw [← Key.padKey?_eq_some_iff, hkey, Option.some.injEq, Fin.ext_iff, Int.ofNat_inj]
      simp only [Option.map_some, Option.toList_some, Machine.after_cons, Machine.after_nil, hcall,
        Keypad.held_set, hiff]

/-- A key of the keypad goes down and up with its key of the keyboard. -/
theorem held_handle (a : Emulator ρ) (e : Event) (c : Fin 16) :
    (a.handle e).machine.keypad.held[c] =
      if e.key? = some (Key.ofPad c) then decide (e = .keyDown (Key.ofPad c))
      else a.machine.keypad.held[c] := by
  rw [(handle_call a e).1]
  cases e with
  | quit => rfl
  | other => rfl
  | keyDown key =>
      rw [Event.call?, held_after_call a.machine key c fun k => rfl]
      simp [Event.key?]
  | keyUp key =>
      rw [Event.call?, held_after_call a.machine key c fun k => rfl]
      simp [Event.key?]

/-- **The last event on its key decides** whether a key of the keypad is held. -/
theorem held_handleAll (a : Emulator ρ) (events : List Event) (c : Fin 16) :
    (a.handleAll events).machine.keypad.held[c] = true ↔
      (eventsOn (Key.ofPad c) events).getLast? = some (.keyDown (Key.ofPad c)) ∨
        eventsOn (Key.ofPad c) events = [] ∧ a.machine.keypad.held[c] = true := by
  induction events using List.reverseRecOn with
  | nil => simp [handleAll, eventsOn]
  | append_singleton events e ih =>
      rw [handleAll_concat, held_handle, eventsOn_concat]
      by_cases hkey : e.key? = some (Key.ofPad c)
      · simp [hkey]
      · simp [hkey, ih]

/-- The pause turns with every press of its key. -/
theorem paused_handleAll_eq (a : Emulator ρ) (events : List Event) :
    (a.handleAll events).paused =
      (a.paused ^^ decide (presses (.char 'p') events % 2 = 1)) := by
  have hbefore : a.paused = decide (a.paused.toNat % 2 = 1) := by
    cases a.paused <;> rfl
  have hcount : pausePresses events = presses (.char 'p') events := rfl
  rw [paused_handleAll events hbefore, hcount]
  cases a.paused with
  | false => simp
  | true => simp [Nat.add_comm 1, decide_odd_succ]

theorem status_handleAll (a : Emulator ρ) (events : List Event) :
    (a.handleAll events).status =
      if presses (.char 'p') events = 0 then a.status
      else if (a.handleAll events).paused then .paused else .resumed := by
  induction events using List.reverseRecOn with
  | nil => simp [handleAll, presses]
  | append_singleton events e ih =>
      rw [handleAll_concat, (handle_controls _ e).2.2, (handle_call _ e).2, presses_concat]
      by_cases hpause : e = .keyDown (.char 'p')
      · cases hpaused : (a.handleAll events).paused <;> simp [hpause]
      · simp [hpause, ih]

/-- A batch can be put in another order, as long as the events on each key stay in theirs. -/
theorem handleAll_perm (a : Emulator ρ) {events events' : List Event}
    (hperm : events'.Perm events) (hsame : ∀ key, eventsOn key events' = eventsOn key events) :
    a.handleAll events' = a.handleAll events := by
  have hpresses (key : Key) : presses key events' = presses key events := hperm.count_eq _
  have hkeypad : (a.handleAll events').machine.keypad = (a.handleAll events).machine.keypad := by
    apply Keypad.ext
    apply ext_entries
    intro c
    rw [Bool.eq_iff_iff, held_handleAll, held_handleAll, hsame]
  have hrunning : (a.handleAll events').running = (a.handleAll events).running := by
    rw [running_handleAll, running_handleAll]
    simp only [hperm.mem_iff]
  have hpaused : (a.handleAll events').paused = (a.handleAll events).paused := by
    rw [paused_handleAll_eq, paused_handleAll_eq, hpresses]
  have hdebug : (a.handleAll events').showDebug = (a.handleAll events).showDebug := by
    rw [showDebug_handleAll, showDebug_handleAll, hpresses]
  have hstatus : (a.handleAll events').status = (a.handleAll events).status := by
    rw [status_handleAll, status_handleAll, hpresses, hpaused]
  -- Nothing else of the two states has changed at all.
  have hleft := handleAll_rest a events'
  have hright := handleAll_rest a events
  dsimp only at hleft hright
  rw [hleft, hright, hkeypad, hrunning, hpaused, hdebug, hstatus]

/-- What has come of an emulator by a batch of events. -/
structure TakesEvents (a : Emulator ρ) (events : List Event) (b : Emulator ρ) : Prop where
  /-- A key is held if the last event on its keyboard key was a press, or there was none and it was
  held before. -/
  held (c : Fin 16) : b.machine.keypad.held[c] = true ↔
    (eventsOn (Key.ofPad c) events).getLast? = some (.keyDown (Key.ofPad c)) ∨
      eventsOn (Key.ofPad c) events = [] ∧ a.machine.keypad.held[c] = true
  /-- An odd number of presses turns the pause. -/
  paused : b.paused = (a.paused ^^ decide (presses (.char 'p') events % 2 = 1))
  /-- An odd number of presses turns whether the machine's state is shown. -/
  shown : b.showDebug.isTruthy =
    (a.showDebug.isTruthy ^^ decide (presses .f1 events % 2 = 1))
  /-- What says so stays the setting until the first press, and is a truth value from then on. -/
  showDebug : b.showDebug =
    if presses .f1 events = 0 then a.showDebug else .bool b.showDebug.isTruthy
  running : b.running =
    if .quit ∈ events ∨ .keyDown .escape ∈ events then false else a.running
  /-- Of the machine only the keypad has changed. -/
  machine : b.machine = { a.machine with keypad := b.machine.keypad }

/-- **Events are taken key by key.** Each key of the keypad has its one key of the keyboard, and
whatever a batch of events holds, what comes of it is told by the events on each key and by the
orders to stop. So a reordering of the batch that keeps the events on every key in order leads to
the same state. -/
theorem events_by_key (a : Emulator ρ) (events : List Event) :
    (∀ (key : Key) (c : Fin 16), key.padKey? = some c ↔ key = Key.ofPad c) ∧
    a.TakesEvents events (a.handleAll events) ∧
    ∀ events', events'.Perm events → (∀ key, eventsOn key events' = eventsOn key events) →
      a.handleAll events' = a.handleAll events := by
  refine ⟨fun key c => Key.padKey?_eq_some_iff, ?_, fun events' hperm hsame => ?_⟩
  · constructor
    case held => exact held_handleAll a events
    case paused => exact paused_handleAll_eq a events
    case shown => exact isTruthy_showDebug_handleAll a events
    case showDebug =>
      rw [isTruthy_showDebug_handleAll]
      exact showDebug_handleAll a events
    case running => exact running_handleAll a events
    case machine => exact congrArg Emulator.machine (handleAll_rest a events)
  · exact handleAll_perm a hperm hsame

/-- A key that goes down and up around a press of the pause key, and the same with the pause in
front. -/
theorem pause_within_press :
    ∃ a : Emulator CyclicNumbers,
      start .desktop (Machine.new ⟨[0], [0]⟩ .released .standard) {} "maze" = .ok a ∧
      let events : List Event := [.keyDown (.char 'w'), .keyDown (.char 'p'), .keyUp (.char 'w')]
      let events' : List Event := [.keyDown (.char 'p'), .keyDown (.char 'w'), .keyUp (.char 'w')]
      events'.Perm events ∧ (∀ key, eventsOn key events' = eventsOn key events) ∧
        a.handleAll events' = a.handleAll events ∧ (a.handleAll events).paused = true := by
  obtain ⟨a, hstart⟩ := exists_start
    (Machine.new (⟨[0], [0]⟩ : CyclicNumbers) .released .standard) (.int 500) (.int 60) "maze"
    (by decide)
  refine ⟨a, hstart, ?_⟩
  intro events events'
  obtain ⟨-, htakes, hreorder⟩ := events_by_key a events
  have hperm : events'.Perm events := by decide
  have hsame : ∀ key, eventsOn key events' = eventsOn key events := by
    intro key
    by_cases hw : key = .char 'w'
    · subst hw
      decide
    · by_cases hp : key = .char 'p'
      · subst hp
        decide
      · simp [events, events', eventsOn, Event.key?, Ne.symm hw, Ne.symm hp]
  refine ⟨hperm, hsame, hreorder events' hperm hsame, ?_⟩
  rw [htakes.paused, (of_start_eq_ok hstart).1.2.2.1]
  decide

end Emulator

end Chip8
