import Chip8.Proofs.Flags
import Chip8.Proofs.Frames

/-!
# Chip8.Proofs.Bare

The machine in an emulator, beside a machine on its own.

Whoever has a bare machine presses and releases keys and runs cycles, and stops at the first fault
(`Bare.drive`). The calls that stand for the frames of an emulator are read off their events alone
(`frameCalls`): first the keys of the keypad in the order in which they went down and up, then the
cycles of the frame, unless the pause key went down an odd number of times so far.

`adds_nothing` says that the two machines agree after every frame in all but the two flags, and that
a cycle that faults for one does for the other. The two are compared frame by frame
(`mirrors_nextFrame`). That a frame clears flags on the way does no harm, since no cycle looks at
them (`cycle_congr_unflagged`), and a rendering never fails (`render_eq`), so that all failures are
those of cycles.
-/

namespace Chip8

/-! ### A machine on its own -/

/-- The call that hands an event over to the machine, for the keys of the keypad. -/
def Event.call? : Event → Option Machine.Operation
  | .keyDown key => key.padKey?.map fun k => .keyDown k.val
  | .keyUp key => key.padKey?.map fun k => .keyUp k.val
  | _ => none

theorem Event.call?_eq_some {e : Event} {op : Machine.Operation} (h : e.call? = some op) :
    ∃ k, op = .keyDown k ∨ op = .keyUp k := by
  cases e with
  | keyDown key =>
      obtain ⟨k, -, rfl⟩ := Option.map_eq_some_iff.mp h
      exact ⟨_, .inl rfl⟩
  | keyUp key =>
      obtain ⟨k, -, rfl⟩ := Option.map_eq_some_iff.mp h
      exact ⟨_, .inr rfl⟩
  | _ => cases h

/-- The calls of events press and release keys. -/
theorem Event.of_mem_calls {events : List Event} {op : Machine.Operation}
    (h : op ∈ events.filterMap Event.call?) : ∃ k, op = .keyDown k ∨ op = .keyUp k := by
  obtain ⟨e, -, hcall⟩ := List.mem_filterMap.mp h
  exact Event.call?_eq_some hcall

/-- How often the pause key went down. -/
def pausePresses (events : List Event) : Nat := events.count (.keyDown (.char 'p'))

/-- The calls that stand for frames with their events, of `count` cycles each, if the pause key went
down `presses` times before. -/
def frameCalls (count presses : Nat) : List (List Event) → List Machine.Operation
  | [] => []
  | events :: more =>
    let presses := presses + pausePresses events
    events.filterMap Event.call? ++
      List.replicate (if presses % 2 = 0 then count else 0) .cycle ++ frameCalls count presses more

/-- A machine on its own, with what has come of the calls so far. -/
structure Bare (ρ : Type) where
  machine : Machine ρ
  /-- The number of cycles that completed. -/
  completed : Nat := 0
  /-- The fault of the last cycle, if it had one. -/
  fault? : Option Fault := none

namespace Bare

open Machine (Operation)

variable {ρ : Type} [RandomSource ρ] {b : Bare ρ}

/-- One more call, unless a cycle has faulted. -/
def call (b : Bare ρ) (op : Operation) : Bare ρ :=
  if b.fault?.isSome then b
  else
    match op with
    | .cycle =>
      match b.machine.cycle with
      | .done machine => { b with machine, completed := b.completed + 1 }
      | .stopped fault machine => { b with machine, fault? := some fault }
    | op => { b with machine := b.machine.operate op }

/-- Calls up to the first cycle that faults. -/
def drive (b : Bare ρ) (ops : List Operation) : Bare ρ := ops.foldl call b

@[simp] theorem drive_cons (b : Bare ρ) (op : Operation) (ops : List Operation) :
    b.drive (op :: ops) = (b.call op).drive ops := rfl

theorem drive_append (b : Bare ρ) (ops more : List Operation) :
    b.drive (ops ++ more) = (b.drive ops).drive more :=
  List.foldl_append

/-- Nothing is called after a fault. -/
theorem drive_of_isSome (h : b.fault?.isSome = true) (ops : List Operation) : b.drive ops = b := by
  induction ops with
  | nil => rfl
  | cons op ops ih =>
      have hcall : b.call op = b := by unfold call; exact if_pos h
      rw [drive_cons, hcall, ih]

theorem call_of_ne_cycle (h : b.fault? = none) {op : Operation} (hop : op ≠ .cycle) :
    b.call op = { b with machine := b.machine.operate op } := by
  unfold call
  rw [if_neg (by simp [h])]
  cases op with
  | cycle => exact absurd rfl hop
  | _ => rfl

theorem call_cycle_of_done (h : b.fault? = none) {m : Machine ρ}
    (hcycle : b.machine.cycle = .done m) :
    b.call .cycle = { b with machine := m, completed := b.completed + 1 } := by
  rw [call, if_neg (by simp [h])]
  simp only [hcycle]

theorem call_cycle_of_stopped (h : b.fault? = none) {m : Machine ρ} {fault : Fault}
    (hcycle : b.machine.cycle = .stopped fault m) :
    b.call .cycle = { b with machine := m, fault? := some fault } := by
  rw [call, if_neg (by simp [h])]
  simp only [hcycle]

/-- The calls of events are operations one after the other. -/
theorem drive_events (h : b.fault? = none) (events : List Event) :
    b.drive (events.filterMap Event.call?) =
      { b with machine := b.machine.after (events.filterMap Event.call?) } := by
  have hops {op : Operation} (hop : op ∈ events.filterMap Event.call?) : op ≠ .cycle := by
    obtain ⟨k, rfl | rfl⟩ := Event.of_mem_calls hop <;> simp
  generalize events.filterMap Event.call? = ops at hops
  induction ops generalizing b with
  | nil => rfl
  | cons op ops ih =>
      rw [drive_cons, call_of_ne_cycle h (hops (List.mem_cons_self ..)),
        ih (by exact h) fun hop => hops (List.mem_cons_of_mem _ hop)]
      rfl

/-! ### Runs of cycles -/

/-- The run and the calls have come to the same, but for the flags. The calls began with cycles that
had completed before. -/
structure Follows (r : Machine.Run ρ) (before : Nat) (b : Bare ρ) : Prop where
  machine : r.machine.unflagged = b.machine.unflagged
  completed : before + r.counters.size = b.completed
  fault? : r.fault? = b.fault?

theorem Follows.extend {r : Machine.Run ρ} {before : Nat} (h : Follows r before b)
    (hfine : b.fault? = none) (n : Nat) :
    Follows (r.extend n) before (b.drive (List.replicate n .cycle)) := by
  induction n generalizing r b with
  | zero => exact h
  | succ n ih =>
      have hcycle := Machine.cycle_congr_unflagged h.machine
      rw [List.replicate_succ, drive_cons]
      cases hb : b.machine.cycle with
      | done m =>
          cases hr : r.machine.cycle with
          | done m' =>
              rw [hb, hr] at hcycle
              rw [Machine.extend_succ_of_done hr, call_cycle_of_done hfine hb]
              refine ih ⟨Outcome.done.inj hcycle, ?_, hfine.symm⟩ hfine
              rw [Array.size_push, ← h.completed, Nat.add_assoc]
          | stopped fault' m' =>
              rw [hb, hr] at hcycle
              cases hcycle
      | stopped fault m =>
          cases hr : r.machine.cycle with
          | done m' =>
              rw [hb, hr] at hcycle
              cases hcycle
          | stopped fault' m' =>
              rw [hb, hr] at hcycle
              obtain ⟨rfl, hm⟩ := Outcome.stopped.inj hcycle
              rw [Machine.extend_succ_of_stopped hr, call_cycle_of_stopped hfine hb,
                drive_of_isSome rfl]
              exact ⟨hm, h.completed, rfl⟩

end Bare

namespace Machine

variable {ρ : Type} [RandomSource ρ] {m m' : Machine ρ}

/-- Keys go down and up alike whatever the flags. -/
theorem after_events_congr_unflagged (events : List Event) (h : m.unflagged = m'.unflagged) :
    (m.after (events.filterMap Event.call?)).unflagged =
      (m'.after (events.filterMap Event.call?)).unflagged := by
  have hops {op : Operation} (hop : op ∈ events.filterMap Event.call?) := Event.of_mem_calls hop
  generalize events.filterMap Event.call? = ops at hops
  induction ops generalizing m m' with
  | nil => exact h
  | cons op ops ih =>
      refine ih ?_ fun hop => hops (List.mem_cons_of_mem _ hop)
      obtain ⟨k, rfl | rfl⟩ := hops (List.mem_cons_self ..)
      · exact congrArg (fun m => m.keyDown k) h
      · exact congrArg (fun m => m.keyUp k) h

end Machine

/-! ### Events -/

namespace Emulator

variable {ρ : Type} [RandomSource ρ] {a : Emulator ρ} {count presses : Nat}

/-- **An event does to the machine what its call does,** and to the pause what the pause key
does. -/
theorem handle_call (a : Emulator ρ) (e : Event) :
    (a.handle e).machine = a.machine.after e.call?.toList ∧
      (a.handle e).paused = (a.paused ^^ decide (e = .keyDown (.char 'p'))) := by
  cases e with
  | quit => simp [handle, Event.call?]
  | other => simp [handle, Event.call?]
  | keyUp key =>
      cases hkey : key.padKey? with
      | none => simp [handle, keyUp, Event.call?, hkey]
      | some k => simp [handle, keyUp, Event.call?, hkey, Machine.operate]
  | keyDown key =>
      by_cases hescape : key = .escape
      · subst hescape
        exact ⟨rfl, by simp [handle, keyDown]⟩
      · by_cases hpause : key = .char 'p'
        · subst hpause
          exact ⟨rfl, by simp [handle, keyDown]⟩
        · by_cases hdebug : key = .f1
          · subst hdebug
            exact ⟨rfl, by simp [handle, keyDown]⟩
          · cases hkey : key.padKey? with
            | none => simp [handle, keyDown, Event.call?, hescape, hpause, hdebug, hkey]
            | some k =>
                simp [handle, keyDown, Event.call?, hescape, hpause, hdebug, hkey, Machine.operate]

theorem machine_handleAll (a : Emulator ρ) (events : List Event) :
    (a.handleAll events).machine = a.machine.after (events.filterMap Event.call?) := by
  induction events generalizing a with
  | nil => rfl
  | cons e events ih =>
      have hrest : (a.handle e).handleAll events = a.handleAll (e :: events) := rfl
      rw [← hrest, ih, (handle_call a e).1]
      cases hcall : e.call? with
      | none => rw [List.filterMap_cons_none hcall]; rfl
      | some op => rw [List.filterMap_cons_some hcall]; rfl

/-- The emulator is paused as long as the pause key went down an odd number of times. -/
theorem paused_handleAll (events : List Event) (h : a.paused = decide (presses % 2 = 1)) :
    (a.handleAll events).paused = decide ((presses + pausePresses events) % 2 = 1) := by
  induction events generalizing a presses with
  | nil => exact h
  | cons e events ih =>
      have hrest : (a.handle e).handleAll events = a.handleAll (e :: events) := rfl
      have hhandle := (handle_call a e).2
      rw [h] at hhandle
      rw [← hrest]
      by_cases hpause : e = .keyDown (.char 'p')
      · have hcount : pausePresses (e :: events) = pausePresses events + 1 := by
          rw [hpause, pausePresses, List.count_cons_self, pausePresses]
        have hpaused : (a.handle e).paused = decide ((presses + 1) % 2 = 1) := by
          rw [hhandle, decide_eq_true hpause, Bool.xor_true, Bool.not_eq_eq_eq_not, ← decide_not]
          exact decide_eq_decide.mpr (by omega)
        rw [hcount, ih hpaused]
        exact decide_eq_decide.mpr (by omega)
      · have hcount : pausePresses (e :: events) = pausePresses events :=
          List.count_cons_of_ne hpause
        rw [hcount]
        exact ih (by rw [hhandle, decide_eq_false hpause, Bool.xor_false])

/-! ### Frames -/

/-- How many cycles of an update complete. -/
def completed (a : Emulator ρ) : Nat :=
  if a.paused then 0
  else
    match cycleCount a.settings with
    | .error _ => 0
    | .ok n => (a.machine.run n).counters.size

/-- An update runs the cycles of a frame, and none of them if the emulator is paused. -/
theorem update_eq (hworks : a.Works count) {run : Machine.Run ρ}
    (hrun : a.machine.run (if a.paused then 0 else count) = run) :
    a.completed = run.counters.size ∧
      ∃ notices cueFlag cueFrames,
        a.update = (notices, run.fault?.map .fault,
          { a with machine := { run.machine with cueFlag }, cueFrames }) := by
  by_cases hpaused : a.paused = true
  · rw [if_pos hpaused] at hrun
    subst hrun
    rw [completed, if_pos hpaused]
    exact ⟨rfl, _, _, _, update_of_paused hpaused⟩
  · rw [if_neg hpaused] at hrun
    subst hrun
    obtain ⟨cueFlag, cueFrames, hupdate⟩ :=
      update_of_not_paused hworks (Bool.not_eq_true _ ▸ hpaused)
    rw [completed, if_neg hpaused, hworks.cycles]
    exact ⟨rfl, _, _, _, hupdate⟩

end Emulator

namespace LoopRun

variable {ρ : Type} [RandomSource ρ] {r : LoopRun ρ} {b : Bare ρ} {count presses : Nat}

/-- **A frame** leaves the machine as its run of cycles does, but for the flags, and fails as the
run does. -/
theorem nextFrame_eq (hhealthy : r.emulator.Healthy count) (hfine : r.failure? = none)
    {events : List Event} {a : Emulator ρ} (ha : r.emulator.handleAll events = a)
    {run : Machine.Run ρ} (hrun : a.machine.run (if a.paused then 0 else count) = run) :
    (r.nextFrame events).emulator.machine.unflagged = run.machine.unflagged ∧
      (r.nextFrame events).failure? = run.fault?.map .fault ∧
      (r.nextFrame events).emulator.paused = a.paused := by
  have hreached : Emulator.Reached r.emulator a := ha ▸ Emulator.Reached.start.handleAll events
  obtain ⟨-, notices, cueFlag, cueFrames, hupdate⟩ :=
    Emulator.update_eq (hreached.healthy hhealthy).works hrun
  rw [← ha] at hupdate ⊢
  cases hfault : run.fault? with
  | none =>
      obtain ⟨frame, cueFrames', hdone, hb⟩ :=
        nextFrame_of_update hhealthy (by rw [hupdate, hfault]; rfl)
      exact ⟨by rw [hb]; rfl, hdone.trans hfine, by rw [hb]⟩
  | some fault =>
      rcases r.nextFrame_cases events with ⟨failure, hfailed, hb, hfailure⟩ | ⟨hdone, -, -⟩
      · rw [hupdate, hfault] at hfailed
        rw [hupdate] at hb
        exact ⟨by rw [hb]; rfl, hfailure.trans hfailed.symm, by rw [hb]⟩
      · rw [hupdate, hfault] at hdone
        cases hdone

/-- The emulator's machine is the bare one but for the flags, and what went wrong is the same. -/
structure Mirrors (r : LoopRun ρ) (b : Bare ρ) : Prop where
  machine : r.emulator.machine.unflagged = b.machine.unflagged
  failure? : r.failure? = b.fault?.map .fault

/-- **A frame mirrors its calls.** -/
theorem mirrors_nextFrame (h : r.Mirrors b) (hfine : b.fault? = none)
    (hhealthy : r.emulator.Healthy count)
    (hpaused : r.emulator.paused = decide (presses % 2 = 1)) (events : List Event) :
    let pressed := presses + pausePresses events
    let b' := b.drive (events.filterMap Event.call? ++
      List.replicate (if pressed % 2 = 0 then count else 0) .cycle)
    (r.nextFrame events).Mirrors b' ∧
      b.completed + (r.emulator.handleAll events).completed = b'.completed ∧
      (r.nextFrame events).emulator.paused = decide (pressed % 2 = 1) := by
  intro pressed b'
  generalize ha : r.emulator.handleAll events = a
  have hmachine : a.machine.unflagged =
      (b.machine.after (events.filterMap Event.call?)).unflagged := by
    rw [← ha, Emulator.machine_handleAll]
    exact Machine.after_events_congr_unflagged events h.machine
  have hstill : a.paused = decide (pressed % 2 = 1) := by
    rw [← ha]
    exact Emulator.paused_handleAll events hpaused
  have hdue : (if a.paused then 0 else count) = if pressed % 2 = 0 then count else 0 := by
    rw [hstill]
    rcases Nat.mod_two_eq_zero_or_one pressed with heven | hodd
    · rw [heven]; rfl
    · rw [hodd]; rfl
  generalize hrun : a.machine.run (if a.paused then 0 else count) = run
  have hfollows : Bare.Follows run b.completed b' := by
    rw [← hrun, hdue]
    have hbefore : Bare.Follows { machine := a.machine } b.completed
        { b with machine := b.machine.after (events.filterMap Event.call?) } :=
      ⟨hmachine, rfl, hfine.symm⟩
    simp only [b', Bare.drive_append, Bare.drive_events hfine]
    exact hbefore.extend hfine _
  have hreached : Emulator.Reached r.emulator a := ha ▸ Emulator.Reached.start.handleAll events
  obtain ⟨hframe, hfailure, hpause⟩ :=
    nextFrame_eq hhealthy (by rw [h.failure?, hfine]; rfl) ha hrun
  obtain ⟨hcompleted, -⟩ := Emulator.update_eq (hreached.healthy hhealthy).works hrun
  refine ⟨⟨hframe.trans hfollows.machine, ?_⟩, ?_, hpause.trans hstill⟩
  · rw [hfailure, hfollows.fault?]
  · rw [hcompleted, hfollows.completed]

/-- How many cycles of a play complete. -/
def completed (r : LoopRun ρ) : List (List Event) → Nat
  | [] => 0
  | events :: more =>
    (r.emulator.handleAll events).completed +
      if (r.nextFrame events).failure?.isSome then 0 else (r.nextFrame events).completed more

/-- What a frame keeps, a play of several keeps: it mirrors the calls of its frames. -/
theorem mirrors_play (h : r.Mirrors b) (hfine : b.fault? = none)
    (hhealthy : r.emulator.Healthy count)
    (hpaused : r.emulator.paused = decide (presses % 2 = 1)) (batches : List (List Event)) :
    let b' := b.drive (frameCalls count presses batches)
    (r.play batches).Mirrors b' ∧ b.completed + r.completed batches = b'.completed := by
  induction batches generalizing r b presses with
  | nil => exact ⟨h, rfl⟩
  | cons events more ih =>
      obtain ⟨hnext, hcompleted, hpause⟩ := mirrors_nextFrame h hfine hhealthy hpaused events
      have hstill : (r.nextFrame events).emulator.Healthy count :=
        (reached_nextFrame r events .start).healthy hhealthy
      rw [frameCalls, Bare.drive_append, play, completed]
      generalize b.drive _ = b' at hnext hcompleted ⊢
      cases hfault : b'.fault? with
      | some fault =>
          have hfailed : (r.nextFrame events).failure?.isSome = true := by
            rw [hnext.failure?, hfault]
            rfl
          rw [if_pos hfailed, if_pos hfailed, Bare.drive_of_isSome (by simp [hfault])]
          exact ⟨hnext, hcompleted⟩
      | none =>
          have hgoes : ¬(r.nextFrame events).failure?.isSome = true := by
            rw [hnext.failure?, hfault]
            exact Bool.false_ne_true
          rw [if_neg hgoes, if_neg hgoes, ← Nat.add_assoc, hcompleted]
          exact ih hnext hfault hstill hpause

end LoopRun

namespace Emulator

variable {ρ : Type} [RandomSource ρ] {a : Emulator ρ}

/-- **An emulator adds nothing to its machine.** It is started on a steady display, around a machine
that can come up, with accepted settings whose scale, rates and reach of the glow are whole numbers,
and frames with any events are run. The machine is then, but for the two flags, the bare machine
that received the keys of each frame and, unless the pause key went down an odd number of times by
then, as many cycles as the settings say. A frame fails just if a cycle of the bare machine faults:
with the same fault, behind as many completed cycles, and with the machine as the fault left it. -/
theorem adds_nothing {display : Display} {machine : Machine ρ} {settings : Settings} {name : String}
    (hsteady : display.Steady) (hmachine : machine.Reachable) (haccepted : settings.Accepted)
    (hwhole : settings.Whole) (hstart : start display machine settings name = .ok a) :
    ∃ count : Nat, 1 ≤ count ∧ settings.cyclesPerFrame = .ok (.int count) ∧
      ∀ batches,
        let shown := LoopRun.play { emulator := a } batches
        let bare := Bare.drive { machine } (frameCalls count 0 batches)
        shown.emulator.machine.unflagged = bare.machine.unflagged ∧
          shown.failure? = bare.fault?.map .fault ∧
          LoopRun.completed { emulator := a } batches = bare.completed := by
  obtain ⟨count, hcount, hcycles, hworks⟩ := works_of_start hsteady haccepted hwhole hstart
  obtain ⟨⟨hm, -, hpaused, -⟩, -⟩ := of_start_eq_ok hstart
  refine ⟨count, hcount, hcycles, fun batches => ?_⟩
  have hbegins : LoopRun.Mirrors { emulator := a } { machine } :=
    ⟨congrArg Machine.unflagged hm, rfl⟩
  have hstill : a.paused = decide (0 % 2 = 1) := hpaused
  obtain ⟨hmirrors, hcompleted⟩ :=
    LoopRun.mirrors_play hbegins rfl (healthy_of_start hmachine hworks hstart) hstill batches
  exact ⟨hmirrors.machine, hmirrors.failure?, by rw [← hcompleted]; exact (Nat.zero_add _).symm⟩

/-- The program `6005`, `00EE`: it returns where nothing was called. -/
def returnEarly : Array UInt8 := #[0x60, 0x05, 0x00, 0xEE]

/-- The machine that has the program in memory. -/
def beforeReturn : Machine CyclicNumbers :=
  { source := ⟨[0], [0]⟩, memory := Memory.initial.overlay programStart returnEarly }

/-- The machine that is about to return, with a key held. -/
def atReturn : Machine CyclicNumbers := ((beforeReturn.keyDown 5).setV 0 5).next.tick

/-- The calls of three frames, of which the second is paused: a key, a cycle that completes and one
that faults. -/
theorem drive_beforeReturn :
    Bare.drive { machine := beforeReturn } [.keyDown 5, .cycle, .cycle] =
      { machine := atReturn, completed := 1, fault? := some (.returnWithoutCall 0x202) } := by
  have hfirst : (beforeReturn.keyDown 5).instruction? = some (.loadByte 0 5) :=
    Machine.instruction?_of_program (k := 0) rfl rfl rfl (by decide) (by decide) rfl
  have hsecond : atReturn.instruction? = some .ret :=
    Machine.instruction?_of_program (k := 2) rfl rfl rfl (by decide) (by decide) rfl
  have hdone : (beforeReturn.keyDown 5).cycle = .done atReturn :=
    Machine.cycle_of_instruction? hfirst rfl
  have hstopped : atReturn.cycle = .stopped (.returnWithoutCall 0x202) atReturn := by
    rw [Machine.cycle_eq_stopped_iff, (Machine.act_of_instruction? hsecond).1]
    rfl
  have hkey : Bare.call { machine := beforeReturn } (.keyDown 5) =
      { machine := beforeReturn.operate (.keyDown 5) } := Bare.call_of_ne_cycle rfl nofun
  rw [Machine.operate] at hkey
  rw [Bare.drive_cons, hkey, Bare.drive_cons,
    Bare.call_cycle_of_done (b := { machine := beforeReturn.keyDown 5 }) rfl hdone, Bare.drive_cons,
    Bare.call_cycle_of_stopped (b := { machine := atReturn, completed := 1 }) rfl hstopped]
  rfl

/-- In an emulator the same comes of three frames: a key goes down in the first, which runs a cycle,
the second is paused, and the third fails with the fault of the return. -/
theorem adds_nothing_returning :
    let settings : Settings := { clockHz := .int 60 }
    let pause : Event := .keyDown (.char 'p')
    let batches : List (List Event) := [[.keyDown (.char 'w')], [pause], [pause]]
    Display.desktop.Steady ∧ beforeReturn.Reachable ∧
      Settings.withOverrides {} [("clock_hz", .int 60)] = .ok settings ∧ settings.Whole ∧
      ∃ a, start .desktop beforeReturn settings "maze" = .ok a ∧
        let shown := LoopRun.play { emulator := a } batches
        shown.emulator.machine.unflagged = atReturn.unflagged ∧
          shown.failure? = some (.fault (.returnWithoutCall 0x202)) ∧
          LoopRun.completed { emulator := a } batches = 1 := by
  intro settings pause batches
  have hoverridden : Settings.withOverrides {} [("clock_hz", .int 60)] = .ok settings :=
    Settings.withOverrides_eq_ok_iff.mpr ⟨by decide, rfl⟩
  have haccepted : settings.Accepted := .inr ⟨_, _, hoverridden⟩
  have hwhole : settings.Whole := Settings.whole_of_rates 60 60
  have hmachine : beforeReturn.Reachable :=
    Machine.reachable_of_program (by decide) _ _ (by decide) (by decide)
  obtain ⟨a, hstart⟩ : ∃ a, start .desktop beforeReturn settings "maze" = .ok a :=
    exists_start _ _ _ _ (by decide)
  obtain ⟨count, -, hcycles, hplay⟩ :=
    adds_nothing steady_desktop hmachine haccepted hwhole hstart
  have hone : settings.cyclesPerFrame = .ok (.int 1) := rfl
  obtain rfl : 1 = count := by
    rw [hone] at hcycles
    cases hcycles
    rfl
  have hcalls : frameCalls 1 0
      [[.keyDown (.char 'w')], [.keyDown (.char 'p')], [.keyDown (.char 'p')]] =
        [.keyDown 5, .cycle, .cycle] := rfl
  have hshown := hplay
    [[.keyDown (.char 'w')], [.keyDown (.char 'p')], [.keyDown (.char 'p')]]
  rw [hcalls, drive_beforeReturn] at hshown
  exact ⟨steady_desktop, hmachine, hoverridden, hwhole, a, hstart, hshown⟩

end Emulator

end Chip8
