import Chip8.Emulator.Loop
import Chip8.Proofs.Disassembly
import Chip8.Proofs.Settings

/-!
# Chip8.Proofs.Frames

The frames of an emulator, and the picture it shows.

A frame handles the events that have arrived, updates and renders. Each of the three is first said
as one equation (`handle_eq`, `update_of_not_paused`, `render_eq`), which names everything it can
change. The states that come up are those that such steps lead to (`Reached`), in any order and
with any number of cycles in between; `LoopRun.play` runs whole frames and passes through such
states only (`reached_play`), and so does the main loop, which is a play of its first frames.

The picture is made anew only if the draw flag is up, so it can go stale if something draws without
raising the flag. Nothing does: an instruction that can change the screen raises the flag
(`drawFlag_cycle`), and the flag comes down right after a picture was made and at no other time.
`never_shows_stale` is that statement over all states that come up.
-/

namespace Chip8

open Json (Number)

/-! ### Drawing raises the flag -/

/-- What can change the screen is a clearing or a drawing, and touches the draw flag. -/
theorem Instruction.screen_mem_footprint {i : Instruction} :
    .screen ∈ i.footprint ↔ i = .clear ∨ ∃ x y rows, i = .draw x y rows := by
  cases i <;> simp [footprint]

theorem Instruction.drawFlag_mem_footprint {i : Instruction} :
    .drawFlag ∈ i.footprint ↔ .screen ∈ i.footprint := by
  cases i <;> simp [footprint]

namespace Machine

variable {ρ : Type} [RandomSource ρ] {m m' : Machine ρ}

/-- The draw flag is up, or neither it nor the screen has changed. -/
def NotesDrawing (m m' : Machine ρ) : Prop :=
  m'.drawFlag = true ∨ m'.screen = m.screen ∧ m'.drawFlag = m.drawFlag

theorem drawFlag_perform (m : Machine ρ) (i : Instruction) :
    m.NotesDrawing (m.perform i).state := by
  by_cases hscreen : .screen ∈ i.footprint
  · rcases Instruction.screen_mem_footprint.mp hscreen with rfl | ⟨x, y, rows, rfl⟩
    · exact .inl rfl
    · rw [perform]
      split
      · exact .inr ⟨rfl, rfl⟩
      · split
        · exact .inr ⟨rfl, rfl⟩
        · exact .inl rfl
  · have hkept := changesOnly_perform m i
    exact .inr ⟨hkept .screen hscreen,
      hkept .drawFlag fun h => hscreen (Instruction.drawFlag_mem_footprint.mp h)⟩

/-- **A cycle that changes the screen leaves the draw flag up,** whether it completes or faults. -/
theorem drawFlag_cycle (m : Machine ρ) : m.NotesDrawing m.cycle.state := by
  have hact : m.NotesDrawing m.act.state := by
    rcases m.act_cases with ⟨-, hact⟩ | ⟨-, address, -, hact⟩ | ⟨-, w, i, -, -, hact⟩ |
      ⟨-, w, -, -, hact⟩
    · rw [hact]
      exact .inr ⟨changesOnly_poll m .screen (by decide), changesOnly_poll m .drawFlag (by decide)⟩
    · rw [hact]
      exact .inr ⟨rfl, rfl⟩
    · rw [hact]
      exact drawFlag_perform m i
    · rw [hact]
      exact .inr ⟨rfl, rfl⟩
  have htick := m.changesOnly_act_cycle
  unfold NotesDrawing
  rw [show m.cycle.state.screen = m.act.state.screen from htick .screen (by decide),
    show m.cycle.state.drawFlag = m.act.state.drawFlag from htick .drawFlag (by decide)]
  exact hact

/-- A run goes on behind a cycle that completes. -/
theorem extend_succ_of_done {r : Run ρ} (h : r.machine.cycle = .done m') (n : Nat) :
    r.extend (n + 1) = Run.extend {
      machine := m', counters := r.counters.push m'.pc
      notices := r.notices ++ r.machine.observe.1 } n := by
  rw [← outcome_observe] at h
  rw [Run.extend]
  split
  · rename_i hobserve
    rw [hobserve] at h
    cases h
  · rename_i hobserve
    rw [hobserve] at h ⊢
    cases h
    rfl

/-- A run ends with a cycle that faults. -/
theorem extend_succ_of_stopped {r : Run ρ} {fault : Fault}
    (h : r.machine.cycle = .stopped fault m') (n : Nat) :
    r.extend (n + 1) = {
      machine := m', counters := r.counters, notices := r.notices ++ r.machine.observe.1
      fault? := some fault } := by
  rw [← outcome_observe] at h
  rw [Run.extend]
  split
  · rename_i hobserve
    rw [hobserve] at h ⊢
    cases h
    rfl
  · rename_i hobserve
    rw [hobserve] at h
    cases h

/-- What each cycle keeps, a run of several keeps. -/
theorem run_induction {motive : Machine ρ → Prop}
    (step : ∀ m, motive m → motive m.cycle.state) (h : motive m) (n : Nat) :
    motive (m.run n).machine := by
  have hextend (r : Run ρ) (h : motive r.machine) : motive (r.extend n).machine := by
    induction n generalizing r with
    | zero => exact h
    | succ n ih =>
        have hstep := step r.machine h
        cases hcycle : r.machine.cycle with
        | done m' =>
            rw [extend_succ_of_done hcycle]
            exact ih _ (by rwa [hcycle] at hstep)
        | stopped fault m' =>
            rw [extend_succ_of_stopped hcycle]
            rwa [hcycle] at hstep
  exact hextend { machine := m } h

end Machine

namespace Emulator

variable {ρ : Type} {a b start : Emulator ρ} {count : Nat}

/-! ### The three parts of a frame -/

/-- What frames are made with is a matter of the settings, the renderer and the display. -/
theorem Works.of_eq (h : a.Works count) (hsettings : b.settings = a.settings)
    (hrenderer : b.renderer = a.renderer) (hdisplay : b.display = a.display) : b.Works count where
  cycles := by rw [hsettings]; exact h.cycles
  notice := by rw [hsettings]; exact h.notice
  pictures := by rw [hrenderer, hdisplay]; exact h.pictures

/-- **An event** can press or release keys of the keypad, and stop, pause or uncover the
emulator. -/
theorem handle_eq (a : Emulator ρ) (e : Event) :
    ∃ keypad running paused showDebug status,
      a.handle e =
        { a with machine := { a.machine with keypad }, running, paused, showDebug, status } := by
  cases e with
  | quit => exact ⟨_, _, _, _, _, rfl⟩
  | keyDown key =>
      rw [handle, keyDown]
      split
      · exact ⟨_, _, _, _, _, rfl⟩
      · split
        · exact ⟨_, _, _, _, _, rfl⟩
        · split
          · exact ⟨_, _, _, _, _, rfl⟩
          · split <;> exact ⟨_, _, _, _, _, rfl⟩
  | keyUp key =>
      rw [handle, keyUp]
      split <;> exact ⟨_, _, _, _, _, rfl⟩
  | other => exact ⟨_, _, _, _, _, rfl⟩

/-- A cue that is noticed lowers the flag and sets the length of its notice. -/
theorem takeCue_eq {n : Number} (hn : cueLength a.settings = .ok n) :
    a.takeCue = .ok { a with
      machine := { a.machine with cueFlag := false }
      cueFrames := if a.machine.cueFlag then n else a.cueFrames } := by
  rw [takeCue]
  cases hflag : a.machine.cueFlag with
  | true =>
      rw [if_pos rfl, hn]
      rfl
  | false =>
      rw [if_neg Bool.false_ne_true, if_neg Bool.false_ne_true, ← hflag]

/-- Whatever length a notice has, the flag is down and nothing else has changed. -/
theorem takeCue_eq_ok (h : a.takeCue = .ok b) :
    ∃ cueFrames, b = { a with machine := { a.machine with cueFlag := false }, cueFrames } := by
  unfold takeCue at h
  split at h
  · split at h
    · cases h
    · cases h
      exact ⟨_, rfl⟩
  · rename_i hflag
    cases h
    refine ⟨a.cueFrames, ?_⟩
    rw [← Bool.eq_false_iff.mpr hflag]

theorem update_of_paused [RandomSource ρ] (h : a.paused = true) :
    a.update = (#[], none, a) := by
  rw [update, if_pos h]

/-- **An update** runs the cycles of a frame, and fails exactly if one of them faults. -/
theorem update_of_not_paused [RandomSource ρ] (hworks : a.Works count) (h : a.paused = false) :
    ∃ cueFlag cueFrames,
      a.update = ((a.machine.run count).notices, (a.machine.run count).fault?.map .fault,
        { a with machine := { (a.machine.run count).machine with cueFlag }, cueFrames }) := by
  rw [update, if_neg (by simp [h]), hworks.cycles]
  dsimp only
  cases (a.machine.run count).fault? with
  | some fault => exact ⟨_, _, rfl⟩
  | none =>
      have hrun : Works { a with machine := (a.machine.run count).machine } count :=
        hworks.of_eq rfl rfl rfl
      obtain ⟨n, hn⟩ := hrun.notice
      simp only [takeCue_eq hn]
      exact ⟨_, _, rfl⟩

/-- An update whose cycles complete takes notice of a cue that has sounded. -/
theorem update_of_fault?_eq_none [RandomSource ρ] (hworks : a.Works count)
    (h : a.paused = false) {n : Number} (hn : cueLength a.settings = .ok n)
    (hfine : (a.machine.run count).fault? = none) :
    a.update = ((a.machine.run count).notices, none, { a with
      machine := { (a.machine.run count).machine with cueFlag := false }
      cueFrames := if (a.machine.run count).machine.cueFlag then n else a.cueFrames }) := by
  have hcue := takeCue_eq (a := { a with machine := (a.machine.run count).machine }) hn
  rw [update, if_neg (by simp [h]), hworks.cycles]
  dsimp only
  rw [hfine]
  dsimp only
  rw [hcue]

/-- The pictures are those of the machine's screen. -/
def Shows (a : Emulator ρ) : Prop :=
  ∃ frame, a.frame = some frame ∧ a.renderer.render a.display a.machine.screen = .ok frame

/-- There are no pictures yet, or new ones are due, or they are those of the machine's screen. -/
def UpToDate (a : Emulator ρ) : Prop :=
  a.frame = none ∨ a.machine.drawFlag = true ∨ a.Shows

/-- What is kept is made anew where it may be out of date. -/
theorem refresh_eq (hworks : a.Works count) (h : a.UpToDate) :
    ∃ redrawn frame,
      a.refresh = .ok (redrawn,
        { a with frame := some frame, machine := { a.machine with drawFlag := false } }) ∧
      a.renderer.render a.display a.machine.screen = .ok frame := by
  unfold refresh
  by_cases hdue : (a.machine.drawFlag || a.frame.isNone) = true
  · obtain ⟨frame, hframe⟩ := hworks.pictures a.machine.screen
    rw [if_pos hdue, hframe]
    exact ⟨true, frame, rfl, rfl⟩
  · rw [if_neg hdue]
    rw [Bool.or_eq_true, not_or, Bool.not_eq_true, Option.isNone_iff_eq_none] at hdue
    obtain ⟨hflag, hsome⟩ := hdue
    rcases h with hnone | hdrawn | ⟨frame, hframe, hrender⟩
    · exact absurd hnone hsome
    · rw [hflag] at hdrawn
      cases hdrawn
    · refine ⟨false, frame, ?_, hrender⟩
      rw [← hframe, ← hflag]

/-- The machine's state can always be shown. -/
theorem exists_debugLines {m : Machine ρ} (h : m.Sound) : ∃ lines, debugLines m = .ok lines := by
  unfold debugLines
  dsimp only
  split
  · rename_i hpc
    unfold memorySize at hpc
    split
    · rename_i address hfetch
      have := (Machine.fetch_eq_error h.pc.1 hfetch).1
      omega
    · rename_i w hfetch
      obtain ⟨-, h₀, h₁⟩ := Machine.fetch_eq_ok hfetch
      obtain ⟨text, htext⟩ := exists_disassemble_eq_ok h₀ h₁
      rw [htext]
      exact ⟨_, rfl⟩
  · exact ⟨_, rfl⟩

theorem exists_debugTexts (h : a.machine.Sound) :
    ∃ texts, a.debugTexts = .ok texts := by
  unfold debugTexts
  split
  · obtain ⟨lines, hlines⟩ := exists_debugLines h
    rw [hlines]
    exact ⟨_, rfl⟩
  · exact ⟨_, rfl⟩

theorem statusLine_eq (a : Emulator ρ) :
    ∃ line cueFrames, a.statusLine = (line, { a with cueFrames }) := by
  unfold statusLine
  split
  rename_i text b heq
  split at heq
  · cases heq
    exact ⟨_, _, rfl⟩
  · cases heq
    exact ⟨_, _, rfl⟩

/-- What is made anew are the pictures, and nothing but the draw flag changes with them. -/
theorem refresh_eq_ok {redrawn : Bool} (h : a.refresh = .ok (redrawn, b)) :
    ∃ frame drawFlag, b = { a with frame, machine := { a.machine with drawFlag } } := by
  unfold refresh at h
  split at h
  · split at h
    · cases h
    · cases h
      exact ⟨_, false, rfl⟩
  · cases h
    exact ⟨a.frame, a.machine.drawFlag, rfl⟩

/-- A rendering that succeeds writes the status line last, and what that changes is what it leaves
of the emulator. -/
theorem render_eq_ok {rendering : Rendering} (h : a.render = (.ok rendering, b)) :
    ∃ redrawn c texts, a.refresh = .ok (redrawn, c) ∧
      rendering = ⟨redrawn, texts ++ [c.statusLine.1]⟩ ∧ b = c.statusLine.2 := by
  unfold render at h
  split at h
  · cases h
  · rename_i redrawn c hrefresh
    split at h
    · cases h
    · rename_i texts htexts
      cases h
      exact ⟨redrawn, c, texts, hrefresh, rfl, rfl⟩

/-- **A rendering** never fails. It lowers the draw flag, and afterwards the pictures are those of
the machine's screen. -/
theorem render_eq (hworks : a.Works count) (hsound : a.machine.Sound)
    (h : a.UpToDate) :
    ∃ rendering frame cueFrames,
      a.render = (.ok rendering,
        { a with
          frame := some frame, machine := { a.machine with drawFlag := false }, cueFrames }) ∧
      a.renderer.render a.display a.machine.screen = .ok frame := by
  obtain ⟨redrawn, frame, hrefresh, hframe⟩ := refresh_eq hworks h
  rw [render, hrefresh]
  dsimp only
  have hsound' : Machine.Sound { a.machine with drawFlag := false } := { hsound with }
  obtain ⟨texts, htexts⟩ := exists_debugTexts (ρ := ρ)
    (a := { a with frame := some frame, machine := { a.machine with drawFlag := false } }) hsound'
  rw [htexts]
  dsimp only
  obtain ⟨line, cueFrames, hline⟩ := statusLine_eq
    { a with frame := some frame, machine := { a.machine with drawFlag := false } }
  rw [hline]
  exact ⟨_, frame, cueFrames, rfl, hframe⟩

/-- What holds of every state that comes up. -/
structure Healthy (a : Emulator ρ) (count : Nat) : Prop where
  works : a.Works count
  sound : a.machine.Sound
  upToDate : a.UpToDate

/-- Pictures stay up to date through what notes its drawing. -/
theorem UpToDate.of_notesDrawing (h : a.UpToDate) {m : Machine ρ}
    (hm : a.machine.NotesDrawing m) : UpToDate { a with machine := m } := by
  rcases hm with hflag | ⟨hscreen, hflag⟩
  · exact .inr (.inl hflag)
  · rcases h with hnone | hdrawn | ⟨frame, hframe, hrender⟩
    · exact .inl hnone
    · exact .inr (.inl (hflag.trans hdrawn))
    · exact .inr (.inr ⟨frame, hframe, by rw [← hrender]; exact congrArg _ hscreen⟩)

theorem Healthy.handle (h : a.Healthy count) (e : Event) : (a.handle e).Healthy count := by
  obtain ⟨keypad, running, paused, showDebug, status, heq⟩ := a.handle_eq e
  rw [heq]
  exact ⟨h.works.of_eq rfl rfl rfl, { h.sound with }, h.upToDate⟩

theorem Healthy.cycle [RandomSource ρ] (h : a.Healthy count) :
    Healthy { a with machine := a.machine.cycle.state } count :=
  ⟨h.works.of_eq rfl rfl rfl, h.sound.cycle, h.upToDate.of_notesDrawing a.machine.drawFlag_cycle⟩

theorem Healthy.takeCue (h : a.Healthy count) (hcue : a.takeCue = .ok b) : b.Healthy count := by
  obtain ⟨cueFrames, rfl⟩ := takeCue_eq_ok hcue
  exact ⟨h.works.of_eq rfl rfl rfl, { h.sound with }, h.upToDate⟩

/-- A rendering of a healthy emulator succeeds, and leaves it with the pictures of its screen. -/
theorem Healthy.render (h : a.Healthy count) :
    (∃ rendering, a.render.1 = .ok rendering) ∧ a.render.2.Healthy count ∧ a.render.2.Shows := by
  obtain ⟨rendering, frame, cueFrames, heq, hframe⟩ := render_eq h.works h.sound h.upToDate
  rw [heq]
  exact ⟨⟨rendering, rfl⟩,
    ⟨h.works.of_eq rfl rfl rfl, { h.sound with }, .inr (.inr ⟨frame, rfl, hframe⟩)⟩,
    frame, rfl, hframe⟩

/-! ### The states that come up -/

variable [RandomSource ρ]

/-- An emulator that was started around a machine that can come up is healthy. -/
theorem healthy_of_start {display : Display} {machine : Machine ρ} {settings : Settings}
    {name : String} (hmachine : machine.Reachable) (hworks : a.Works count)
    (h : Emulator.start display machine settings name = .ok a) : a.Healthy count := by
  obtain ⟨⟨hm, -, -, hframe⟩, -⟩ := of_start_eq_ok h
  exact ⟨hworks, hm ▸ hmachine.sound, .inl hframe⟩

/-- The states that steps of an emulator lead to from where it started: between two events, between
two cycles, and before and after a rendering. -/
inductive Reached (start : Emulator ρ) : Emulator ρ → Prop
  | start : Reached start start
  | handle {a : Emulator ρ} (h : Reached start a) (e : Event) : Reached start (a.handle e)
  | cycle {a : Emulator ρ} (h : Reached start a) :
      Reached start { a with machine := a.machine.cycle.state }
  | takeCue {a b : Emulator ρ} (h : Reached start a) (hcue : a.takeCue = .ok b) : Reached start b
  | render {a : Emulator ρ} (h : Reached start a) : Reached start a.render.2

theorem Reached.healthy (h : Reached start a) (hstart : start.Healthy count) :
    a.Healthy count := by
  induction h with
  | start => exact hstart
  | handle _ e ih => exact ih.handle e
  | cycle _ ih => exact ih.cycle
  | takeCue _ hcue ih => exact ih.takeCue hcue
  | render _ ih => exact ih.render.2.1

/-- What frames are made with is never changed. -/
theorem Reached.settings_eq (h : Reached start a) (hstart : start.Healthy count) :
    a.settings = start.settings := by
  induction h with
  | start => rfl
  | handle _ e ih =>
      obtain ⟨keypad, running, paused, showDebug, status, heq⟩ := handle_eq _ e
      rw [heq]
      exact ih
  | cycle _ ih => exact ih
  | takeCue _ hcue ih =>
      obtain ⟨cueFrames, rfl⟩ := takeCue_eq_ok hcue
      exact ih
  | render h ih =>
      obtain ⟨hworks, hsound, hupToDate⟩ := h.healthy hstart
      obtain ⟨rendering, frame, cueFrames, heq, -⟩ := render_eq hworks hsound hupToDate
      rw [heq]
      exact ih

theorem Reached.handleAll (h : Reached start a) (events : List Event) :
    Reached start (a.handleAll events) := by
  induction events generalizing a with
  | nil => exact h
  | cons e events ih => exact ih (h.handle e)

theorem Reached.update (h : Reached start a) : Reached start a.update.2.2 := by
  unfold Emulator.update
  split
  · exact h
  · split
    · exact h
    · rename_i n hn
      have hrun : Reached start { a with machine := (a.machine.run n).machine } :=
        Machine.run_induction (motive := fun m => Reached start { a with machine := m })
          (fun _ h => h.cycle) h n
      dsimp only
      split
      · exact hrun
      · split
        · exact hrun
        · rename_i hcue
          exact hrun.takeCue hcue

end Emulator

/-! ### Whole frames -/

namespace LoopRun

variable {ρ : Type} [RandomSource ρ] {start : Emulator ρ} {count : Nat}

/-- Runs frames up to the first that fails, whether or not the emulator was told to stop. -/
def play (r : LoopRun ρ) : List (List Event) → LoopRun ρ
  | [] => r
  | events :: more =>
    let r := r.nextFrame events
    if r.failure?.isSome then r else r.play more

/-- A play goes on behind a frame that does not fail. -/
theorem play_cons_of_fine {r : LoopRun ρ} {events : List Event} {more : List (List Event)}
    (h : (r.nextFrame events).failure? = none) :
    r.play (events :: more) = (r.nextFrame events).play more := by
  rw [play, h]
  rfl

/-- A loop that has stopped runs no more frames. -/
theorem through_of_goesOn_eq_false {r : LoopRun ρ} (h : r.goesOn = false)
    (frames : List (List Event)) : r.through frames = r := by
  cases frames with
  | nil => rfl
  | cons events more => rw [through, h, if_neg Bool.false_ne_true]

omit [RandomSource ρ] in
/-- A failure stops the loop. -/
theorem goesOn_of_isSome {r : LoopRun ρ} (h : r.failure?.isSome = true) : r.goesOn = false := by
  obtain ⟨failure, hfailure⟩ := Option.isSome_iff_exists.mp h
  rw [goesOn, hfailure]
  exact Bool.and_false _

/-- The main loop plays frames from the first on. -/
theorem exists_through_eq_play (r : LoopRun ρ) (frames : List (List Event))
    (h : r.failure? = none) : ∃ k, r.through frames = r.play (frames.take k) := by
  induction frames generalizing r with
  | nil => exact ⟨0, rfl⟩
  | cons events more ih =>
      rw [through]
      split
      · cases hfailure : (r.nextFrame events).failure? with
        | none =>
            obtain ⟨k, hk⟩ := ih (r.nextFrame events) hfailure
            refine ⟨k + 1, ?_⟩
            rw [List.take_succ_cons, play, hfailure, hk]
            rfl
        | some failure =>
            refine ⟨1, ?_⟩
            have hstops := goesOn_of_isSome (by rw [hfailure]; rfl)
            rw [through_of_goesOn_eq_false hstops, List.take_succ_cons, play, hfailure]
            rfl
      · exact ⟨0, rfl⟩

open Emulator (Reached)

/-- **A frame** ends with its update if that fails, and is shown otherwise, with the texts of its
rendering. -/
theorem nextFrame_cases (r : LoopRun ρ) (events : List Event) :
    let u := (r.emulator.handleAll events).update
    (∃ failure, u.2.1 = some failure ∧ (r.nextFrame events).emulator = u.2.2 ∧
      (r.nextFrame events).failure? = some failure) ∨
    u.2.1 = none ∧ (r.nextFrame events).emulator = u.2.2.render.2 ∧
      ∀ rendering, u.2.2.render.1 = .ok rendering →
        (r.nextFrame events).failure? = r.failure? ∧
          (r.nextFrame events).frames =
            r.frames.push ⟨u.2.2.render.2.settings.frameHz, rendering.texts⟩ := by
  unfold nextFrame
  rcases (r.emulator.handleAll events).update with ⟨notices, failure?, b⟩
  cases failure? with
  | some failure => exact .inl ⟨failure, rfl, rfl, rfl⟩
  | none =>
      dsimp only
      rcases b.render with ⟨result, b'⟩
      cases result with
      | error failure => exact .inr ⟨rfl, rfl, fun _ h => nomatch h⟩
      | ok rendering =>
          refine .inr ⟨rfl, rfl, fun shown h => ?_⟩
          cases h
          exact ⟨rfl, rfl⟩

/-- **A frame whose update does not fail** is shown, and beyond its update changes nothing but the
pictures, the draw flag and the notice of a beep. -/
theorem nextFrame_of_update {r : LoopRun ρ} {events : List Event} {b : Emulator ρ}
    (hhealthy : r.emulator.Healthy count)
    (hupdate : (r.emulator.handleAll events).update.2 = (none, b)) :
    ∃ frame cueFrames, (r.nextFrame events).failure? = r.failure? ∧
      (r.nextFrame events).emulator =
        { b with frame, machine := { b.machine with drawFlag := false }, cueFrames } := by
  have hreached : Reached r.emulator b := by
    have hbegins : Reached r.emulator r.emulator := .start
    have hafter := (hbegins.handleAll events).update
    rwa [hupdate] at hafter
  obtain ⟨hworks, hsound, hupToDate⟩ := hreached.healthy hhealthy
  obtain ⟨rendering, frame, cueFrames, hrender, -⟩ := Emulator.render_eq hworks hsound hupToDate
  rcases r.nextFrame_cases events with ⟨failure, hfailed, -, -⟩ | ⟨-, hb, hshown⟩
  · rw [hupdate] at hfailed
    cases hfailed
  · rw [hupdate] at hb hshown
    dsimp only at hb hshown
    rw [hrender] at hb hshown
    exact ⟨some frame, cueFrames, (hshown rendering rfl).1, hb⟩

theorem reached_nextFrame (r : LoopRun ρ) (events : List Event)
    (h : Reached start r.emulator) : Reached start (r.nextFrame events).emulator := by
  have hupdate := (h.handleAll events).update
  rcases r.nextFrame_cases events with ⟨failure, -, hb, -⟩ | ⟨-, hb, -⟩
  · rw [hb]
    exact hupdate
  · rw [hb]
    exact hupdate.render

/-- Plays of whole frames pass through states that come up. -/
theorem reached_play (r : LoopRun ρ) (batches : List (List Event))
    (h : Reached start r.emulator) : Reached start (r.play batches).emulator := by
  induction batches generalizing r with
  | nil => exact h
  | cons events more ih =>
      have hnext := reached_nextFrame r events h
      rw [play]
      split
      · exact hnext
      · exact ih _ hnext

/-- After a frame that does not fail, the pictures are those of the screen. -/
theorem shows_nextFrame (r : LoopRun ρ) (events : List Event) (h : Reached start r.emulator)
    (hstart : start.Healthy count) (hdone : (r.nextFrame events).failure? = none) :
    (r.nextFrame events).emulator.Shows := by
  rcases r.nextFrame_cases events with ⟨failure, -, -, hfailed⟩ | ⟨-, hb, -⟩
  · rw [hfailed] at hdone
    cases hdone
  · rw [hb]
    exact ((h.handleAll events).update.healthy hstart).render.2.2

theorem shows_play (r : LoopRun ρ) {batches : List (List Event)} (h : Reached start r.emulator)
    (hstart : start.Healthy count) (hsome : batches ≠ [])
    (hdone : (r.play batches).failure? = none) : (r.play batches).emulator.Shows := by
  induction batches generalizing r with
  | nil => exact absurd rfl hsome
  | cons events more ih =>
      rw [play] at hdone ⊢
      split at hdone
      · rename_i hfailed
        rw [hdone] at hfailed
        cases hfailed
      · rename_i hfine
        rw [if_neg hfine]
        by_cases hlast : more = []
        · subst hlast
          exact shows_nextFrame r events h hstart hdone
        · exact ih _ (reached_nextFrame r events h) hlast hdone

end LoopRun

namespace Emulator

variable {ρ : Type} [RandomSource ρ] {a : Emulator ρ}

/-- **The window never shows a stale picture.** An emulator is started on a steady display, around a
machine that can come up, with accepted settings whose scale, rates and reach of the glow are whole
numbers. In every state that comes up there are no pictures yet, or new ones are due, or they are
those of the screen; and from every such state a rendering succeeds, after which they are. Whole
frames, with whatever events, pass through such states only, and each that does not fail ends with
the pictures of its screen. -/
theorem never_shows_stale {display : Display} {machine : Machine ρ} {settings : Settings}
    {name : String} (hsteady : display.Steady) (hmachine : machine.Reachable)
    (haccepted : settings.Accepted) (hwhole : settings.Whole)
    (hstart : start display machine settings name = .ok a) :
    (∀ b, Reached a b →
      b.UpToDate ∧ (∃ rendering, b.render.1 = .ok rendering) ∧ b.render.2.Shows) ∧
    ∀ batches, Reached a (LoopRun.play { emulator := a } batches).emulator ∧
      (batches ≠ [] → (LoopRun.play { emulator := a } batches).failure? = none →
        (LoopRun.play { emulator := a } batches).emulator.Shows) := by
  obtain ⟨count, -, -, hworks⟩ := works_of_start hsteady haccepted hwhole hstart
  have hhealthy : a.Healthy count := healthy_of_start hmachine hworks hstart
  constructor
  · intro b hb
    have hrender := (hb.healthy hhealthy).render
    exact ⟨(hb.healthy hhealthy).upToDate, hrender.1, hrender.2.2⟩
  · intro batches
    exact ⟨LoopRun.reached_play _ batches .start,
      LoopRun.shows_play { emulator := a } .start hhealthy⟩

/-- Two frames of a cycle each, the first one paused and the second one not: the cycle runs in the
second. -/
theorem play_pausing {m' : Machine ρ} (hhealthy : a.Healthy 1) (hpaused : a.paused = false)
    (hflag : a.machine.drawFlag = false) (hcycle : a.machine.cycle = .done m') :
    let pause : Event := .keyDown (.char 'p')
    let first := LoopRun.play { emulator := a } [[pause]]
    let second := LoopRun.play { emulator := a } [[pause], [pause]]
    (first.failure? = none ∧ first.emulator.machine = a.machine) ∧
      second.failure? = none ∧ second.emulator.machine.screen = m'.screen := by
  intro pause first second
  have hhandle (b : Emulator ρ) : b.handleAll [pause] =
      { b with paused := !b.paused, status := if b.paused then .resumed else .paused } := rfl
  have hlowered : { a.machine with drawFlag := false } = a.machine := by rw [← hflag]
  let r : LoopRun ρ := { emulator := a }
  have hidle : (a.handleAll [pause]).update.2 = (none, a.handleAll [pause]) := by
    rw [update_of_paused (by rw [hhandle, hpaused]; rfl)]
  obtain ⟨frame, cueFrames, hfine₁, hfirst⟩ := LoopRun.nextFrame_of_update (r := r) hhealthy hidle
  have hhealthy₁ : (r.nextFrame [pause]).emulator.Healthy 1 :=
    (LoopRun.reached_nextFrame r [pause] .start).healthy hhealthy
  have hgoes : (r.nextFrame [pause]).emulator.handleAll [pause] =
      { a with frame, cueFrames, paused := false, status := .resumed } := by
    rw [hhandle, hfirst, hhandle, hpaused]
    dsimp only
    rw [hlowered]
    rfl
  have hrun : a.machine.run 1 = _ :=
    Machine.extend_succ_of_done (r := { machine := a.machine }) hcycle 0
  obtain ⟨n, hn⟩ := hhealthy.works.notice
  have hdraws := update_of_fault?_eq_none
    (a := { a with frame, cueFrames, paused := false, status := .resumed })
    (hhealthy.works.of_eq rfl rfl rfl) rfl hn (by rw [hrun]; rfl)
  obtain ⟨frame', cueFrames', hfine₂, hsecond⟩ :=
    LoopRun.nextFrame_of_update hhealthy₁ (by rw [hgoes, hdraws])
  have hplay₁ : first = r.nextFrame [pause] := LoopRun.play_cons_of_fine hfine₁
  have hplay₂ : second = (r.nextFrame [pause]).nextFrame [pause] :=
    (LoopRun.play_cons_of_fine hfine₁).trans (LoopRun.play_cons_of_fine (hfine₂.trans hfine₁))
  rw [hplay₁, hplay₂]
  refine ⟨⟨hfine₁, ?_⟩, hfine₂.trans hfine₁, ?_⟩
  · rw [hfirst]
    exact hlowered
  · rw [hsecond]
    dsimp only
    rw [hrun]
    rfl

/-- The program `D001`: it draws the upper edge of a zero. -/
def drawEdge : Array UInt8 := #[0xD0, 0x01]

/-- The machine that has the program in memory. -/
def beforeEdge : Machine CyclicNumbers :=
  { source := ⟨[0], [0]⟩, memory := Memory.initial.overlay programStart drawEdge }

/-- The program has left the font in its place. -/
theorem spriteAt_beforeEdge : beforeEdge.spriteAt 1 = [0xF0] := by
  let first : Fin memorySize := ⟨0, by decide⟩
  have hcell : beforeEdge.memory.cells[first] = 0xF0 := by
    show (Memory.initial.overlay programStart drawEdge).cells[first] = 0xF0
    rw [Memory.cells_overlay, if_neg (by decide), Memory.initial, Memory.cells_overlay,
      if_pos (by decide)]
    rfl
  have hbyte : beforeEdge.memory.byteAt first.val = 0xF0 := by
    rw [Memory.byteAt, Memory.read?_val, hcell]
    rfl
  show [((beforeEdge.memory.byteAt first.val).toNat : Int)] = [0xF0]
  rw [hbyte]
  rfl

/-- The drawing lights the upper left corner. -/
theorem cycle_beforeEdge :
    ∃ m', beforeEdge.cycle = .done m' ∧ m'.screen.isLit (0, 0) = true := by
  have hi : beforeEdge.instruction? = some (.draw 0 0 1) :=
    Machine.instruction?_of_program (k := 0) rfl rfl rfl (by decide) (by decide) rfl
  have hlit : (Screen.standard.paint (spriteCells 0 0 [0xF0])).1.isLit (0, 0) = true := by
    decide +kernel
  have hperform : ∃ m', beforeEdge.perform (.draw 0 0 1) = .done m' ∧
      m'.screen.isLit (0, 0) = true := by
    rw [Machine.perform_draw (by decide), if_pos (by decide),
      Screen.draw?_of_pos (by decide) (by decide),
      show beforeEdge.spriteAt ((1 : Fin 16) : Nat) = [0xF0] from spriteAt_beforeEdge]
    exact ⟨_, rfl, hlit⟩
  obtain ⟨m', hdone, hlit⟩ := hperform
  exact ⟨_, Machine.cycle_of_instruction? hi hdone, hlit⟩

/-- The first frame shows the blank screen, and the second one the edge that was drawn. -/
theorem never_shows_stale_drawing :
    let settings : Settings := { clockHz := .int 60 }
    let pause : Event := .keyDown (.char 'p')
    Display.desktop.Steady ∧ beforeEdge.Reachable ∧
      Settings.withOverrides {} [("clock_hz", .int 60)] = .ok settings ∧ settings.Whole ∧
      ∃ a, start .desktop beforeEdge settings "edge" = .ok a ∧
        let first := (LoopRun.play { emulator := a } [[pause]]).emulator
        let second := (LoopRun.play { emulator := a } [[pause], [pause]]).emulator
        (first.Shows ∧ first.machine.screen.isLit (0, 0) = false) ∧
          second.Shows ∧ second.machine.screen.isLit (0, 0) = true := by
  intro settings pause
  have hoverridden : Settings.withOverrides {} [("clock_hz", .int 60)] = .ok settings :=
    Settings.withOverrides_eq_ok_iff.mpr ⟨by decide, rfl⟩
  have haccepted : settings.Accepted := .inr ⟨_, _, hoverridden⟩
  have hwhole : settings.Whole := Settings.whole_of_rates 60 60
  have hmachine : beforeEdge.Reachable :=
    Machine.reachable_of_program (by decide) _ _ (by decide) (by decide)
  obtain ⟨a, hstart⟩ : ∃ a, start .desktop beforeEdge settings "edge" = .ok a :=
    exists_start _ _ _ _ (by decide)
  obtain ⟨⟨hm, -, hpaused, -⟩, -⟩ := of_start_eq_ok hstart
  have hworks : a.Works 1 := works_of_cyclesPerFrame steady_desktop haccepted hwhole hstart rfl
  obtain ⟨m', hcycle, hlit⟩ := cycle_beforeEdge
  obtain ⟨⟨hfine₁, hfirst⟩, hfine₂, hsecond⟩ := play_pausing
    (healthy_of_start hmachine hworks hstart) hpaused (by rw [hm]; rfl) (by rw [hm]; exact hcycle)
  obtain ⟨-, hplay⟩ := never_shows_stale steady_desktop hmachine haccepted hwhole hstart
  refine ⟨steady_desktop, hmachine, hoverridden, hwhole, a, hstart,
    ⟨(hplay [[pause]]).2 (by simp) hfine₁, ?_⟩,
    (hplay [[pause], [pause]]).2 (by simp) hfine₂, by rw [hsecond]; exact hlit⟩
  rw [hfirst, hm]
  show Screen.standard.isLit (0, 0) = false
  decide +kernel

end Emulator

end Chip8
