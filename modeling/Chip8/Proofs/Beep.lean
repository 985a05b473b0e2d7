import Chip8.Proofs.Frames
import Chip8.Proofs.Overrides
import Chip8.Proofs.Timers

/-!
# Chip8.Proofs.Beep

What a frame shows of a beep.

The cue sounds in a cycle, and the machine's flag remembers it (`cueFlag_run_iff`). The update that
ran the cycle lowers the flag and sets the length of the notice, and the status line of the same
frame says that there was a beep if the length is positive. The length is a quarter of the frame
rate rounded down, so at less than four frames per second it is nothing, and the notice is never
shown (`cue_shown_iff`).
-/

namespace Chip8

open Json (Value Number)

/-! ### The flag of the cue -/

namespace Machine

variable {ρ : Type} [RandomSource ρ] {m m' : Machine ρ}

theorem cueCount_pos_iff : 0 < m.cueCount ↔ ∃ notice ∈ m.observe.1, notice.isCue = true :=
  List.countP_pos_iff

/-- A cycle that faults does not get to the cue. -/
theorem cueCount_of_stopped {fault : Fault} (h : m.cycle = .stopped fault m') :
    m.cueCount = 0 ∧ m'.cueFlag = m.cueFlag := by
  have hact := cycle_eq_stopped_iff.mp h
  constructor
  · rw [cueCount, observe, hact]
    exact countP_actNotices m
  · have hkept : m.Keeps m.act.state .cueFlag :=
      keeps_act m (by decide) fun i _ => i.cueFlag_notMem_footprint
    rwa [hact] at hkept

/-- **The cue flag is up after a cycle** if it was up before or the cue sounded. -/
theorem cueFlag_cycle_iff (m : Machine ρ) :
    m.cycle.state.cueFlag = true ↔
      m.cueFlag = true ∨ ∃ notice ∈ m.observe.1, notice.isCue = true := by
  rw [← cueCount_pos_iff]
  cases hcycle : m.cycle with
  | done m' =>
      have hcue := cueIff_cycle hcycle
      rw [Outcome.state_done]
      by_cases hone : m.act.state.sound = 1
      · obtain ⟨hcount, hflag⟩ := hcue.sounds hone
        simp [hcount, hflag]
      · obtain ⟨hcount, hflag⟩ := hcue.silent hone
        simp [hcount, hflag]
  | stopped fault m' =>
      obtain ⟨hcount, hflag⟩ := cueCount_of_stopped hcycle
      simp [hcount, hflag]

/-- What a cycle says of the flag, a run of several says. -/
theorem cueFlag_run_iff (m : Machine ρ) (n : Nat) :
    (m.run n).machine.cueFlag = true ↔
      m.cueFlag = true ∨ ∃ notice ∈ (m.run n).notices, notice.isCue = true := by
  have hextend (r : Run ρ)
      (h : r.machine.cueFlag = true ↔
        m.cueFlag = true ∨ ∃ notice ∈ r.notices, notice.isCue = true) :
      (r.extend n).machine.cueFlag = true ↔
        m.cueFlag = true ∨ ∃ notice ∈ (r.extend n).notices, notice.isCue = true := by
    -- What is shown of the run so far is kept by one more cycle, whether or not it completes.
    induction n generalizing r with
    | zero => exact h
    | succ n ih =>
        have hstep : r.machine.cycle.state.cueFlag = true ↔ m.cueFlag = true ∨
            ∃ notice ∈ r.notices ++ r.machine.observe.1, notice.isCue = true := by
          have hmem (notice : Notice) : notice ∈ r.notices ++ r.machine.observe.1 ↔
              notice ∈ r.notices ∨ notice ∈ r.machine.observe.1 := by
            simp only [← Array.mem_toList_iff, Array.toList_appendList, List.mem_append]
          simp only [cueFlag_cycle_iff, h, hmem, or_and_right, exists_or, or_assoc]
        cases hcycle : r.machine.cycle with
        | done m' =>
            rw [hcycle, Outcome.state_done] at hstep
            rw [extend_succ_of_done hcycle]
            exact ih _ hstep
        | stopped fault m' =>
            rw [hcycle, Outcome.state_stopped] at hstep
            rw [extend_succ_of_stopped hcycle]
            exact hstep
  exact hextend { machine := m } (by simp)

theorem run_two_of_done {m₁ m₂ : Machine ρ} (h₁ : m.cycle = .done m₁) (h₂ : m₁.cycle = .done m₂) :
    (m.run 2).machine = m₂ ∧ (m.run 2).fault? = none := by
  have hfirst := extend_succ_of_done (r := { machine := m }) h₁ 1
  rw [run, hfirst, extend_succ_of_done h₂]
  exact ⟨rfl, rfl⟩

/-- The program `6001`, `F018`: the cue sounds in its second cycle. -/
def beepSoon : Array UInt8 := #[0x60, 0x01, 0xF0, 0x18]

/-- The machine that has the program in memory. -/
def beforeBeepSoon : Machine CyclicNumbers :=
  { source := ⟨[0], [0]⟩, memory := Memory.initial.overlay programStart beepSoon }

theorem reachable_beforeBeepSoon : beforeBeepSoon.Reachable :=
  reachable_of_program (by decide) _ _ (by decide) (by decide)

/-- Two cycles complete and leave the flag up. -/
theorem run_beforeBeepSoon :
    (beforeBeepSoon.run 2).fault? = none ∧ (beforeBeepSoon.run 2).machine.cueFlag = true := by
  have hfirst : beforeBeepSoon.instruction? = some (.loadByte 0 1) :=
    instruction?_of_program (k := 0) rfl rfl rfl (by decide) (by decide) rfl
  have hcycle₁ : beforeBeepSoon.cycle = .done (beforeBeepSoon.setV 0 1).next.tick :=
    cycle_of_instruction? hfirst rfl
  have hsecond : (beforeBeepSoon.setV 0 1).next.tick.instruction? = some (.setSound 0) :=
    instruction?_of_program (k := 2) rfl rfl rfl (by decide) (by decide) rfl
  have hcycle₂ : (beforeBeepSoon.setV 0 1).next.tick.cycle =
      .done (Machine.next { (beforeBeepSoon.setV 0 1).next.tick with sound := 1 }).tick :=
    cycle_of_instruction? hsecond rfl
  obtain ⟨hmachine, hfault⟩ := run_two_of_done hcycle₁ hcycle₂
  rw [hmachine]
  exact ⟨hfault, rfl⟩

end Machine

/-! ### The status line -/

/-- The text says that there was a beep. -/
def TellsCue (text : String) : Prop := ∃ rest, text = "*** BEEP ***" ++ rest

theorem Status.not_tellsCue (s : Status) (rest : String) : ¬TellsCue (s.text ++ rest) := by
  intro htells
  obtain ⟨rest', h⟩ := htells
  have htext := congrArg String.toList h
  rw [String.toList_append, String.toList_append] at htext
  cases s <;> simp [Status.text] at htext

namespace Emulator

variable {ρ : Type} {a b : Emulator ρ}

theorem text_statusLine (a : Emulator ρ) :
    a.statusLine.1.text = (if a.cueFrames.isPositive then cueText else a.status.text) ++
      if a.machine.isWaiting then " | waiting for key" else "" := by
  unfold statusLine
  cases a.cueFrames.isPositive <;> cases hwaits : a.machine.isWaiting <;> simp [hwaits]

/-- **The status line tells of a beep** as long as there are frames of its notice left. -/
theorem tellsCue_statusLine_iff (a : Emulator ρ) :
    TellsCue a.statusLine.1.text ↔ a.cueFrames.isPositive = true := by
  rw [text_statusLine]
  cases a.cueFrames.isPositive with
  | true => exact iff_of_true ⟨_, rfl⟩ rfl
  | false => exact iff_of_false (a.status.not_tellsCue _) Bool.false_ne_true

/-- Pictures have no part in the notice of a beep. -/
theorem cueFrames_of_refresh {redrawn : Bool} (h : a.refresh = .ok (redrawn, b)) :
    b.cueFrames = a.cueFrames := by
  obtain ⟨frame, drawFlag, rfl⟩ := refresh_eq_ok h
  rfl

/-- **The last text of a rendering** is the status line. -/
theorem exists_getLast?_texts {rendering : Rendering} (h : a.render = (.ok rendering, b)) :
    ∃ line, rendering.texts.getLast? = some line ∧
      (TellsCue line.text ↔ a.cueFrames.isPositive = true) := by
  obtain ⟨redrawn, c, texts, hrefresh, rfl, -⟩ := render_eq_ok h
  refine ⟨c.statusLine.1, List.getLast?_concat, ?_⟩
  rw [tellsCue_statusLine_iff, cueFrames_of_refresh hrefresh]

/-! ### Frames -/

/-- The length of a notice is a quarter of the frame rate, rounded down. -/
theorem cueLength_eq {settings : Settings} {rate : Int}
    (h : settings.frameHz.int? = some rate) : cueLength settings = .ok (.int (rate / 4)) := by
  rw [cueLength, Value.floorDiv, Value.number?_of_int? h]
  exact congrArg _ (congrArg _ (Int.fdiv_eq_ediv_of_nonneg _ (by decide)))

variable [RandomSource ρ]

/-- An update without cycles sounds no cue. -/
theorem not_paused_of_cue (h : ∃ notice ∈ a.update.1, notice.isCue = true) : a.paused = false := by
  cases hpaused : a.paused with
  | false => rfl
  | true =>
      rw [update_of_paused hpaused] at h
      simp at h

/-- **After an update in which the cue sounded** and nothing failed, its notice has its full
length. -/
theorem cueFrames_update {count : Nat} {rate : Int} (hworks : a.Works count)
    (hrate : a.settings.frameHz.int? = some rate) (hfine : a.update.2.1 = none)
    (hcue : ∃ notice ∈ a.update.1, notice.isCue = true) :
    a.update.2.2.cueFrames = .int (rate / 4) := by
  have hpaused := not_paused_of_cue hcue
  obtain ⟨cueFlag, cueFrames, hupdate⟩ := update_of_not_paused hworks hpaused
  rw [hupdate] at hcue hfine
  have hflag : (a.machine.run count).machine.cueFlag = true :=
    (a.machine.cueFlag_run_iff count).mpr (.inr hcue)
  have hfault : (a.machine.run count).fault? = none := Option.map_eq_none_iff.mp hfine
  rw [update_of_fault?_eq_none hworks hpaused (cueLength_eq hrate) hfault]
  exact if_pos hflag

/-- **A beep is seen exactly at four or more frames per second.** An emulator is started on a steady
display, around a machine that can come up, with accepted settings whose scale, rates and reach of
the glow are whole numbers, and has completed frames with whatever events. If the cue sounds in the
update of the next frame and the update does not fail, the frame completes, and its last text, the
status line, tells of the beep if and only if the frame rate is four at least. -/
theorem cue_shown_iff {display : Display} {machine : Machine ρ} {settings : Settings}
    {name : String} {rate : Int} (hsteady : display.Steady) (hmachine : machine.Reachable)
    (haccepted : settings.Accepted) (hwhole : settings.Whole)
    (hstart : start display machine settings name = .ok a)
    (hrate : settings.frameHz.int? = some rate) (batches : List (List Event))
    (events : List Event) :
    let r := LoopRun.play { emulator := a } batches
    let update := (r.emulator.handleAll events).update
    r.failure? = none → update.2.1 = none → (∃ notice ∈ update.1, notice.isCue = true) →
      ∃ report line, (r.nextFrame events).failure? = none ∧
        (r.nextFrame events).frames = r.frames.push report ∧
        report.texts.getLast? = some line ∧ (TellsCue line.text ↔ 4 ≤ rate) := by
  intro r update hfailure hupdate hcue
  obtain ⟨count, -, -, hworks⟩ := works_of_start hsteady haccepted hwhole hstart
  have hhealthy : a.Healthy count := healthy_of_start hmachine hworks hstart
  have hreached : Reached a (r.emulator.handleAll events) :=
    (LoopRun.reached_play { emulator := a } batches .start).handleAll events
  have hsettings : (r.emulator.handleAll events).settings = settings :=
    (hreached.settings_eq hhealthy).trans (of_start_eq_ok hstart).1.2.1
  obtain ⟨rendering, frame, cueFrames, hrender, -⟩ :=
    render_eq (hreached.update.healthy hhealthy).works (hreached.update.healthy hhealthy).sound
      (hreached.update.healthy hhealthy).upToDate
  obtain ⟨line, hline, htells⟩ := exists_getLast?_texts hrender
  -- The notice has its full length when it is shown, since nothing comes between.
  have hlength := cueFrames_update (hreached.healthy hhealthy).works
    (by rw [hsettings]; exact hrate) hupdate hcue
  have hseen : TellsCue line.text ↔ 4 ≤ rate := by
    rw [htells, hlength]
    simp only [Number.isPositive, decide_eq_true_eq]
    omega
  rcases r.nextFrame_cases events with ⟨failure, hfailed, -, -⟩ | ⟨-, -, hshown⟩
  · cases hfailed.symm.trans hupdate
  · obtain ⟨hdone, hframes⟩ := hshown rendering (congrArg Prod.fst hrender)
    exact ⟨_, line, hdone.trans hfailure, hframes, hline, hseen⟩

/-- An update of two cycles completes the program that beeps, and the cue sounds in it. -/
theorem update_beforeBeepSoon {a : Emulator CyclicNumbers}
    (hmachine : a.machine = Machine.beforeBeepSoon) (hworks : a.Works 2)
    (hpaused : a.paused = false) :
    a.update.2.1 = none ∧ ∃ notice ∈ a.update.1, notice.isCue = true := by
  obtain ⟨hfault, hflag⟩ := Machine.run_beforeBeepSoon
  obtain ⟨n, hn⟩ := hworks.notice
  have hupdate := update_of_fault?_eq_none hworks hpaused hn (by rw [hmachine]; exact hfault)
  rw [hupdate]
  refine ⟨rfl, ?_⟩
  rcases (Machine.beforeBeepSoon.cueFlag_run_iff 2).mp hflag with hbefore | hnotice
  · cases hbefore
  · rwa [← hmachine] at hnotice

/-- At three frames per second the beep of the first frame is not shown in it. -/
theorem cue_not_shown_at_three :
    let settings : Settings := { clockHz := .int 6, frameHz := .int 3 }
    Settings.withOverrides {} [("clock_hz", .int 6), ("frame_hz", .int 3)] = .ok settings ∧
      ∃ a, start .desktop Machine.beforeBeepSoon settings "beep" = .ok a ∧
        (∃ notice ∈ a.update.1, notice.isCue = true) ∧
        ∃ report line, (LoopRun.nextFrame { emulator := a } []).frames = #[report] ∧
          report.texts.getLast? = some line ∧ ¬TellsCue line.text := by
  intro settings
  have haccepted : Settings.withOverrides {} [("clock_hz", .int 6), ("frame_hz", .int 3)] =
      .ok settings := Settings.withOverrides_eq_ok_iff.mpr ⟨by decide, rfl⟩
  have hwhole : settings.Whole := Settings.whole_of_rates 6 3
  obtain ⟨a, hstart⟩ : ∃ a, start .desktop Machine.beforeBeepSoon settings "beep" = .ok a :=
    exists_start _ _ _ _ (by decide)
  obtain ⟨⟨hmachine, -, hpaused, -⟩, -⟩ := of_start_eq_ok hstart
  have hworks : a.Works 2 :=
    works_of_cyclesPerFrame steady_desktop (.inr ⟨_, _, haccepted⟩) hwhole hstart rfl
  obtain ⟨hfine, hcue⟩ := update_beforeBeepSoon hmachine hworks hpaused
  have hrate : settings.frameHz.int? = some 3 := rfl
  obtain ⟨report, line, -, hframes, hline, htells⟩ :=
    cue_shown_iff steady_desktop Machine.reachable_beforeBeepSoon (.inr ⟨_, _, haccepted⟩) hwhole
      hstart hrate [] [] rfl hfine hcue
  refine ⟨haccepted, a, hstart, hcue, report, line, hframes, hline, fun hshown => ?_⟩
  exact absurd (htells.mp hshown) (by decide)

end Emulator

end Chip8
