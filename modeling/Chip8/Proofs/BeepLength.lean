import Chip8.Proofs.Beep
import Chip8.Proofs.Events

/-!
# Chip8.Proofs.BeepLength

How long a beep is shown.

The notice of a beep is a number of frames that are left. An update in which the cue sounded sets it
to its full length, whatever was left, and every frame that shows it takes one away. What the number
means is said by the frames to come: those within reach of a cue that has sounded are the next ones,
as many as the number says (`Reaches`). The step from one frame to the next keeps this
(`Reaches.succ`), so a status line tells of a beep exactly if one sounded within the last frames,
pauses or not (`beep_shown_while_recent`).
-/

namespace Chip8

open Json (Number)

/-! ### Counting down -/

/-- If the cue sounded in some of the frames before frame `n`, and is shown for `q` frames each
time, it is shown in `left` more frames. -/
def Reaches (sounds : Nat → Prop) (q n left : Nat) : Prop :=
  ∀ d, d < left ↔ ∃ g, g < n ∧ sounds g ∧ n + d < g + q

namespace Reaches

variable {sounds : Nat → Prop} {q n left shown : Nat}

theorem zero : Reaches sounds q 0 0 := by
  intro d
  simp

/-- With a cue in frame `n` itself, its notice begins anew. -/
theorem lt_shown_iff (h : Reaches sounds q n left) (hsounds : sounds n → shown = q)
    (hsilent : ¬sounds n → shown = left) (d : Nat) :
    d < shown ↔ ∃ g, g < n + 1 ∧ sounds g ∧ n + d < g + q := by
  by_cases hn : sounds n
  · rw [hsounds hn]
    constructor
    · intro hd
      exact ⟨n, Nat.lt_succ_self n, hn, Nat.add_lt_add_left hd n⟩
    · rintro ⟨g, hg, -, hlt⟩
      omega
  · rw [hsilent hn, h d]
    constructor
    · rintro ⟨g, hg, hsound, hlt⟩
      exact ⟨g, Nat.lt_succ_of_lt hg, hsound, hlt⟩
    · rintro ⟨g, hg, hsound, hlt⟩
      have hne : g ≠ n := by
        rintro rfl
        exact hn hsound
      exact ⟨g, Nat.lt_of_le_of_ne (Nat.le_of_lt_succ hg) hne, hsound, hlt⟩

/-- A frame that shows the notice takes one away. -/
theorem succ (h : Reaches sounds q n left) (hsounds : sounds n → shown = q)
    (hsilent : ¬sounds n → shown = left) : Reaches sounds q (n + 1) (shown - 1) := by
  intro d
  rw [Nat.lt_sub_iff_add_lt, h.lt_shown_iff hsounds hsilent]
  simp only [Nat.add_assoc, Nat.add_comm 1]

end Reaches

namespace Emulator

variable {ρ : Type} {a b : Emulator ρ}

/-! ### One frame -/

theorem cueFrames_statusLine (a : Emulator ρ) :
    a.statusLine.2.cueFrames =
      if a.cueFrames.isPositive then a.cueFrames.pred else a.cueFrames := by
  unfold statusLine
  cases a.cueFrames.isPositive <;> rfl

theorem cueFrames_of_render {rendering : Rendering} (h : a.render = (.ok rendering, b)) :
    b.cueFrames = if a.cueFrames.isPositive then a.cueFrames.pred else a.cueFrames := by
  obtain ⟨redrawn, c, texts, hrefresh, -, rfl⟩ := render_eq_ok h
  rw [← cueFrames_of_refresh hrefresh]
  exact cueFrames_statusLine c

/-- **A rendering** tells of a beep if there are frames of its notice left, and leaves one less. -/
theorem shown_of_render {shown : Nat} (hshown : a.cueFrames = .int shown) {rendering : Rendering}
    (h : a.render = (.ok rendering, b)) :
    b.cueFrames = .int (shown - 1 : Nat) ∧
      ∃ line, rendering.texts.getLast? = some line ∧ (TellsCue line.text ↔ 0 < shown) := by
  have hpositive : a.cueFrames.isPositive = true ↔ 0 < shown := by
    rw [hshown, Number.isPositive, decide_eq_true_eq, Int.natCast_pos]
  obtain ⟨line, hline, htells⟩ := exists_getLast?_texts h
  refine ⟨?_, line, hline, htells.trans hpositive⟩
  rw [cueFrames_of_render h]
  cases shown with
  | zero =>
      rw [if_neg (mt hpositive.mp (Nat.lt_irrefl 0))]
      exact hshown
  | succ n =>
      rw [if_pos (hpositive.mpr (Nat.succ_pos n)), hshown]
      simp [Number.pred]

/-- Events have no part in the notice of a beep. -/
theorem handleAll_keeps (a : Emulator ρ) (events : List Event) :
    (a.handleAll events).settings = a.settings ∧
      (a.handleAll events).machine.cueFlag = a.machine.cueFlag ∧
      (a.handleAll events).cueFrames = a.cueFrames := by
  have hrest := a.handleAll_rest events
  dsimp only at hrest
  rw [hrest]
  exact ⟨rfl, rfl, rfl⟩

variable [RandomSource ρ]

/-- The cue sounds in the next update. -/
def Sounds (a : Emulator ρ) : Prop := ∃ notice ∈ a.update.1, notice.isCue = true

/-- An update lowers the flag of the cue, and the notice is as long as before if the cue has not
sounded. -/
theorem update_of_cueFlag_eq_false {count : Nat} {rate : Int} (hworks : a.Works count)
    (hrate : a.settings.frameHz.int? = some rate) (hfine : a.update.2.1 = none)
    (hquiet : a.machine.cueFlag = false) :
    a.update.2.2.machine.cueFlag = false ∧ (¬a.Sounds → a.update.2.2.cueFrames = a.cueFrames) := by
  cases hpaused : a.paused with
  | true =>
      rw [update_of_paused hpaused]
      exact ⟨hquiet, fun _ => rfl⟩
  | false =>
      obtain ⟨cueFlag, cueFrames, hupdate⟩ := update_of_not_paused hworks hpaused
      have hfault : (a.machine.run count).fault? = none := by
        rw [hupdate] at hfine
        exact Option.map_eq_none_iff.mp hfine
      have hflag := a.machine.cueFlag_run_iff count
      have hrun := update_of_fault?_eq_none hworks hpaused (cueLength_eq hrate) hfault
      refine ⟨by rw [hrun], fun hsilent => ?_⟩
      have hdown : ¬(a.machine.run count).machine.cueFlag = true := by
        rw [hflag, hquiet]
        rintro (hup | hsounds)
        · cases hup
        · exact hsilent (by rw [Sounds, hrun]; exact hsounds)
      rw [hrun]
      exact if_neg hdown

end Emulator

namespace LoopRun

variable {ρ : Type} [RandomSource ρ] {r : LoopRun ρ} {count : Nat} {rate : Int}

/-- **A frame that completes** tells of a beep if there are frames of its notice left, counting from
the full length if the cue has sounded in its update, and leaves one less. -/
theorem nextFrame_shown (hhealthy : r.emulator.Healthy count)
    (hrate : r.emulator.settings.frameHz.int? = some rate) (hpos : 0 ≤ rate)
    (hquiet : r.emulator.machine.cueFlag = false) {left : Nat}
    (hleft : r.emulator.cueFrames = .int left) {events : List Event}
    (hfine : (r.nextFrame events).failure? = none) :
    ∃ shown : Nat,
      ((r.emulator.handleAll events).Sounds → shown = (rate / 4).toNat) ∧
      (¬(r.emulator.handleAll events).Sounds → shown = left) ∧
      (r.nextFrame events).emulator.cueFrames = .int (shown - 1 : Nat) ∧
      (r.nextFrame events).emulator.machine.cueFlag = false ∧
      ∃ report line, (r.nextFrame events).frames = r.frames.push report ∧
        report.texts.getLast? = some line ∧ (TellsCue line.text ↔ 0 < shown) := by
  have hreached : Emulator.Reached r.emulator (r.emulator.handleAll events) :=
    Emulator.Reached.start.handleAll events
  obtain ⟨hsettings, hflag, hframes⟩ := r.emulator.handleAll_keeps events
  have hcases := r.nextFrame_cases events
  generalize r.emulator.handleAll events = b at hreached hsettings hflag hframes hcases
  have hhealth := hreached.healthy hhealthy
  have hafter := hreached.update.healthy hhealthy
  rw [← hsettings] at hrate
  rcases hcases with ⟨failure, -, -, hfailed⟩ | ⟨hdone, hb, hpush⟩
  · rw [hfailed] at hfine
    cases hfine
  · obtain ⟨hdown, hsilent⟩ :=
      Emulator.update_of_cueFlag_eq_false hhealth.works hrate hdone (hflag.trans hquiet)
    obtain ⟨shown, hfull, hsame, hshown⟩ : ∃ shown : Nat, (b.Sounds → shown = (rate / 4).toNat) ∧
        (¬b.Sounds → shown = left) ∧ b.update.2.2.cueFrames = .int shown := by
      by_cases hsounds : b.Sounds
      · refine ⟨(rate / 4).toNat, fun _ => rfl, fun h => absurd hsounds h, ?_⟩
        rw [Int.toNat_of_nonneg (Int.ediv_nonneg hpos (by decide))]
        exact Emulator.cueFrames_update hhealth.works hrate hdone hsounds
      · refine ⟨left, fun h => absurd h hsounds, fun _ => rfl, ?_⟩
        rw [hsilent hsounds, hframes, hleft]
    obtain ⟨rendering, frame, cueFrames, hrender, -⟩ :=
      Emulator.render_eq hafter.works hafter.sound hafter.upToDate
    obtain ⟨hcue, line, hline, htells⟩ := Emulator.shown_of_render hshown hrender
    obtain ⟨-, hframe⟩ := hpush rendering (congrArg Prod.fst hrender)
    refine ⟨shown, hfull, hsame, ?_, ?_, _, line, hframe, hline, htells⟩
    · rw [hb, hrender]
      exact hcue
    · rw [hb, hrender]
      exact hdown

/-! ### Plays -/

/-- A play that has not failed before its last frame ends with that frame. -/
theorem play_concat (r : LoopRun ρ) (hr : r.failure? = none) (batches : List (List Event))
    (events : List Event) (h : (r.play (batches ++ [events])).failure? = none) :
    (r.play batches).failure? = none ∧
      r.play (batches ++ [events]) = (r.play batches).nextFrame events := by
  induction batches generalizing r with
  | nil =>
      refine ⟨hr, ?_⟩
      simp only [List.nil_append, play, ite_self]
  | cons first batches ih =>
      rw [List.cons_append, play] at h ⊢
      rw [play]
      cases hfirst : (r.nextFrame first).failure? with
      | some failure => simp [hfirst] at h
      | none =>
          simp only [hfirst, Option.isSome_none, Bool.false_eq_true, if_false] at h ⊢
          exact ih _ hfirst h

/-- The cue sounds in the update of frame `g` of a play. -/
def SoundsIn (r : LoopRun ρ) (batches : List (List Event)) (g : Nat) : Prop :=
  ∃ events, batches[g]? = some events ∧
    ((r.play (batches.take g)).emulator.handleAll events).Sounds

/-- What a play of `n` frames has shown of beeps, and what is left to show. -/
structure ShowsBeeps (r : LoopRun ρ) (sounds : Nat → Prop) (q n : Nat) : Prop where
  quiet : r.emulator.machine.cueFlag = false
  left : ∃ left : Nat, r.emulator.cueFrames = .int left ∧ left ≤ q ∧ Reaches sounds q n left
  size : r.frames.size = n
  tells (f : Nat) (report : FrameReport) (h : r.frames[f]? = some report) :
    ∃ line, report.texts.getLast? = some line ∧
      (TellsCue line.text ↔ ∃ g, g < f + 1 ∧ sounds g ∧ f < g + q)

/-- **What a frame keeps:** one more is shown as it should be. -/
theorem ShowsBeeps.nextFrame {sounds : Nat → Prop} {n : Nat} {events : List Event}
    (h : r.ShowsBeeps sounds (rate / 4).toNat n) (hhealthy : r.emulator.Healthy count)
    (hrate : r.emulator.settings.frameHz.int? = some rate) (hpos : 0 ≤ rate)
    (hsounds : sounds n ↔ (r.emulator.handleAll events).Sounds)
    (hfine : (r.nextFrame events).failure? = none) :
    (r.nextFrame events).ShowsBeeps sounds (rate / 4).toNat (n + 1) := by
  obtain ⟨left, hleft, hle, hreaches⟩ := h.left
  obtain ⟨shown, hfull, hsame, hcue, hflag, report, line, hframes, hline, htells⟩ :=
    nextFrame_shown hhealthy hrate hpos h.quiet hleft hfine
  rw [← hsounds] at hfull hsame
  constructor
  case quiet => exact hflag
  case left =>
    refine ⟨shown - 1, hcue, ?_, hreaches.succ hfull hsame⟩
    by_cases hn : sounds n
    · rw [hfull hn]
      exact Nat.sub_le _ 1
    · rw [hsame hn]
      exact Nat.le_trans (Nat.sub_le _ 1) hle
  case size => rw [hframes, Array.size_push, h.size]
  case tells =>
    intro f report' hf
    rw [hframes, Array.getElem?_push, h.size] at hf
    split at hf
    · rename_i hlast
      subst hlast
      cases hf
      refine ⟨line, hline, htells.trans ?_⟩
      exact hreaches.lt_shown_iff hfull hsame 0
    · exact h.tells f report' hf

/-- What each frame keeps, a play keeps. -/
theorem showsBeeps_play {a : Emulator ρ} (hhealthy : a.Healthy count)
    (hrate : a.settings.frameHz.int? = some rate) (hpos : 0 ≤ rate)
    (hquiet : a.machine.cueFlag = false) (hnone : a.cueFrames = .int 0)
    (batches : List (List Event))
    (hfine : (LoopRun.play { emulator := a } batches).failure? = none) :
    (LoopRun.play { emulator := a } batches).ShowsBeeps (SoundsIn { emulator := a } batches)
      (rate / 4).toNat batches.length := by
  -- The frames are counted through the play, so that all of it says which of them sounded.
  have hprefix (n : Nat) (hn : n ≤ batches.length)
      (h : (LoopRun.play { emulator := a } (batches.take n)).failure? = none) :
      (LoopRun.play { emulator := a } (batches.take n)).ShowsBeeps
        (SoundsIn { emulator := a } batches) (rate / 4).toNat n := by
    induction n with
    | zero =>
        refine ⟨hquiet, ⟨0, hnone, Nat.zero_le _, Reaches.zero⟩, rfl, fun f report hf => ?_⟩
        simp [play] at hf
    | succ n ih =>
        obtain ⟨events, hevents⟩ : ∃ events, batches[n]? = some events :=
          ⟨_, List.getElem?_eq_getElem hn⟩
        have htake : batches.take (n + 1) = batches.take n ++ [events] := by
          rw [List.take_add_one, hevents]
          rfl
        rw [htake] at h ⊢
        obtain ⟨hbefore, hplay⟩ := play_concat { emulator := a } rfl (batches.take n) events h
        have hreached : Emulator.Reached a (LoopRun.play { emulator := a }
            (batches.take n)).emulator := reached_play _ _ .start
        rw [hplay] at h ⊢
        have hshows := ih (Nat.le_of_succ_le hn) hbefore
        refine hshows.nextFrame (hreached.healthy hhealthy) ?_ hpos ?_ h
        · rw [hreached.settings_eq hhealthy]
          exact hrate
        · simp [SoundsIn, hevents]
  have hall := hprefix batches.length (Nat.le_refl _)
  rw [List.take_length] at hall
  exact hall hfine

/-- A frame of a paused emulator completes. -/
theorem nextFrame_of_paused (hhealthy : r.emulator.Healthy count) (hr : r.failure? = none)
    (events : List Event) (hpaused : (r.emulator.handleAll events).paused = true) :
    (r.nextFrame events).failure? = none ∧ (r.nextFrame events).emulator.paused = true := by
  obtain ⟨-, hfailure, hstill⟩ :=
    nextFrame_eq hhealthy hr (Eq.refl (r.emulator.handleAll events)) rfl
  rw [hpaused] at hfailure hstill
  exact ⟨hfailure, hstill⟩

end LoopRun

namespace Emulator

variable {ρ : Type} {a : Emulator ρ}

/-- An emulator starts without a beep to tell of. -/
theorem cueFrames_of_start {display : Display} {machine : Machine ρ} {settings : Settings}
    {name : String} (h : start display machine settings name = .ok a) : a.cueFrames = .int 0 := by
  obtain ⟨renderer, background, window, rfl, -⟩ := start_eq_ok h
  rfl

variable [RandomSource ρ]

/-- **A beep is told of for a quarter of a second's frames.** An emulator is started on a steady
display, around a machine that can come up and has no beep pending, with accepted settings whose
scale, rates and reach of the glow are whole numbers, and frames with any events are completed. The
status line of a frame tells of a beep if and only if the cue sounded in the update of that frame or
of one before it, less than a quarter of the frame rate ago, rounded down. Paused frames count,
though their updates do nothing. After the frames the flag of the cue is down, and no more of a
notice is left than its full length. -/
theorem beep_shown_while_recent {display : Display} {machine : Machine ρ} {settings : Settings}
    {name : String} {rate : Int} (hsteady : display.Steady) (hmachine : machine.Reachable)
    (hquiet : machine.cueFlag = false) (haccepted : settings.Accepted) (hwhole : settings.Whole)
    (hstart : start display machine settings name = .ok a)
    (hrate : settings.frameHz.int? = some rate) (batches : List (List Event)) :
    let r := LoopRun.play { emulator := a } batches
    r.failure? = none →
      r.frames.size = batches.length ∧
      (∀ (f : Nat) (report : FrameReport), r.frames[f]? = some report →
        ∃ line, report.texts.getLast? = some line ∧
          (TellsCue line.text ↔ ∃ g : Nat, g ≤ f ∧ (f : Int) - g < rate / 4 ∧
            LoopRun.SoundsIn { emulator := a } batches g)) ∧
      (∀ b : Emulator ρ, b.paused = true → b.update = (#[], none, b)) ∧
      r.emulator.machine.cueFlag = false ∧
      ∃ left : Int, r.emulator.cueFrames = .int left ∧ 0 ≤ left ∧ left ≤ rate / 4 := by
  intro r hfine
  obtain ⟨count, -, -, hworks⟩ := works_of_start hsteady haccepted hwhole hstart
  obtain ⟨⟨hm, hsettings, -, -⟩, -⟩ := of_start_eq_ok hstart
  have hpos : 1 ≤ rate := haccepted.one_le (by simp [Settings.speeds]) hrate
  have hlength : ((rate / 4).toNat : Int) = rate / 4 := Int.toNat_of_nonneg (by omega)
  have hshows : r.ShowsBeeps (LoopRun.SoundsIn { emulator := a } batches) (rate / 4).toNat
      batches.length := by
    refine LoopRun.showsBeeps_play (healthy_of_start hmachine hworks hstart) ?_ (by omega) ?_
      (cueFrames_of_start hstart) batches hfine
    · rw [hsettings]
      exact hrate
    · rw [hm]
      exact hquiet
  obtain ⟨left, hleft, hle, -⟩ := hshows.left
  refine ⟨hshows.size, fun f report hf => ?_, fun b => update_of_paused, hshows.quiet, left, hleft,
    by omega, by omega⟩
  obtain ⟨line, hline, htells⟩ := hshows.tells f report hf
  refine ⟨line, hline, htells.trans (exists_congr fun g => ?_)⟩
  constructor
  · rintro ⟨hg, hsounds, hlt⟩
    exact ⟨Nat.le_of_lt_succ hg, by omega, hsounds⟩
  · rintro ⟨hg, hlt, hsounds⟩
    exact ⟨Nat.lt_succ_of_le hg, hsounds, by omega⟩

/-- At eight frames per second the beep of the first frame is told of in the second one, although
that is paused, and no more in the third. -/
theorem beep_shown_twice :
    let settings : Settings := { clockHz := .int 16, frameHz := .int 8 }
    let batches : List (List Event) := [[], [.keyDown (.char 'p')], []]
    Settings.withOverrides {} [("clock_hz", .int 16), ("frame_hz", .int 8)] = .ok settings ∧
      ∃ a, start .desktop Machine.beforeBeepSoon settings "beep" = .ok a ∧
        let r := LoopRun.play { emulator := a } batches
        r.failure? = none ∧ r.frames.size = 3 ∧
        (∀ report, r.frames[1]? = some report →
          ∃ line, report.texts.getLast? = some line ∧ TellsCue line.text) ∧
        (∀ report, r.frames[2]? = some report →
          ∃ line, report.texts.getLast? = some line ∧ ¬TellsCue line.text) := by
  intro settings batches
  have haccepted : Settings.withOverrides {} [("clock_hz", .int 16), ("frame_hz", .int 8)] =
      .ok settings := Settings.withOverrides_eq_ok_iff.mpr ⟨by decide, rfl⟩
  have hwhole : settings.Whole := Settings.whole_of_rates 16 8
  obtain ⟨a, hstart⟩ : ∃ a, start .desktop Machine.beforeBeepSoon settings "beep" = .ok a :=
    exists_start _ _ _ _ (by decide)
  obtain ⟨⟨hmachine, -, hpaused, -⟩, -⟩ := of_start_eq_ok hstart
  have hworks : a.Works 2 :=
    works_of_cyclesPerFrame steady_desktop (.inr ⟨_, _, haccepted⟩) hwhole hstart rfl
  have hhealthy : a.Healthy 2 := healthy_of_start Machine.reachable_beforeBeepSoon hworks hstart
  obtain ⟨hfault, -⟩ := Machine.run_beforeBeepSoon
  have hrun : a.machine.run (if a.paused then 0 else 2) = Machine.beforeBeepSoon.run 2 := by
    rw [hpaused, hmachine]
    rfl
  -- The three frames complete, and the last two are paused.
  obtain ⟨-, hfirst, hgoes⟩ :=
    LoopRun.nextFrame_eq (r := { emulator := a }) hhealthy rfl
      (show a.handleAll [] = a from rfl) hrun
  rw [hfault] at hfirst
  have hhealthy₁ := (LoopRun.reached_nextFrame { emulator := a } [] .start).healthy hhealthy
  have hpaused₁ : ((LoopRun.nextFrame { emulator := a } []).emulator.handleAll
      [.keyDown (.char 'p')]).paused = true := by
    rw [paused_handleAll_eq, hgoes, hpaused]
    decide
  obtain ⟨hsecond, hpaused₂⟩ := LoopRun.nextFrame_of_paused hhealthy₁ hfirst _ hpaused₁
  have hhealthy₂ := (LoopRun.reached_nextFrame _ [.keyDown (.char 'p')] .start).healthy hhealthy₁
  obtain ⟨hthird, -⟩ := LoopRun.nextFrame_of_paused hhealthy₂ hsecond [] hpaused₂
  have hfine : (LoopRun.play { emulator := a } batches).failure? = none := by
    simp [batches, LoopRun.play, hfirst, hsecond, hthird]
  obtain ⟨hsize, htells, -⟩ := beep_shown_while_recent steady_desktop
    Machine.reachable_beforeBeepSoon rfl (.inr ⟨_, _, haccepted⟩) hwhole hstart
    (show settings.frameHz.int? = some 8 from rfl) batches hfine
  have hsounds : LoopRun.SoundsIn { emulator := a } batches 0 :=
    ⟨[], rfl, (update_beforeBeepSoon hmachine hworks hpaused).2⟩
  refine ⟨haccepted, a, hstart, hfine, hsize, fun report hreport => ?_, fun report hreport => ?_⟩
  · obtain ⟨line, hline, hiff⟩ := htells 1 report hreport
    exact ⟨line, hline, hiff.mpr ⟨0, by decide, by decide, hsounds⟩⟩
  · obtain ⟨line, hline, hiff⟩ := htells 2 report hreport
    refine ⟨line, hline, mt hiff.mp ?_⟩
    rintro ⟨g, hg, hlt, events, hevents, hcue⟩
    have hgoing := not_paused_of_cue hcue
    obtain rfl | rfl : g = 1 ∨ g = 2 := by omega
    · cases hevents
      simp [batches, LoopRun.play, hpaused₁] at hgoing
    · cases hevents
      simp [batches, LoopRun.play, hfirst, handleAll, hpaused₂] at hgoing

end Emulator

end Chip8
