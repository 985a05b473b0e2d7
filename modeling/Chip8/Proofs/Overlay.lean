import Chip8.Proofs.Frames

/-!
# Chip8.Proofs.Overlay

The machine's state over the screen.

The overlay is the one part of a rendering that reads memory, and it does so where the program
counter points. It asks first whether the counter has run past the last opcode; it does not ask
whether the counter is negative, and need not, since no run of a machine makes it so
(`Machine.Reachable.sound`). So it always has its lines (`debugLines_of_lt`,
`debugLines_of_not_lt`), and it leaves the opcode out only where the machine itself could not fetch
one.

Nothing else looks at whether the overlay is shown. Two emulators that differ in this alone keep
doing so through every part of a frame, and therefore through the main loop
(`LoopRun.Alike.through`): with the overlay it stops where it would have stopped without.
-/

namespace Chip8

open Json (Value)

variable {ρ : Type}

namespace Emulator

open Machine (fetch_eq_ok fetch_of_le exists_fetch_eq_ok)

variable {m : Machine ρ} {a b : Emulator ρ} {shown : Value}

/-! ### The lines -/

/-- The lines that the overlay always has. -/
def stateLines (m : Machine ρ) : List String := [
  "PC: $" ++ Hex.text 3 m.pc ++ "  I: $" ++ Hex.text 3 m.i,
  "SP: " ++ toString m.sp ++ "  DT: " ++ Hex.text 2 m.delay ++ "  ST: " ++ Hex.text 2 m.sound,
  "V0-V7: " ++ registersText (m.v.toList.take 8),
  "V8-VF: " ++ registersText (m.v.toList.drop 8)]

/-- The line for the next opcode. -/
def opcodeLine (w : Int) (text : String) : String := "OP: $" ++ Hex.text 4 w ++ " " ++ text

/-- Up to the last opcode of memory, there is one to show. -/
theorem debugLines_of_lt (h₀ : 0 ≤ m.pc) (h : m.pc < memorySize - 1) :
    ∃ w text, m.fetch = .ok w ∧ disassemble w = .ok text ∧
      debugLines m = .ok (stateLines m ++ [opcodeLine w text]) := by
  have hle : m.pc ≤ 4094 := by
    unfold memorySize at h
    omega
  obtain ⟨w, hw⟩ := exists_fetch_eq_ok h₀ hle
  obtain ⟨-, hw₀, hw₁⟩ := fetch_eq_ok hw
  obtain ⟨text, htext⟩ := exists_disassemble_eq_ok hw₀ hw₁
  refine ⟨w, text, hw, htext, ?_⟩
  simp only [debugLines, if_pos h, hw, htext]
  rfl

/-- Behind it, its line is left out. -/
theorem debugLines_of_not_lt (h : ¬m.pc < memorySize - 1) :
    debugLines m = .ok (stateLines m) := by
  simp only [debugLines, if_neg h]
  rfl

/-- Whether the line is there tells whether there is an opcode. -/
theorem lt_iff_exists_fetch (h₀ : 0 ≤ m.pc) :
    m.pc < memorySize - 1 ↔ ∃ w, m.fetch = .ok w := by
  constructor
  · intro h
    obtain ⟨w, -, hw, -⟩ := debugLines_of_lt h₀ h
    exact ⟨w, hw⟩
  · rintro ⟨w, hw⟩
    have := (fetch_eq_ok hw).1.2
    unfold memorySize
    omega

/-- Where there is none, the machine stops if it is to run one. -/
theorem cycle_of_not_lt [RandomSource ρ] (h : ¬m.pc < memorySize - 1) (hmode : m.mode = .running) :
    m.cycle = .stopped (.outOfMemory (max m.pc 4096)) m := by
  have hpc : 4095 ≤ m.pc := by
    unfold memorySize at h
    omega
  exact Machine.cycle_eq_stopped_iff.mpr (Machine.act_of_fetch_eq_error hmode (fetch_of_le hpc))

/-! ### Shown and hidden -/

/-- The emulator with the overlay shown or hidden. -/
def withOverlay (a : Emulator ρ) (shown : Value) : Emulator ρ := { a with showDebug := shown }

@[simp] theorem withOverlay_showDebug (a : Emulator ρ) : a.withOverlay a.showDebug = a := rfl

/-- Its own key apart, no event has to do with the overlay. -/
theorem handle_withOverlay (a : Emulator ρ) (shown : Value) (e : Event) :
    ∃ shown', (a.withOverlay shown).handle e = (a.handle e).withOverlay shown' := by
  cases e with
  | quit => exact ⟨shown, rfl⟩
  | keyDown key =>
      simp only [handle, keyDown]
      split
      · exact ⟨shown, rfl⟩
      · split
        · exact ⟨shown, rfl⟩
        · split
          · exact ⟨_, rfl⟩
          · cases key.padKey? <;> exact ⟨shown, rfl⟩
  | keyUp key =>
      simp only [handle, keyUp]
      cases key.padKey? <;> exact ⟨shown, rfl⟩
  | other => exact ⟨shown, rfl⟩

theorem handleAll_withOverlay (a : Emulator ρ) (shown : Value) (events : List Event) :
    ∃ shown', (a.withOverlay shown).handleAll events = (a.handleAll events).withOverlay shown' := by
  induction events generalizing a shown with
  | nil => exact ⟨shown, rfl⟩
  | cons e events ih =>
      obtain ⟨shown', h⟩ := handle_withOverlay a shown e
      obtain ⟨shown'', h'⟩ := ih (a.handle e) shown'
      refine ⟨shown'', ?_⟩
      rw [handleAll, List.foldl_cons, h]
      exact h'

theorem takeCue_withOverlay (a : Emulator ρ) (shown : Value) :
    (a.withOverlay shown).takeCue = a.takeCue.map (·.withOverlay shown) := by
  unfold takeCue withOverlay
  dsimp only
  split
  · split <;> rfl
  · rfl

/-- The cycles of a frame run the same, shown or hidden. -/
theorem update_withOverlay [RandomSource ρ] (a : Emulator ρ) (shown : Value) :
    (a.withOverlay shown).update =
      (a.update.1, a.update.2.1, a.update.2.2.withOverlay shown) := by
  have htake (m : Machine ρ) := takeCue_withOverlay { a with machine := m } shown
  unfold withOverlay at htake
  simp only [update, withOverlay, htake]
  by_cases hpaused : a.paused = true
  · simp only [if_pos hpaused]
  · simp only [if_neg hpaused]
    cases cycleCount a.settings with
    | error e => rfl
    | ok n =>
        dsimp only
        cases (a.machine.run n).fault? with
        | some fault => rfl
        | none => cases takeCue { a with machine := (a.machine.run n).machine } <;> rfl

theorem refresh_withOverlay (a : Emulator ρ) (shown : Value) :
    (a.withOverlay shown).refresh = a.refresh.map fun r => (r.1, r.2.withOverlay shown) := by
  unfold refresh withOverlay
  dsimp only
  split
  · split <;> rfl
  · rfl

theorem statusLine_withOverlay (a : Emulator ρ) (shown : Value) :
    (a.withOverlay shown).statusLine = (a.statusLine.1, a.statusLine.2.withOverlay shown) := by
  unfold statusLine withOverlay
  dsimp only
  split <;> rfl

/-! ### Renderings -/

/-- The lines as they are written over the screen. -/
def captions (a : Emulator ρ) (lines : List String) : List Caption :=
  lines.map (⟨·, a.settings.fgColor⟩)

theorem debugTexts_withOverlay {lines : List String} (h : debugLines a.machine = .ok lines) :
    (a.withOverlay shown).debugTexts =
      .ok (if shown.isTruthy then a.captions lines else []) := by
  unfold debugTexts withOverlay
  dsimp only
  rw [h]
  split <;> rfl

/-- What is made anew is not read by the overlay. -/
theorem debugTexts_of_refresh {redrawn : Bool} (h : a.refresh = .ok (redrawn, b)) :
    b.debugTexts = a.debugTexts := by
  obtain ⟨frame, drawFlag, rfl⟩ := refresh_eq_ok h
  rfl

/-- A rendering writes its texts over the pictures, and the status line below. -/
theorem render_of_debugTexts {texts : List Caption} (h : a.debugTexts = .ok texts) :
    a.render = match a.refresh with
      | .error e => (.error (.picture e), a)
      | .ok (redrawn, b) => (.ok ⟨redrawn, texts ++ [b.statusLine.1]⟩, b.statusLine.2) := by
  unfold render
  cases hrefresh : a.refresh with
  | error e => rfl
  | ok r =>
      obtain ⟨redrawn, b⟩ := r
      simp only [debugTexts_of_refresh hrefresh, h]

/-- **A rendering is the same but for the lines of the overlay,** whether it succeeds or fails. -/
theorem render_withOverlay {lines : List String} (h : debugLines a.machine = .ok lines) :
    ∃ (result : Except FrameFailure (Bool × Caption)) (b : Emulator ρ), ∀ shown,
      (a.withOverlay shown).render =
        (result.map fun made =>
            ⟨made.1, (if shown.isTruthy then a.captions lines else []) ++ [made.2]⟩,
          b.withOverlay shown) := by
  cases hrefresh : a.refresh with
  | error e =>
      refine ⟨.error (.picture e), a, fun shown => ?_⟩
      rw [render_of_debugTexts (debugTexts_withOverlay h), refresh_withOverlay, hrefresh]
      rfl
  | ok r =>
      obtain ⟨redrawn, b⟩ := r
      refine ⟨.ok (redrawn, b.statusLine.1), b.statusLine.2, fun shown => ?_⟩
      rw [render_of_debugTexts (debugTexts_withOverlay h), refresh_withOverlay, hrefresh]
      simp only [Except.map, statusLine_withOverlay]

theorem machine_render (a : Emulator ρ) :
    ∃ drawFlag, a.render.2.machine = { a.machine with drawFlag } := by
  unfold render
  split
  · exact ⟨a.machine.drawFlag, rfl⟩
  · rename_i redrawn b h
    obtain ⟨frame, drawFlag, rfl⟩ := refresh_eq_ok h
    split
    · exact ⟨drawFlag, rfl⟩
    · obtain ⟨line, cueFrames, hline⟩ := statusLine_eq _
      rw [hline]
      exact ⟨drawFlag, rfl⟩

/-- Whatever comes up, the numbers of the machine stay in range. -/
theorem Reached.sound [RandomSource ρ] (h : Reached a b) (ha : a.machine.Sound) :
    b.machine.Sound := by
  induction h with
  | start => exact ha
  | handle _ e ih =>
      obtain ⟨keypad, running, paused, showDebug, status, heq⟩ := handle_eq _ e
      rw [heq]
      exact { ih with }
  | cycle _ ih => exact ih.cycle
  | takeCue _ hcue ih =>
      obtain ⟨cueFrames, rfl⟩ := takeCue_eq_ok hcue
      exact { ih with }
  | render _ ih =>
      obtain ⟨drawFlag, heq⟩ := machine_render _
      rw [heq]
      exact { ih with }

end Emulator

/-! ### The main loop -/

/-- What a frame shows below the screen, and how long. -/
def FrameReport.beneath (f : FrameReport) : Value × Option Caption := (f.rate, f.texts.getLast?)

namespace LoopRun

open Emulator (Reached withOverlay)

/-- The runs are the same, but for the overlay and what it shows. -/
structure Alike (r r' : LoopRun ρ) : Prop where
  emulator : ∃ shown, r'.emulator = r.emulator.withOverlay shown
  frames : r'.frames.map FrameReport.beneath = r.frames.map FrameReport.beneath
  notices : r'.notices = r.notices
  failure? : r'.failure? = r.failure?

variable [RandomSource ρ] {r r' : LoopRun ρ}

/-- **A frame** ends the same, shown or hidden. -/
theorem Alike.nextFrame (h : r.Alike r') (hsound : r.emulator.machine.Sound)
    (events : List Event) : (r.nextFrame events).Alike (r'.nextFrame events) := by
  obtain ⟨⟨shown, hemulator⟩, hframes, hnotices, hfailure⟩ := h
  obtain ⟨shown', hhandled⟩ := Emulator.handleAll_withOverlay r.emulator shown events
  have hupdate := ((Reached.start.handleAll events).update).sound hsound
  unfold LoopRun.nextFrame
  rw [hemulator, hhandled, Emulator.update_withOverlay]
  revert hupdate
  rcases (r.emulator.handleAll events).update with ⟨notices, failure?, b⟩
  intro hupdate
  cases failure? with
  | some failure => exact ⟨⟨shown', rfl⟩, hframes, congrArg (· ++ notices) hnotices, rfl⟩
  | none =>
      obtain ⟨lines, hlines⟩ := Emulator.exists_debugLines hupdate
      obtain ⟨result, c, hrender⟩ := Emulator.render_withOverlay hlines
      have hb := hrender b.showDebug
      rw [Emulator.withOverlay_showDebug] at hb
      dsimp only
      rw [hb, hrender shown']
      cases result with
      | error failure => exact ⟨⟨shown', rfl⟩, hframes, congrArg (· ++ notices) hnotices, rfl⟩
      | ok made =>
          refine ⟨⟨shown', rfl⟩, ?_, congrArg (· ++ notices) hnotices, hfailure⟩
          simp [Except.map, FrameReport.beneath, withOverlay, hframes]

theorem sound_nextFrame (hsound : r.emulator.machine.Sound) (events : List Event) :
    (r.nextFrame events).emulator.machine.Sound :=
  (reached_nextFrame r events .start).sound hsound

/-- **The main loop** runs the same, shown or hidden. -/
theorem Alike.through (h : r.Alike r') (hsound : r.emulator.machine.Sound)
    (batches : List (List Event)) : (r.through batches).Alike (r'.through batches) := by
  induction batches generalizing r r' with
  | nil => exact h
  | cons events more ih =>
      have hgoesOn : r'.goesOn = r.goesOn := by
        obtain ⟨shown, hemulator⟩ := h.emulator
        rw [goesOn, goesOn, h.failure?, hemulator]
        rfl
      rw [LoopRun.through, LoopRun.through, hgoesOn]
      split
      · exact ih (h.nextFrame hsound events) (sound_nextFrame hsound events)
      · exact h

end LoopRun

/-- A rendering with more texts written over the screen. -/
def Rendering.under (texts : List Caption) (r : Rendering) : Rendering :=
  { r with texts := texts ++ r.texts }

namespace Emulator

variable [RandomSource ρ] {m : Machine ρ}

/-- The overlay can do no harm to an emulator around the machine. -/
structure OverlayIsSafe (m : Machine ρ) : Prop where
  /-- Its question whether there is a next opcode is answered right. -/
  asks : m.pc < memorySize - 1 ↔ ∃ w, m.fetch = .ok w
  /-- If there is one, it has a text and is shown. -/
  shows (h : m.pc < memorySize - 1) : ∃ w text, m.fetch = .ok w ∧ disassemble w = .ok text ∧
    debugLines m = .ok (stateLines m ++ [opcodeLine w text])
  /-- If there is none, its line is left out, and the machine stops as soon as it is to run one. -/
  leavesOut (h : ¬m.pc < memorySize - 1) : debugLines m = .ok (stateLines m) ∧
    (m.mode = .running → ∃ fault, m.cycle = .stopped fault m ∧ fault.kind? = some .memoryFault)
  /-- A rendering does what it does without the overlay, and writes its lines. -/
  rendering (a : Emulator ρ) (ha : a.machine = m) {shown : Value} (h : shown.isTruthy = true) :
    ∃ lines, debugLines m = .ok lines ∧
      (a.withOverlay shown).render =
        ((a.withOverlay (.bool false)).render.1.map (·.under (a.captions lines)),
          (a.withOverlay (.bool false)).render.2.withOverlay shown)
  /-- The main loop goes through the same frames, and ends as it does without the overlay. -/
  loop (a : Emulator ρ) (ha : a.machine = m) (shown : Value) (batches : List (List Event)) :
    (a.loop batches).Alike ((a.withOverlay shown).loop batches)

/-- **The overlay can never stop the emulator.** Around every machine that comes up, after whatever
programs, keys, cycles and faults, it has its lines, shows the next opcode exactly if there is one,
and changes neither what a rendering does besides nor where the main loop ends. -/
theorem overlay_never_stops (h : m.Reachable) : OverlayIsSafe m where
  asks := lt_iff_exists_fetch h.sound.pc.1
  shows := debugLines_of_lt h.sound.pc.1
  leavesOut hpc := ⟨debugLines_of_not_lt hpc, fun hmode => ⟨_, cycle_of_not_lt hpc hmode, rfl⟩⟩
  rendering a ha shown hshown := by
    obtain ⟨lines, hlines⟩ := exists_debugLines h.sound
    have hlines' : debugLines a.machine = .ok lines := by rw [ha, hlines]
    obtain ⟨result, b, hrender⟩ := render_withOverlay hlines'
    refine ⟨lines, hlines, ?_⟩
    rw [hrender shown, hrender (.bool false), if_pos hshown]
    cases result <;> rfl
  loop a ha shown batches := by
    have halike : LoopRun.Alike { emulator := a } { emulator := a.withOverlay shown } :=
      ⟨⟨shown, rfl⟩, rfl, rfl, rfl⟩
    exact halike.through (ha ▸ h.sound) _

/-- The program `1FFF`: it goes to the last cell of memory. -/
def jumpToEnd : Array UInt8 := #[0x1F, 0xFF]

/-- The machine that has the program in memory. -/
def beforeEnd : Machine CyclicNumbers :=
  { source := ⟨[0], [0]⟩, memory := Memory.initial.overlay programStart jumpToEnd }

/-- The machine that has run it. -/
def atEnd : Machine CyclicNumbers := (beforeEnd.goto 0xFFF).tick

/-- The overlay shows the jump, and nothing behind it; there the machine stops. -/
theorem overlay_at_end :
    beforeEnd.Reachable ∧ atEnd.Reachable ∧
      debugLines beforeEnd = .ok (stateLines beforeEnd ++ ["OP: $1FFF JP $FFF"]) ∧
      debugLines atEnd = .ok (stateLines atEnd) ∧
      ∃ fault, atEnd.cycle = .stopped fault atEnd ∧ fault.kind? = some .memoryFault := by
  have hfetch : beforeEnd.fetch = .ok 0x1FFF :=
    Machine.fetch_of_program (k := 0) rfl rfl (by decide) (by decide) (by decide)
  have hjump : beforeEnd.instruction? = some (.jump 0xFFF) :=
    Machine.instruction?_of_fetch rfl hfetch rfl
  have hbefore : beforeEnd.Reachable :=
    Machine.reachable_of_program (by decide) _ _ (by decide) (by decide)
  have hat : atEnd.Reachable := hbefore.of_cycle (Machine.cycle_of_instruction? hjump rfl)
  obtain ⟨w, text, hw, htext, hlines⟩ := (overlay_never_stops hbefore).shows (by decide)
  obtain rfl : 0x1FFF = w := Except.ok.inj (hfetch.symm.trans hw)
  obtain rfl : "JP $FFF" = text := Except.ok.inj (Eq.trans rfl htext)
  obtain ⟨hleft, hstops⟩ := (overlay_never_stops hat).leavesOut (by decide)
  exact ⟨hbefore, hat, hlines, hleft, hstops rfl⟩

end Emulator

end Chip8
