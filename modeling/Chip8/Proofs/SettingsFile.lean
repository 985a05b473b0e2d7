import Mathlib.Data.List.Basic
import Chip8.CommandLine
import Chip8.Proofs.Events
import Chip8.Proofs.Utf8

/-!
# Chip8.Proofs.SettingsFile

How reading a settings file can fail, and how the program ends then.

Whatever is under a path, reading it ends with settings or with an error. Most errors have the kind
of bad settings, and the command line reports them and ends with status one. Three causes give an
error without a kind, and the program ends with that: a path that names nothing at all, bytes that
are no text, and a value that is no number where the first check that does not pass compares it
(`Escapes`). `reports_settingsFile_iff` says that there are no others.

Two settings are accepted with any value, but not every value can be used. A list or an object is no
seed, and the program ends where it would make its random source. A reach of the glow that is no
whole number counts no passes, so that no picture can be made (`Emulator.Blind`): not even the first
frame is shown.
-/

namespace Chip8

open Json (Members)

variable {files : FileReader} {path : String} {e : SettingsFileError}

/-- The file fails in a way that is none of the emulator's own errors. -/
inductive Escapes (files : FileReader) (path : String) : Prop
  /-- The path names nothing at all. -/
  | path (h : files path = .error .nulInPath)
  /-- The bytes are the encoding of no text. -/
  | bytes {bytes : Array UInt8} (h : files path = .ok bytes)
      (hbytes : ∀ text : List Char, bytes.toList ≠ text.flatMap String.utf8EncodeChar)
  /-- The text is an object, and the first check that does not pass compares a value that is no
  number. -/
  | value {bytes : Array UInt8} {text : List Char} {members : Members} (h : files path = .ok bytes)
      (hbytes : bytes.toList = text.flatMap String.utf8EncodeChar)
      (hread : Json.read (Line.uniform text) = .ok (.object members))
      (hstops : Settings.StopsAtNonNumber {} members)

theorem SettingsFileError.kind?_eq (e : SettingsFileError) :
    e.kind? = none ∨ e.kind? = some .badSettings := by
  cases e with
  | refused cause =>
      cases cause with
      | misuse => exact .inl rfl
      | _ => exact .inr rfl
  | nulInPath | notUtf8 => exact .inl rfl
  | unreadable | malformed | notAnObject => exact .inr rfl

namespace Settings

/-- What an error without a kind comes from. -/
theorem escapes_of_ofFile (h : ofFile files path = .error e) (hkind : e.kind? = none) :
    Escapes files path := by
  unfold ofFile at h
  split at h
  · rename_i hfile
    exact .path hfile
  · cases h
    cases hkind
  · rename_i bytes hfile
    unfold ofBytes at h
    split at h
    · rename_i place hdecode
      refine .bytes hfile fun text hbytes => ?_
      rw [Utf8.decode_eq_ok_iff.mpr hbytes] at hdecode
      cases hdecode
    · rename_i text hdecode
      split at h
      · cases h
        cases hkind
      · rename_i members hread
        split at h
        · rename_i cause hrefused
          cases h
          exact .value hfile (Utf8.decode_eq_ok_iff.mp hdecode) hread
            (exists_kind?_eq_none_iff.mp ⟨cause, hrefused, hkind⟩)
        · cases h
      · cases h
        cases hkind

theorem exists_of_escapes (h : Escapes files path) :
    ∃ e, ofFile files path = .error e ∧ e.kind? = none := by
  cases h with
  | path hfile =>
      rw [ofFile, hfile]
      exact ⟨_, rfl, rfl⟩
  | bytes hfile hbytes =>
      rename_i bytes
      rw [ofFile, hfile]
      dsimp only
      rw [ofBytes]
      cases hdecode : Utf8.decode bytes.toList with
      | error place => exact ⟨_, rfl, rfl⟩
      | ok text => exact absurd (Utf8.decode_eq_ok_iff.mp hdecode) (hbytes text)
  | value hfile hbytes hread hstops =>
      obtain ⟨cause, hrefused, hkind⟩ := exists_kind?_eq_none_iff.mpr hstops
      rw [ofFile, hfile]
      dsimp only
      rw [ofBytes, Utf8.decode_eq_ok_iff.mpr hbytes]
      dsimp only
      rw [hread]
      dsimp only
      rw [hrefused]
      exact ⟨_, rfl, hkind⟩

/-- **An error has no kind** if and only if the file fails in one of the three ways. -/
theorem kind?_ofFile_iff (h : ofFile files path = .error e) :
    e.kind? = none ↔ Escapes files path := by
  constructor
  · exact escapes_of_ofFile h
  · intro hescapes
    obtain ⟨e', he', hkind⟩ := exists_of_escapes hescapes
    obtain rfl : e = e' := Except.error.inj (h.symm.trans he')
    exact hkind

/-- A byte that begins no character. -/
example : ∃ place, ofFile (fun _ => .ok #[0xFF]) "c.json" = .error (.notUtf8 place) := ⟨_, rfl⟩

end Settings

/-! ### Emulators without pictures -/

namespace Emulator

variable {ρ : Type} {a : Emulator ρ}

/-- There are no pictures, and none can be made. -/
structure Blind (a : Emulator ρ) : Prop where
  frame : a.frame = none
  pictures : ∀ s, ∃ cause, a.renderer.render a.display s = .error cause

/-- A reach of the glow that is no whole number counts no passes. -/
theorem blind_of_start {display : Display} {machine : Machine ρ} {settings : Settings}
    {name : String} (h : start display machine settings name = .ok a)
    (hradius : settings.blurRadius.int? = none) : a.Blind := by
  obtain ⟨renderer, background, window, rfl, hrenderer, -⟩ := start_eq_ok h
  obtain ⟨-, hblur⟩ := Renderer.of_ofSettings_eq_ok hrenderer
  have hpasses : ∃ cause, renderer.blurRadius.countPlusOne = .error cause := by
    rw [hblur]
    unfold Json.Value.countPlusOne
    split
    · rename_i n hnumber
      exact nomatch hradius.symm.trans (Json.Value.int?_of_number? hnumber)
    · exact ⟨_, rfl⟩
    · exact ⟨_, rfl⟩
  obtain ⟨cause, hcause⟩ := hpasses
  exact ⟨rfl, fun s => ⟨.misuse cause, by simp only [Renderer.render, hcause]⟩⟩

theorem Blind.handleAll (h : a.Blind) (events : List Event) : (a.handleAll events).Blind := by
  rw [handleAll_rest]
  exact ⟨h.frame, h.pictures⟩

variable [RandomSource ρ]

theorem Blind.update (h : a.Blind) : a.update.2.2.Blind := by
  unfold Emulator.update
  split
  · exact h
  · split
    · exact h
    · dsimp only
      split
      · exact ⟨h.frame, h.pictures⟩
      · split
        · exact ⟨h.frame, h.pictures⟩
        · rename_i b hcue
          obtain ⟨cueFrames, rfl⟩ := takeCue_eq_ok hcue
          exact ⟨h.frame, h.pictures⟩

omit [RandomSource ρ] in
theorem Blind.render (h : a.Blind) : ∃ cause, a.render = (.error (.picture cause), a) := by
  obtain ⟨cause, hcause⟩ := h.pictures a.machine.screen
  have hrefresh : a.refresh = .error cause := by
    rw [refresh, h.frame, Option.isNone_none, Bool.or_true, if_pos rfl, hcause]
  rw [Emulator.render, hrefresh]
  exact ⟨cause, rfl⟩

/-- No frame is finished. -/
theorem Blind.nextFrame {r : LoopRun ρ} (h : r.emulator.Blind) (events : List Event) :
    (r.nextFrame events).failure?.isSome = true ∧ (r.nextFrame events).frames = r.frames := by
  have hupdate := (h.handleAll events).update
  unfold LoopRun.nextFrame
  generalize (r.emulator.handleAll events).update = u at hupdate ⊢
  obtain ⟨notices, failure?, b⟩ := u
  cases failure? with
  | some failure => exact ⟨rfl, rfl⟩
  | none =>
      obtain ⟨cause, hcause⟩ := Blind.render hupdate
      dsimp only at hcause ⊢
      rw [hcause]
      exact ⟨rfl, rfl⟩

/-- **The main loop fails in its first frame.** -/
theorem Blind.loop (h : a.Blind) (hrunning : a.running = true) (frames : List (List Event)) :
    (a.loop frames).failure?.isSome = true ∧ (a.loop frames).frames = #[] := by
  obtain ⟨events, more, hframes⟩ : ∃ events more, frames ++ [[.quit]] = events :: more := by
    cases frames with
    | nil => exact ⟨_, _, rfl⟩
    | cons events more => exact ⟨_, _, rfl⟩
  have hbegins : LoopRun.goesOn { emulator := a } = true := by
    rw [LoopRun.goesOn, hrunning]
    rfl
  obtain ⟨hfailed, hshown⟩ := Blind.nextFrame (r := { emulator := a }) h events
  rw [Emulator.loop, hframes, LoopRun.through, if_pos hbegins,
    LoopRun.through_of_goesOn_eq_false (LoopRun.goesOn_of_isSome hfailed)]
  exact ⟨hfailed, hshown⟩

end Emulator

namespace CommandLine

open Settings (ofFile)

/-- A run of the main loop that fails does not end with status zero. -/
theorem ending_runEmulator_ne {loaded : List Notice} {emulator : Emulator NumberSource}
    {frames : List (List Event)} (h : (emulator.loop frames).failure?.isSome = true) :
    (runEmulator loaded emulator frames).ending ≠ .ok 0 := by
  obtain ⟨failure, hfailure⟩ := Option.isSome_iff_exists.mp h
  unfold runEmulator
  dsimp only
  rw [hfailure]
  cases failure with
  | fault cause =>
      dsimp only
      split
      · rintro ⟨⟩
      · rintro ⟨⟩
  | misuse cause => rintro ⟨⟩
  | picture cause => rintro ⟨⟩

theorem frames_runEmulator (loaded : List Notice) (emulator : Emulator NumberSource)
    (frames : List (List Event)) :
    (runEmulator loaded emulator frames).frames = (emulator.loop frames).frames := by
  unfold runEmulator
  dsimp only
  split
  · rfl
  · split
    · rfl
    · rfl
  · rfl

variable {display : Display} {entropy : Nat} {program : String} {more : List String}
  {frames : List (List Event)} {settings : Settings}

/-- A list and an object are no seeds. -/
theorem run_of_badSeed (h : ofFile files path = .ok settings)
    (hseed : (∃ items, settings.seed = .array items) ∨
      ∃ members, settings.seed = .object members) :
    run display files entropy (program :: path :: more) frames =
      { output := banner, ending := .error .badSeed } := by
  have hsource : sourceFor entropy settings.seed = .error .badSeed := by
    rcases hseed with ⟨items, hseed⟩ | ⟨members, hseed⟩
    · rw [hseed]
      rfl
    · rw [hseed]
      rfl
  simp only [run, List.head?_cons, settingsFor, h, hsource]
  rfl

/-- Where no picture can be made, no frame is shown. -/
theorem run_of_blurRadius (h : ofFile files path = .ok settings)
    (hradius : settings.blurRadius.int? = none) :
    let session := run display files entropy (program :: path :: more) frames
    session.ending ≠ .ok 0 ∧ session.frames = #[] := by
  intro session
  simp only [session, run, List.head?_cons, settingsFor, h]
  split
  · exact ⟨nofun, rfl⟩
  · split
    · split
      · exact ⟨nofun, rfl⟩
      · exact ⟨nofun, rfl⟩
    · split
      · exact ⟨nofun, rfl⟩
      · rename_i emulator hstart
        have hblind := Emulator.blind_of_start hstart hradius
        obtain ⟨renderer, background, window, rfl, -⟩ := Emulator.start_eq_ok hstart
        obtain ⟨hfailed, hshown⟩ := hblind.loop rfl frames
        exact ⟨ending_runEmulator_ne hfailed, (frames_runEmulator _ _ _).trans hshown⟩

/-- **A settings file that fails is reported,** with status one, unless it fails in one of the three
ways that are none of the emulator's own errors. Then the program ends with an error that it did not
expect, and reports nothing. A file that does not fail can still hold what cannot be used: with a
list or an object for a seed the program ends with such an error as well, and with a reach of the
glow that is no whole number it shows no frame and never ends as if nothing had gone wrong. -/
theorem reports_settingsFile_iff (display : Display) (files : FileReader) (entropy : Nat)
    (program path : String) (more : List String) (frames : List (List Event)) :
    let session := run display files entropy (program :: path :: more) frames
    (∃ settings, ofFile files path = .ok settings ∧
        (((∃ items, settings.seed = .array items) ∨
            ∃ members, settings.seed = .object members) →
          session = { output := banner, ending := .error .badSeed }) ∧
        (settings.blurRadius.int? = none → session.ending ≠ .ok 0 ∧ session.frames = #[])) ∨
      ∃ e, ofFile files path = .error e ∧
        ((e.kind? = some .badSettings ∧ ¬Escapes files path ∧
            session = {
              output := banner, reports := "Error: " ++ e.message ++ "\n", ending := .ok 1 }) ∨
          e.kind? = none ∧ Escapes files path ∧
            session = { output := banner, ending := .error (.settings e) }) := by
  intro session
  cases hfile : ofFile files path with
  | ok settings =>
      exact .inl ⟨settings, rfl, run_of_badSeed hfile, run_of_blurRadius hfile⟩
  | error e =>
      have hkind := Settings.kind?_ofFile_iff hfile
      have hsession : session =
          if e.kind?.isSome then failed (errorLine e.message) (.ok 1)
          else failed "" (.error (.settings e)) := by
        simp only [session, run, List.head?_cons, settingsFor, hfile]
      refine .inr ⟨e, rfl, ?_⟩
      rcases e.kind?_eq with hnone | hsome
      · rw [hnone] at hsession
        exact .inr ⟨hnone, hkind.mp hnone, hsession⟩
      · rw [hsome] at hsession hkind
        have hreported : ¬Escapes files path := by
          intro hescapes
          cases hkind.mpr hescapes
        exact .inl ⟨hsome, hreported, hsession⟩

/-- The file `{"seed":[]}`. -/
def listSeed : Array UInt8 :=
  #[0x7B, 0x22, 0x73, 0x65, 0x65, 0x64, 0x22, 0x3A, 0x5B, 0x5D, 0x7D]

theorem ofFile_listSeed (path : String) :
    ofFile (fun _ => .ok listSeed) path = .ok { seed := .array [] } := by
  have hdecode : Utf8.decode listSeed.toList =
      .ok ['\x7b', '"', 's', 'e', 'e', 'd', '"', ':', '[', ']', '\x7d'] := rfl
  have hread : Json.read (Line.uniform
      ['\x7b', '"', 's', 'e', 'e', 'd', '"', ':', '[', ']', '\x7d']) =
        .ok (.object [("seed", .array [])]) := by
    cbv
  have hoverridden : Settings.withOverrides {} [("seed", .array [])] =
      .ok { seed := .array [] } :=
    Settings.withOverrides_eq_ok_iff.mpr ⟨by decide, rfl⟩
  simp only [ofFile, Settings.ofBytes, hdecode, hread, hoverridden]

/-- An empty list is accepted for a seed, and no random source can be made from it. -/
theorem listSeed_escapes :
    run .desktop (fun _ => .ok listSeed) 0 ["p.ch8", "c.json"] [] =
      { output := banner, ending := .error .badSeed } := by
  have haccepted := ofFile_listSeed "c.json"
  rcases reports_settingsFile_iff .desktop (fun _ => .ok listSeed) 0 "p.ch8" "c.json" [] [] with
    ⟨settings, hsettings, hseed, -⟩ | ⟨e, hrefused, -⟩
  · rw [haccepted] at hsettings
    cases hsettings
    exact hseed (.inl ⟨[], rfl⟩)
  · rw [haccepted] at hrefused
    cases hrefused

end CommandLine

end Chip8
