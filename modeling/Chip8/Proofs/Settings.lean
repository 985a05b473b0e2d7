import Chip8.Emulator.Basic
import Chip8.Emulator.Desktop
import Chip8.Proofs.Overrides

/-!
# Chip8.Proofs.Settings

Accepted settings, and emulators that have been started with them.

Settings are checked when they are accepted and used much later, inside the main loop. Here the two
ends are joined. If the scale, the two rates and the reach of the glow are whole numbers, accepted
settings say how many cycles a frame has and for how long a notice stays, and an emulator that could
be started with them can make a picture of every screen (`Emulator.Works`): what could go wrong with
the size or the brightness of a picture has been met by the checks or by the start.

How large a picture can be is a matter of the display. All that frames have to know about it is that
it is steady (`Display.Steady`): where there was room for a background there is room for pictures.
That is so on a desktop (`steady_desktop`).
-/

namespace Chip8

open Json (Value Members Misuse Number)

/-! ### Numbers -/

namespace Json

/-- A truth value is a whole number too. -/
theorem Value.number?_of_int? {v : Value} {n : Int} (h : v.int? = some n) :
    v.number? = some (.int n) := by
  cases v with
  | bool b =>
      cases h
      rfl
  | int k =>
      cases h
      rfl
  | _ => cases h

/-- A value that is a whole number as a number is one as a value. -/
theorem Value.int?_of_number? {v : Value} {n : Int} (h : v.number? = some (.int n)) :
    v.int? = some n := by
  cases v with
  | bool b =>
      cases h
      rfl
  | int k =>
      cases h
      rfl
  | _ => cases h

/-- A number between zero and one is near to a floating-point number. -/
theorem Number.exists_toFloat {n : Number} (h : n.isUnit = true) : ∃ f, n.toFloat = .ok f := by
  cases n with
  | float f => exact ⟨f, rfl⟩
  | int k =>
      simp only [Number.isUnit, Bool.and_eq_true, decide_eq_true_eq] at h
      obtain ⟨h₀, h₁⟩ := h
      have hk : k = 0 ∨ k = 1 := by omega
      rcases hk with rfl | rfl <;> exact ⟨_, rfl⟩

end Json

/-! ### Accepted settings -/

namespace Settings

variable {c : Settings}

/-- The settings are the default ones, or came from others by an object that was not refused. -/
def Accepted (c : Settings) : Prop :=
  c = {} ∨ ∃ standing members, Settings.withOverrides standing members = .ok c

/-- The settings that pictures and rates are counted with are whole numbers. -/
structure Whole (c : Settings) : Prop where
  scale : ∃ n, c.scale.int? = some n
  clockHz : ∃ n, c.clockHz.int? = some n
  frameHz : ∃ n, c.frameHz.int? = some n
  blurRadius : ∃ n, c.blurRadius.int? = some n

theorem accepted_default : Accepted {} := .inl rfl

theorem whole_of_rates (clock frame : Int) :
    Whole { clockHz := .int clock, frameHz := .int frame } :=
  ⟨⟨_, rfl⟩, ⟨_, rfl⟩, ⟨_, rfl⟩, ⟨_, rfl⟩⟩

theorem Accepted.inRange (h : c.Accepted) : c.InRange := by
  cases h with
  | inl hdefault =>
      subst hdefault
      refine ⟨fun v hv => ?_, _, rfl, by decide⟩
      simp only [Settings.speeds, List.mem_cons, List.not_mem_nil, or_false] at hv
      rcases hv with rfl | rfl | rfl <;> exact ⟨_, rfl, rfl⟩
  | inr hoverridden =>
      obtain ⟨standing, members, h⟩ := hoverridden
      exact of_withOverrides h

/-- The glow can be scaled by the bloom strength. -/
theorem Accepted.exists_strength (h : c.Accepted) :
    ∃ n f, c.bloomStrength.number? = some n ∧ n.toFloat = .ok f := by
  obtain ⟨n, hn, hunit⟩ := h.inRange.bloom
  obtain ⟨f, hf⟩ := Number.exists_toFloat hunit
  exact ⟨n, f, hn, hf⟩

/-- A speed that is a whole number is a positive one. -/
theorem Accepted.one_le (h : c.Accepted) {v : Value} (hv : v ∈ c.speeds) {k : Int}
    (hk : v.int? = some k) : 1 ≤ k := by
  obtain ⟨n, hn, hbelow⟩ := h.inRange.speeds v hv
  rw [Value.number?_of_int? hk] at hn
  cases hn
  rw [Number.isBelowOne, decide_eq_false_iff_not] at hbelow
  omega

/-- Both rates are positive whole numbers. -/
theorem Accepted.rates (h : c.Accepted) (hwhole : c.Whole) :
    ∃ clock frame : Int, 1 ≤ clock ∧ 1 ≤ frame ∧
      c.clockHz.number? = some (.int clock) ∧ c.frameHz.number? = some (.int frame) := by
  obtain ⟨clock, hclock⟩ := hwhole.clockHz
  obtain ⟨frame, hframe⟩ := hwhole.frameHz
  exact ⟨clock, frame, h.one_le (by simp [Settings.speeds]) hclock,
    h.one_le (by simp [Settings.speeds]) hframe,
    Value.number?_of_int? hclock, Value.number?_of_int? hframe⟩

/-- A frame has a whole number of cycles, and at least one. -/
theorem Accepted.cyclesPerFrame (h : c.Accepted) (hwhole : c.Whole) :
    ∃ count : Nat, 1 ≤ count ∧ c.cyclesPerFrame = .ok (.int count) := by
  obtain ⟨clock, frame, -, hpos, hclock, hframe⟩ := h.rates hwhole
  have hratio : c.clockHz.floorDiv c.frameHz = .ok (.int (clock.fdiv frame)) := by
    rw [Value.floorDiv, hclock, hframe]
    exact if_neg (by omega)
  rw [Settings.cyclesPerFrame, hratio]
  dsimp only
  unfold Number.atLeastOne
  dsimp only
  split
  · refine ⟨(clock.fdiv frame).toNat, by omega, ?_⟩
    rw [Int.toNat_of_nonneg (by omega)]
  · exact ⟨1, Nat.le_refl 1, rfl⟩

end Settings

/-! ### Pictures -/

/-- Of a size in which a background can be made, pictures can be made as well. -/
def Display.Steady (display : Display) : Prop :=
  ∀ e sides, display .background e = .ok sides → display .picture e = .ok sides

/-- On a desktop an image needs the same room whatever it is for. -/
theorem steady_desktop : Display.desktop.Steady := by
  intro e sides h
  unfold Display.desktop at h ⊢
  split at h
  · split at h
    · rename_i hroom
      rw [if_pos (by exact hroom)]
      exact h
    · cases h
  · cases h
  · cases h

namespace Renderer

variable {settings : Settings} {display : Display} {width height : Int} {r : Renderer}

theorem of_ofSettings_eq_ok (h : ofSettings settings width height = .ok r) :
    r.bloomStrength = settings.bloomStrength ∧ r.blurRadius = settings.blurRadius := by
  unfold ofSettings at h
  split at h
  · cases h
  · split at h
    · cases h
    · cases h
      exact ⟨rfl, rfl⟩

/-- Where the glow can be counted and scaled, only the display can refuse. -/
theorem exists_render_eq
    (hstrength : ∃ n f, r.bloomStrength.number? = some n ∧ n.toFloat = .ok f) {radius : Int}
    (hradius : r.blurRadius.int? = some radius) :
    ∃ strength, ∀ display s, r.render display s =
      match display .picture r.size with
      | .error e => .error (.extent e)
      | .ok (width, height) =>
        .ok ⟨r.base s width height, r.glowWith s (1 + radius) strength⟩ := by
  obtain ⟨n, f, hn, hf⟩ := hstrength
  have hpasses : r.blurRadius.countPlusOne = .ok (1 + radius) := by
    rw [Value.countPlusOne, Value.number?_of_int? hradius]
  have hfactor : r.strength = .ok f.toFloat32 := by
    rw [Renderer.strength, hn]
    dsimp only
    rw [hf]
  refine ⟨f.toFloat32, fun display s => ?_⟩
  cases hroom : display .picture r.size with
  | error e => simp only [render, hpasses, hfactor, hroom]
  | ok sides => simp only [render, hpasses, hfactor, hroom]

/-- Pictures of a size that a background could be made in can be made of every screen. -/
theorem exists_render (hsteady : display.Steady)
    (hstrength : ∃ n f, r.bloomStrength.number? = some n ∧ n.toFloat = .ok f)
    (hradius : ∃ n, r.blurRadius.int? = some n) {sides : Nat × Nat}
    (hsides : display .background r.size = .ok sides) (s : Screen) :
    ∃ frame, r.render display s = .ok frame := by
  obtain ⟨radius, hradius⟩ := hradius
  obtain ⟨strength, heq⟩ := exists_render_eq hstrength hradius
  rw [heq, hsteady _ _ hsides]
  exact ⟨_, rfl⟩

end Renderer

/-! ### Started emulators -/

namespace Emulator

variable {ρ : Type} {display : Display} {machine : Machine ρ} {settings : Settings} {name : String}
  {a : Emulator ρ}

/-- What frames are made with works: a number of cycles, a length for notices and pictures of every
screen. -/
structure Works (a : Emulator ρ) (count : Nat) : Prop where
  cycles : cycleCount a.settings = .ok count
  notice : ∃ n, cueLength a.settings = .ok n
  pictures : ∀ s, ∃ frame, a.renderer.render a.display s = .ok frame

/-- **A start** puts the machine and the settings where they belong, next to what is made from the
settings for the display; all else is as in every new emulator. -/
theorem start_eq_ok (h : start display machine settings name = .ok a) :
    ∃ renderer background window,
      a = { machine, settings, display, renderer, background, window
            showDebug := settings.showDebug } ∧
        Renderer.ofSettings settings 64 32 = .ok renderer ∧
        renderer.backgroundImage display = .ok background := by
  unfold start at h
  split at h
  · cases h
  · split at h
    · cases h
    · rename_i renderer hrenderer
      split at h
      · cases h
      · split at h
        · cases h
        · rename_i background hbackground
          cases h
          exact ⟨renderer, background, _, rfl, hrenderer, hbackground⟩

/-- An emulator starts with its machine untouched, not paused and without a picture. -/
theorem of_start_eq_ok (h : start display machine settings name = .ok a) :
    (a.machine = machine ∧ a.settings = settings ∧ a.paused = false ∧ a.frame = none) ∧
      a.display = display ∧ Renderer.ofSettings settings 64 32 = .ok a.renderer ∧
        ∃ sides, display .background a.renderer.size = .ok sides := by
  obtain ⟨renderer, background, window, rfl, hrenderer, hbackground⟩ := start_eq_ok h
  refine ⟨⟨rfl, rfl, rfl, rfl⟩, rfl, hrenderer, ?_⟩
  unfold Renderer.backgroundImage at hbackground
  split at hbackground
  · cases hbackground
  · rename_i hsides
    exact ⟨_, hsides⟩

/-- **An emulator that has been started with accepted settings works.** -/
theorem works_of_start (hsteady : display.Steady) (haccepted : settings.Accepted)
    (hwhole : settings.Whole) (h : start display machine settings name = .ok a) :
    ∃ count : Nat, 1 ≤ count ∧ settings.cyclesPerFrame = .ok (.int count) ∧ a.Works count := by
  obtain ⟨⟨-, hsettings, -, -⟩, hdisplay, hrenderer, sides, hsides⟩ := of_start_eq_ok h
  obtain ⟨hbloom, hradius⟩ := Renderer.of_ofSettings_eq_ok hrenderer
  obtain ⟨count, hcount, hcycles⟩ := haccepted.cyclesPerFrame hwhole
  obtain ⟨clock, frame, -, -, -, hframe⟩ := haccepted.rates hwhole
  refine ⟨count, hcount, hcycles, ?_, ?_, ?_⟩
  · rw [hsettings, cycleCount, hcycles]
    rfl
  · rw [hsettings, cueLength, Value.floorDiv, hframe]
    exact ⟨_, rfl⟩
  · rw [hdisplay]
    refine Renderer.exists_render hsteady ?_ ?_ hsides
    · rw [hbloom]
      exact haccepted.exists_strength
    · rw [hradius]
      exact hwhole.blurRadius

/-- It works with the number of cycles that the settings say. -/
theorem works_of_cyclesPerFrame (hsteady : display.Steady) (haccepted : settings.Accepted)
    (hwhole : settings.Whole) (h : start display machine settings name = .ok a) {count : Nat}
    (hcycles : settings.cyclesPerFrame = .ok (.int count)) : a.Works count := by
  obtain ⟨n, -, hn, hworks⟩ := works_of_start hsteady haccepted hwhole h
  rw [hcycles] at hn
  injection hn with hn
  injection hn with hn
  rwa [Int.ofNat_inj.mp hn]

/-- On a desktop an emulator can be started with any rates, and the default settings otherwise. -/
theorem exists_start (machine : Machine ρ) (clockHz frameHz : Value) (name : String)
    (hname : '\x00' ∉ name.toList) :
    ∃ a, start .desktop machine { clockHz, frameHz } name = .ok a := by
  rw [start, if_neg hname]
  exact ⟨_, rfl⟩

end Emulator

end Chip8
