import Chip8.Settings.Basic

/-!
# Chip8.Proofs.Overrides

Changing settings by an object, as a sequence of checks.

An object meets seven checks: of its keys, of the two colours, of the three speeds and of the bloom
strength, in this order (`checks`). Each of them either passes or refuses. The answer is the first
refusal, and if all pass it is the settings with the values of the object in place of those that
stood (`withOverrides_eq`).

A speed or a strength that is out of its range is refused with a message of the settings. One that
is no number at all is refused by the comparison itself, and nothing makes a message of the settings
out of that (`kind?_of_refusal?`).
-/

namespace Chip8.Settings

open Json (Value Members Misuse Number)

variable {c c' : Settings} {members : Members} {e : SettingsError}

/-- One check of an object. -/
inductive Check
  /-- Every key is a setting. -/
  | keys (members : Members)
  /-- The colour under a key is a colour, if there is one. -/
  | color (key : String) (value? : Option Value)
  /-- A speed is one at least. -/
  | speed (v : Value)
  /-- The bloom strength lies between zero and one. -/
  | bloom (v : Value)

namespace Check

/-- What a check has to say against an object, if anything. -/
def refusal? : Check → Option SettingsError
  | keys members =>
    if ∀ key ∈ members.keys, key ∈ Settings.keys then none
    else some (.unknownKeys (unknownKeys members))
  | color key value? =>
    value?.bind fun v => if (Color.ofValue? v).isSome then none else some (.badColor key v)
  | speed v =>
    match v.isBelowOne with
    | .error e => some (.misuse e)
    | .ok below => if below then some .notPositive else none
  | bloom v =>
    match v.isUnit with
    | .error e => some (.misuse e)
    | .ok unit => if unit then none else some .badBloom

/-- The check finds nothing wrong. -/
def Passes : Check → Prop
  | keys members => ∀ key ∈ members.keys, key ∈ Settings.keys
  | color _ value? => ∀ v, value? = some v → ∃ color, Color.ofValue? v = some color
  | speed v => ∃ n, v.number? = some n ∧ n.isBelowOne = false
  | bloom v => ∃ n, v.number? = some n ∧ n.isUnit = true

/-- The check compares a value that is no number. -/
def MeetsNonNumber : Check → Prop
  | keys _ | color _ _ => False
  | speed v | bloom v => v.number? = none

end Check

/-- There are no unknown keys if and only if every key is a setting. -/
theorem unknownKeys_eq_nil_iff :
    unknownKeys members = [] ↔ ∀ key ∈ members.keys, key ∈ keys := by
  rw [unknownKeys, ← List.length_eq_zero_iff, List.length_mergeSort, List.length_eq_zero_iff,
    List.filter_eq_nil_iff]
  simp

namespace Check

theorem refusal?_eq_none_iff {check : Check} : check.refusal? = none ↔ check.Passes := by
  cases check with
  | keys members =>
      rw [refusal?, Passes]
      split
      · rename_i hkeys
        exact iff_of_true rfl hkeys
      · rename_i hkeys
        exact iff_of_false (Option.some_ne_none _) hkeys
  | color key value? =>
      rw [refusal?, Passes]
      cases value? with
      | none => simp
      | some v => simp [Option.isSome_iff_exists]
  | speed v =>
      rw [refusal?, Passes, Value.isBelowOne]
      cases v.number? <;> simp
  | bloom v =>
      rw [refusal?, Passes, Value.isUnit]
      cases v.number? <;> simp

/-- Whether a check passes can be computed. -/
instance : DecidablePred Passes := fun _ => decidable_of_iff _ refusal?_eq_none_iff

/-- **A refusal has no kind** if and only if it comes from comparing a value that is no number. -/
theorem kind?_of_refusal? {check : Check} (h : check.refusal? = some e) :
    e.kind? = none ↔ check.MeetsNonNumber := by
  cases check with
  | keys members =>
      rw [refusal?] at h
      split at h <;> cases h
      simp [SettingsError.kind?, MeetsNonNumber]
  | color key value? =>
      obtain ⟨v, -, h⟩ := Option.bind_eq_some_iff.mp h
      split at h <;> cases h
      simp [SettingsError.kind?, MeetsNonNumber]
  | speed v =>
      rw [refusal?, Value.isBelowOne] at h
      cases hn : v.number? with
      | none =>
          rw [hn] at h
          cases h
          simp [SettingsError.kind?, MeetsNonNumber, hn]
      | some n =>
          simp only [hn] at h
          split at h <;> cases h
          simp [SettingsError.kind?, MeetsNonNumber, hn]
  | bloom v =>
      rw [refusal?, Value.isUnit] at h
      cases hn : v.number? with
      | none =>
          rw [hn] at h
          cases h
          simp [SettingsError.kind?, MeetsNonNumber, hn]
      | some n =>
          simp only [hn] at h
          split at h <;> cases h
          simp [SettingsError.kind?, MeetsNonNumber, hn]

end Check

/-! ### The checks of an object -/

/-- The value under a key, or the one that stands if the key is absent. -/
def given (members : Members) (key : String) (standing : Value) : Value :=
  (members.find? key).getD standing

/-- The colour under a key, or the one that stands if there is none. -/
def givenColor (members : Members) (key : String) (standing : Color) : Color :=
  ((members.find? key).bind Color.ofValue?).getD standing

/-- The settings with the values of an object in place of those that stand. -/
def overridden (c : Settings) (members : Members) : Settings where
  scale := given members "scale" c.scale
  clockHz := given members "clock_hz" c.clockHz
  frameHz := given members "frame_hz" c.frameHz
  fgColor := givenColor members "fg_color" c.fgColor
  bgColor := givenColor members "bg_color" c.bgColor
  bloomStrength := given members "bloom_strength" c.bloomStrength
  blurRadius := given members "blur_radius" c.blurRadius
  showDebug := given members "show_debug" c.showDebug
  seed := given members "seed" c.seed

def speeds (c : Settings) : List Value := [c.scale, c.clockHz, c.frameHz]

/-- The keys of the speeds. -/
def speedKeys : List String := ["scale", "clock_hz", "frame_hz"]

theorem given_of_find? {key : String} {v : Value} (standing : Value)
    (h : members.find? key = some v) : given members key standing = v := by
  rw [given, h, Option.getD_some]

theorem given_cases (members : Members) (key : String) (standing : Value) :
    members.find? key = some (given members key standing) ∨
      given members key standing = standing := by
  rw [given]
  cases members.find? key with
  | none => exact .inr rfl
  | some v => exact .inl rfl

/-- Each speed comes from the object or stood before. -/
theorem mem_speeds_overridden {v : Value} (hv : v ∈ (c.overridden members).speeds) :
    (∃ key ∈ speedKeys, members.find? key = some v) ∨ v ∈ c.speeds := by
  have hspeed (key : String) (standing : Value) (hkey : key ∈ speedKeys)
      (hstanding : standing ∈ c.speeds) :
      (∃ k ∈ speedKeys, members.find? k = some (given members key standing)) ∨
        given members key standing ∈ c.speeds := by
    rcases given_cases members key standing with hgiven | hkept
    · exact .inl ⟨key, hkey, hgiven⟩
    · rw [hkept]
      exact .inr hstanding
  rw [speeds, List.mem_cons, List.mem_cons, List.mem_singleton] at hv
  rcases hv with rfl | rfl | rfl
  · exact hspeed "scale" c.scale (by decide) (by simp [speeds])
  · exact hspeed "clock_hz" c.clockHz (by decide) (by simp [speeds])
  · exact hspeed "frame_hz" c.frameHz (by decide) (by simp [speeds])

/-- What an object has for a speed is one. -/
theorem find?_mem_speeds (c : Settings) {key : String} {v : Value} (hkey : key ∈ speedKeys)
    (h : members.find? key = some v) : v ∈ (c.overridden members).speeds := by
  rw [speeds, List.mem_cons, List.mem_cons, List.mem_singleton]
  rw [speedKeys, List.mem_cons, List.mem_cons, List.mem_singleton] at hkey
  rcases hkey with rfl | rfl | rfl
  · exact .inl (given_of_find? _ h).symm
  · exact .inr (.inl (given_of_find? _ h).symm)
  · exact .inr (.inr (given_of_find? _ h).symm)

/-- The comparisons that settings have to pass. -/
def comparisons (c : Settings) : List Check :=
  c.speeds.map .speed ++ [.bloom c.bloomStrength]

/-- All that an object has to pass, in order. -/
def checks (c : Settings) (members : Members) : List Check :=
  [.keys members, .color "fg_color" (members.find? "fg_color"),
    .color "bg_color" (members.find? "bg_color")] ++ (c.overridden members).comparisons

/-- The speeds are checked one by one. -/
theorem findSome?_speeds (vs : List Value) :
    (vs.map Check.speed).findSome? Check.refusal? =
      match anyBelowOne vs with
      | .error e => some (.misuse e)
      | .ok below => if below then some .notPositive else none := by
  induction vs with
  | nil => rfl
  | cons v vs ih =>
      rw [List.map_cons, List.findSome?_cons, ih, anyBelowOne, Check.refusal?]
      cases v.isBelowOne with
      | error e => rfl
      | ok below => cases below <;> rfl

theorem check_eq (c : Settings) :
    c.check =
      match c.comparisons.findSome? Check.refusal? with
      | some e => .error e
      | none => .ok c := by
  rw [comparisons, List.findSome?_append, findSome?_speeds, check, speeds]
  cases anyBelowOne [c.scale, c.clockHz, c.frameHz] with
  | error e => rfl
  | ok below =>
      cases below with
      | true => rfl
      | false =>
          simp only [Check.refusal?, List.findSome?_cons, List.findSome?_nil]
          cases c.bloomStrength.isUnit with
          | error e => rfl
          | ok unit => cases unit <;> rfl

theorem colorUnder_eq (members : Members) (key : String) (standing : Color) :
    colorUnder members key standing =
      match (Check.color key (members.find? key)).refusal? with
      | some e => .error e
      | none => .ok (givenColor members key standing) := by
  rw [colorUnder, givenColor, Check.refusal?]
  cases members.find? key with
  | none => rfl
  | some v =>
      simp only [Option.bind_some]
      cases Color.ofValue? v <;> rfl

/-- **The answer to an object** is the first refusal of its checks, or the settings with its values
if there is none. -/
theorem withOverrides_eq (c : Settings) (members : Members) :
    c.withOverrides members =
      match (c.checks members).findSome? Check.refusal? with
      | some e => .error e
      | none => .ok (c.overridden members) := by
  rw [checks, List.cons_append, List.cons_append, List.cons_append, List.nil_append,
    List.findSome?_cons, List.findSome?_cons, List.findSome?_cons, withOverrides,
    Check.refusal?]
  cases hkeys : unknownKeys members with
  | cons key more =>
      rw [if_neg (by rw [← unknownKeys_eq_nil_iff, hkeys]; exact List.cons_ne_nil _ _)]
  | nil =>
      rw [if_pos (unknownKeys_eq_nil_iff.mp hkeys), colorUnder_eq, colorUnder_eq]
      cases (Check.color "fg_color" (members.find? "fg_color")).refusal? with
      | some e => rfl
      | none =>
          cases (Check.color "bg_color" (members.find? "bg_color")).refusal? with
          | some e => rfl
          | none => exact check_eq (c.overridden members)

theorem withOverrides_eq_error_iff :
    c.withOverrides members = .error e ↔
      (c.checks members).findSome? Check.refusal? = some e := by
  rw [withOverrides_eq]
  cases (c.checks members).findSome? Check.refusal? <;> simp

/-- **An object is accepted** if and only if it passes every check. -/
theorem withOverrides_eq_ok_iff :
    c.withOverrides members = .ok c' ↔
      (∀ check ∈ c.checks members, check.Passes) ∧ c' = c.overridden members := by
  simp only [← Check.refusal?_eq_none_iff]
  rw [withOverrides_eq, ← List.findSome?_eq_none_iff]
  cases (c.checks members).findSome? Check.refusal? with
  | some e => simp
  | none => simp [eq_comm]

/-- The speeds are not less than one, and the bloom strength is between zero and one. -/
structure InRange (c : Settings) : Prop where
  speeds : ∀ v ∈ c.speeds, ∃ n, v.number? = some n ∧ n.isBelowOne = false
  bloom : ∃ n, c.bloomStrength.number? = some n ∧ n.isUnit = true

/-- **Settings that an object made are in range.** -/
theorem of_withOverrides (h : c.withOverrides members = .ok c') : c'.InRange := by
  obtain ⟨hpasses, rfl⟩ := withOverrides_eq_ok_iff.mp h
  constructor
  · intro v hv
    exact hpasses (.speed v)
      (List.mem_append_right _ (List.mem_append_left _ (List.mem_map_of_mem hv)))
  · exact hpasses (.bloom _)
      (List.mem_append_right _ (List.mem_append_right _ (List.mem_singleton_self _)))

/-- The checks come upon a value that is no number, and those before it pass. -/
def StopsAtNonNumber (c : Settings) (members : Members) : Prop :=
  ∃ before check after, c.checks members = before ++ check :: after ∧ check.MeetsNonNumber ∧
    ∀ passed ∈ before, passed.Passes

theorem Check.not_passes_of_meetsNonNumber {check : Check} (h : check.MeetsNonNumber) :
    ¬check.Passes := by
  intro hpasses
  cases check with
  | keys | color => exact h
  | speed v | bloom v =>
      obtain ⟨n, hn, -⟩ := hpasses
      exact absurd (h.symm.trans hn) (by simp)

/-- **A refusal without a kind** comes from the first check that does not pass, if that compares a
value that is no number. -/
theorem exists_kind?_eq_none_iff :
    (∃ e, c.withOverrides members = .error e ∧ e.kind? = none) ↔ c.StopsAtNonNumber members := by
  simp only [withOverrides_eq_error_iff, List.findSome?_eq_some_iff, Check.refusal?_eq_none_iff]
  constructor
  · intro hfails
    obtain ⟨e, ⟨before, check, after, hsplit, hrefusal, hbefore⟩, hkind⟩ := hfails
    exact ⟨before, check, after, hsplit, (check.kind?_of_refusal? hrefusal).mp hkind, hbefore⟩
  · intro hstops
    obtain ⟨before, check, after, hsplit, hmeets, hbefore⟩ := hstops
    cases hrefusal : check.refusal? with
    | none =>
        exact absurd (Check.refusal?_eq_none_iff.mp hrefusal)
          (Check.not_passes_of_meetsNonNumber hmeets)
    | some e =>
        exact ⟨e, ⟨before, check, after, hsplit, hrefusal, hbefore⟩,
          (check.kind?_of_refusal? hrefusal).mpr hmeets⟩

end Chip8.Settings
