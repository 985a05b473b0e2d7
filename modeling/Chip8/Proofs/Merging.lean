import Chip8.Proofs.Settings

/-!
# Chip8.Proofs.Merging

Changing settings by one object after another.

Whether an object is accepted is a question in two parts. One is about the object alone: its keys
are settings, and its colours are colours (`Fits`). The other is about the settings that it makes,
whatever made them: their speeds and their bloom strength are in range (`InRange`). Objects are
merged under each key alone, and so are settings changed, so two changes make the settings that the
merged object makes (`overridden_overridden`), and both parts of the question carry over.

Objects are compared by what stands under their keys, so the order of the members does not matter.
-/

namespace Chip8

open Json (Value Members Number)

/-! ### Merged objects -/

namespace Json.Members

variable {a b ab members : Members}

theorem find?_cons (key : String) (v : Value) (members : Members) (k : String) :
    find? ((key, v) :: members) k = if k = key then some v else members.find? k := by
  rw [find?, List.lookup_cons]
  by_cases h : k = key
  · rw [if_pos h, beq_iff_eq.mpr h]
  · rw [if_neg h, beq_false_of_ne h]
    rfl

theorem mem_keys_iff {key : String} : key ∈ members.keys ↔ ∃ v, members.find? key = some v := by
  induction members with
  | nil => simp [keys, find?]
  | cons member members ih =>
      obtain ⟨first, v⟩ := member
      rw [find?_cons, keys, List.map_cons, List.mem_cons]
      by_cases h : key = first
      · rw [if_pos h]
        exact iff_of_true (.inl h) ⟨v, rfl⟩
      · rw [if_neg h, ← ih]
        exact or_iff_right h

theorem find?_eq_none {key : String} (h : key ∉ members.keys) : members.find? key = none :=
  Option.eq_none_iff_forall_ne_some.mpr fun v hv => h (mem_keys_iff.mpr ⟨v, hv⟩)

theorem find?_insert (members : Members) (key : String) (v : Value) (k : String) :
    (members.insert key v).find? k = if k = key then some v else members.find? k := by
  induction members with
  | nil => exact find?_cons key v [] k
  | cons member members ih =>
      obtain ⟨first, w⟩ := member
      rw [insert]
      by_cases hfirst : first = key
      · subst hfirst
        rw [if_pos rfl, find?_cons, find?_cons]
        split <;> rfl
      · rw [if_neg hfirst, find?_cons, find?_cons, ih]
        split
        · rename_i hk
          rw [if_neg (hk ▸ hfirst)]
        · rfl

/-- The object `ab` has what `b` has, and what `a` has under other keys. -/
def Merges (a b ab : Members) : Prop := ∀ key, ab.find? key = (b.find? key).or (a.find? key)

/-- The members of `b` are added to those of `a`, one by one. -/
def merge (a b : Members) : Members :=
  b.foldl (fun merged member => merged.insert member.1 member.2) a

theorem merges_merge (a : Members) (hb : b.keys.Nodup) : Merges a b (a.merge b) := by
  intro key
  induction b generalizing a with
  | nil => rfl
  | cons member b ih =>
      obtain ⟨first, v⟩ := member
      obtain ⟨hfirst, hb⟩ := List.nodup_cons.mp hb
      -- What the first member adds stays, because no later one has its key.
      rw [show a.merge ((first, v) :: b) = (a.insert first v).merge b from rfl, ih _ hb,
        find?_insert, find?_cons]
      by_cases hkey : key = first
      · rw [if_pos hkey, if_pos hkey, hkey, find?_eq_none hfirst]
        rfl
      · rw [if_neg hkey, if_neg hkey]

/-- The first of two members with the same key counts. -/
theorem merges_append (a b : Members) : Merges a b (b ++ a) := fun _ => List.lookup_append

theorem merges_self (a : Members) : Merges a a a := fun _ => Option.or_self.symm

/-- Objects without a common key may be merged in any order. -/
theorem Merges.symm (h : Merges a b ab) (hdisjoint : ∀ key ∈ a.keys, key ∉ b.keys) :
    Merges b a ab := by
  intro key
  rw [h key]
  cases ha : a.find? key with
  | none => rw [Option.or_none, Option.none_or]
  | some v =>
      rw [find?_eq_none (hdisjoint key (mem_keys_iff.mpr ⟨v, ha⟩))]
      rfl

end Json.Members

namespace Settings

open Json.Members (Merges)

variable {c c' c₁ c₂ d : Settings} {a b ab members members' : Members}

/-- The object may change settings: its keys are settings, and its colours are colours. -/
structure Fits (members : Members) : Prop where
  keys : ∀ key v, members.find? key = some v → key ∈ Settings.keys
  colors : ∀ key ∈ ["fg_color", "bg_color"], ∀ v, members.find? key = some v →
    ∃ color, Color.ofValue? v = some color

/-- **The two parts of being accepted,** one about the object and one about the settings. -/
theorem withOverrides_eq_ok_iff_fits :
    c.withOverrides members = .ok c' ↔
      Fits members ∧ c'.InRange ∧ c' = c.overridden members := by
  constructor
  · intro h
    have hrange := of_withOverrides h
    obtain ⟨hpasses, rfl⟩ := withOverrides_eq_ok_iff.mp h
    refine ⟨⟨fun key v hv => ?_, fun key hkey v hv => ?_⟩, hrange, rfl⟩
    · exact hpasses (.keys members) (by simp [checks]) key (Json.Members.mem_keys_iff.mpr ⟨v, hv⟩)
    · refine hpasses (.color key (members.find? key)) ?_ v hv
      simp only [List.mem_cons, List.not_mem_nil, or_false] at hkey
      rcases hkey with rfl | rfl <;> simp [checks]
  · intro h
    obtain ⟨hfits, hrange, rfl⟩ := h
    refine withOverrides_eq_ok_iff.mpr ⟨fun check hcheck => ?_, rfl⟩
    simp only [checks, comparisons, List.mem_append, List.mem_cons, List.mem_map,
      List.not_mem_nil, or_false] at hcheck
    rcases hcheck with (rfl | rfl | rfl) | ⟨v, hv, rfl⟩ | rfl
    · intro key hkey
      obtain ⟨v, hv⟩ := Json.Members.mem_keys_iff.mp hkey
      exact hfits.keys key v hv
    · exact hfits.colors "fg_color" (by decide)
    · exact hfits.colors "bg_color" (by decide)
    · exact hrange.speeds v hv
    · exact hrange.bloom

/-! ### Changing twice -/

theorem given_given (h : Merges a b ab) (key : String) (standing : Value) :
    given b key (given a key standing) = given ab key standing := by
  rw [given, given, given, h key]
  cases b.find? key <;> rfl

theorem givenColor_givenColor (h : Merges a b ab) {key : String} (standing : Color)
    (hb : ∀ v, b.find? key = some v → ∃ color, Color.ofValue? v = some color) :
    givenColor b key (givenColor a key standing) = givenColor ab key standing := by
  rw [givenColor, givenColor, givenColor, h key]
  cases hv : b.find? key with
  | none => rfl
  | some v =>
      obtain ⟨color, hcolor⟩ := hb v hv
      simp [hcolor]

/-- **Two changes make what the merged object makes.** -/
theorem overridden_overridden (h : Merges a b ab) (hb : Fits b) :
    (c.overridden a).overridden b = c.overridden ab := by
  have hfg := givenColor_givenColor h c.fgColor (hb.colors "fg_color" (by decide))
  have hbg := givenColor_givenColor h c.bgColor (hb.colors "bg_color" (by decide))
  simp only [overridden, given_given h, hfg, hbg]

theorem Fits.merge (ha : Fits a) (hb : Fits b) (h : Merges a b ab) : Fits ab := by
  constructor
  case keys =>
    intro key v hv
    rw [h key, Option.or_eq_some_iff] at hv
    rcases hv with hv | ⟨-, hv⟩
    · exact hb.keys key v hv
    · exact ha.keys key v hv
  case colors =>
    intro key hkey v hv
    rw [h key, Option.or_eq_some_iff] at hv
    rcases hv with hv | ⟨-, hv⟩
    · exact hb.colors key hkey v hv
    · exact ha.colors key hkey v hv

/-- What an object has that is in range beside some settings is in range beside others. -/
theorem InRange.overridden (hc : c.InRange) (h : (c'.overridden members).InRange) :
    (c.overridden members).InRange := by
  constructor
  case speeds =>
    intro v hv
    rcases mem_speeds_overridden hv with ⟨key, hkey, hgiven⟩ | hkept
    · exact h.speeds v (find?_mem_speeds c' hkey hgiven)
    · exact hc.speeds v hkept
  case bloom =>
    rcases given_cases members "bloom_strength" c.bloomStrength with hgiven | hkept
    · have hsame : (c'.overridden members).bloomStrength =
          (c.overridden members).bloomStrength := given_of_find? c'.bloomStrength hgiven
      rw [← hsame]
      exact h.bloom
    · rw [Settings.overridden, hkept]
      exact hc.bloom

/-! ### The object of all settings -/

theorem fits_toMembers (d : Settings) : Fits d.toMembers := by
  constructor
  case keys =>
    intro key v hv
    rw [← keys_toMembers d]
    exact Json.Members.mem_keys_iff.mpr ⟨v, hv⟩
  case colors =>
    intro key hkey v hv
    simp only [List.mem_cons, List.not_mem_nil, or_false] at hkey
    rcases hkey with rfl | rfl <;> cases hv <;> exact ⟨_, Color.ofValue?_toValue _⟩

theorem overridden_toMembers (c d : Settings) : c.overridden d.toMembers = d := by
  have hfg : givenColor d.toMembers "fg_color" c.fgColor = d.fgColor :=
    congrArg (·.getD c.fgColor) (Color.ofValue?_toValue d.fgColor)
  have hbg : givenColor d.toMembers "bg_color" c.bgColor = d.bgColor :=
    congrArg (·.getD c.bgColor) (Color.ofValue?_toValue d.bgColor)
  rw [overridden, hfg, hbg]
  rfl

/-! ### Objects with the same values -/

/-- An object that has the same values is accepted as well, and makes the same settings. -/
theorem withOverrides_congr (hsame : ∀ key, members'.find? key = members.find? key)
    (h : c.withOverrides members = .ok c') : c.withOverrides members' = .ok c' := by
  obtain ⟨hfits, hrange, hmade⟩ := withOverrides_eq_ok_iff_fits.mp h
  have hsame' : c.overridden members' = c.overridden members := by
    simp only [overridden, given, givenColor, hsame]
  refine withOverrides_eq_ok_iff_fits.mpr ⟨⟨?_, ?_⟩, hrange, hmade.trans hsame'.symm⟩
  · intro key v hv
    exact hfits.keys key v (hsame key ▸ hv)
  · intro key hkey v hv
    exact hfits.colors key hkey v (hsame key ▸ hv)

/-! ### Composition -/

theorem withOverrides_merge (h₁ : c.withOverrides a = .ok c₁) (h₂ : c₁.withOverrides b = .ok c₂)
    (h : Merges a b ab) : c.withOverrides ab = .ok c₂ := by
  obtain ⟨ha, -, rfl⟩ := withOverrides_eq_ok_iff_fits.mp h₁
  obtain ⟨hb, hrange, rfl⟩ := withOverrides_eq_ok_iff_fits.mp h₂
  exact withOverrides_eq_ok_iff_fits.mpr ⟨ha.merge hb h, hrange, overridden_overridden h hb⟩

/-- Objects without a common key may be used in any order. -/
theorem withOverrides_swap (hc : c.InRange) (h₁ : c.withOverrides a = .ok c₁)
    (h₂ : c₁.withOverrides b = .ok c₂) (hdisjoint : ∀ key ∈ a.keys, key ∉ b.keys) :
    ∃ c₃, c.withOverrides b = .ok c₃ ∧ c₃.withOverrides a = .ok c₂ := by
  obtain ⟨ha, -, rfl⟩ := withOverrides_eq_ok_iff_fits.mp h₁
  obtain ⟨hb, hrange, rfl⟩ := withOverrides_eq_ok_iff_fits.mp h₂
  refine ⟨c.overridden b, withOverrides_eq_ok_iff_fits.mpr ⟨hb, hc.overridden hrange, rfl⟩,
    withOverrides_eq_ok_iff_fits.mpr ⟨ha, hrange, ?_⟩⟩
  -- In either order the settings are those that the merged objects make.
  have hmerges := Json.Members.merges_append a b
  rw [overridden_overridden hmerges hb, overridden_overridden (hmerges.symm hdisjoint) ha]

/-- **Overrides compose.** Settings that are changed by two objects, one after the other, can be
changed by the merged object at once, and by the two in the other order if they have no key in
common. An object of all settings makes those settings of any, in whatever order its members stand.
And changing settings twice in the same way is changing them once, or being refused as before. -/
theorem overrides_compose (hc : c.Accepted) :
    (∀ a b c₁ c₂, c.withOverrides a = .ok c₁ → c₁.withOverrides b = .ok c₂ →
      (∀ ab, Merges a b ab → c.withOverrides ab = .ok c₂) ∧
      ((∀ key ∈ a.keys, key ∉ b.keys) →
        ∃ c₃, c.withOverrides b = .ok c₃ ∧ c₃.withOverrides a = .ok c₂)) ∧
    (∀ d : Settings, d.Accepted → ∀ members,
      (∀ key, members.find? key = d.toMembers.find? key) → c.withOverrides members = .ok d) ∧
    ∀ a, (c.withOverrides a).bind (·.withOverrides a) = c.withOverrides a := by
  refine ⟨fun a b c₁ c₂ h₁ h₂ => ⟨fun ab h => withOverrides_merge h₁ h₂ h, fun hdisjoint => ?_⟩,
    fun d hd members hmembers => ?_, fun a => ?_⟩
  · exact withOverrides_swap hc.inRange h₁ h₂ hdisjoint
  · refine withOverrides_congr hmembers (withOverrides_eq_ok_iff_fits.mpr ?_)
    exact ⟨fits_toMembers d, hd.inRange, (overridden_toMembers c d).symm⟩
  · cases h : c.withOverrides a with
    | error e => rfl
    | ok c₁ =>
        obtain ⟨ha, hrange, rfl⟩ := withOverrides_eq_ok_iff_fits.mp h
        refine withOverrides_eq_ok_iff_fits.mpr ⟨ha, hrange, ?_⟩
        exact (overridden_overridden (Json.Members.merges_self a) ha).symm

/-- A colour by its name, a scale that is a NaN and a rate. -/
def nanScale : Members :=
  [("fg_color", .string "fg_amber"), ("scale", .float (0.0 / 0.0)), ("clock_hz", .int 600)]

/-- A rate again, and a colour with a truth value in it. -/
def fasterClock : Members :=
  [("clock_hz", .int 900), ("bg_color", .array [.int 0, .bool true, .int 2])]

/-- The rate of the second object wins; the NaN, which passes for a scale, is merged as well. -/
theorem nanScale_fasterClock :
    Accepted {} ∧ ∃ c₁ c₂, withOverrides {} nanScale = .ok c₁ ∧
      c₁.withOverrides fasterClock = .ok c₂ ∧
      withOverrides {} (nanScale.merge fasterClock) = .ok c₂ ∧ c₂.clockHz.int? = some 900 ∧
      c₁.withOverrides c₂.toMembers = .ok c₂ := by
  have h₁ : withOverrides {} nanScale = .ok (overridden {} nanScale) :=
    withOverrides_eq_ok_iff.mpr ⟨by decide, rfl⟩
  have h₂ : (overridden {} nanScale).withOverrides fasterClock =
      .ok ((overridden {} nanScale).overridden fasterClock) :=
    withOverrides_eq_ok_iff.mpr ⟨by decide, rfl⟩
  have hmerges := Json.Members.merges_merge nanScale (b := fasterClock) (by decide)
  have haccepted : Accepted {} := accepted_default
  refine ⟨haccepted, _, _, h₁, h₂, ?_, rfl, ?_⟩
  · exact ((overrides_compose haccepted).1 _ _ _ _ h₁ h₂).1 _ hmerges
  · exact (overrides_compose (.inr ⟨_, _, h₁⟩)).2.1 _ (.inr ⟨_, _, h₂⟩) _ fun _ => rfl

end Settings

end Chip8
