import Chip8.Proofs.Settings
import Chip8.Proofs.Usable

/-!
# Chip8.Proofs.Answers

The answers to objects whose numbers are numbers.

If the speeds are whole numbers and the bloom strength is a number, before the change and in the
object, no comparison meets a value that it cannot compare. What is left are five ways to be refused
and one to be accepted, and `Answer` tells them apart by what the object holds: which of its keys
are settings, which of its colours mean a colour (`Value.IsColor`), and which settings it would make
(`Takes`). A defect is reported only if there is none of a kind that comes before it, and each kind
is reported in words of its own.

The values of an object are arbitrary where nothing is said about them, and those of a colour most
of all: a list of any length with values of any type in it.
-/

namespace Chip8

open Json (Value Members Number)

/-! ### Colours -/

theorem Channel.ofValue?_eq_some_iff {v : Value} {c : Channel} :
    ofValue? v = some c ↔ v = c.toValue := by
  constructor
  · intro h
    cases v with
    | int n =>
        rw [ofValue?] at h
        split at h
        · rename_i hrange
          cases h
          have hlevel : ((UInt8.ofNat n.toNat).toNat : Int) = n := by
            rw [UInt8.toNat_ofNat_of_lt' (by rw [UInt8.size]; omega)]
            omega
          exact congrArg Value.int hlevel.symm
        · cases h
    | bool b =>
        cases h
        rfl
    | _ => cases h
  · intro h
    rw [h, ofValue?_toValue]

/-- A channel is a whole number from 0 to 255. -/
theorem Channel.exists_ofValue?_iff {v : Value} :
    (∃ c, ofValue? v = some c) ↔ ∃ n, v.int? = some n ∧ 0 ≤ n ∧ n ≤ 255 := by
  constructor
  · intro hchannel
    obtain ⟨c, hc⟩ := hchannel
    rw [ofValue?_eq_some_iff.mp hc]
    exact c.int?_toValue
  · intro hwhole
    obtain ⟨n, hn, hrange⟩ := hwhole
    cases v with
    | int k =>
        cases hn
        exact ⟨_, if_pos hrange⟩
    | bool b => exact ⟨_, rfl⟩
    | _ => cases hn

namespace Color

/-- No name stands in the palette twice. -/
theorem lookup_palette_eq_some_iff {name : String} {color : Color} :
    palette.lookup name = some color ↔ (name, color) ∈ palette := by
  constructor
  · intro h
    obtain ⟨before, after, hsplit, -⟩ := List.lookup_eq_some_iff.mp h
    rw [hsplit]
    exact List.mem_append_right _ List.mem_cons_self
  · intro h
    have hall : ∀ entry ∈ palette, palette.lookup entry.1 = some entry.2 := by decide
    exact hall _ h

/-- The value is the name of the colour in the palette, or lists its channels. -/
def MeantBy (color : Color) (v : Value) : Prop :=
  (∃ name, v = .string name ∧ (name, color) ∈ palette) ∨ v = color.toValue

theorem ofValue?_eq_some_iff {v : Value} {color : Color} :
    ofValue? v = some color ↔ color.MeantBy v := by
  constructor
  · intro h
    unfold ofValue? at h
    split at h
    · rename_i name
      exact .inl ⟨name, rfl, lookup_palette_eq_some_iff.mp h⟩
    · simp only [Option.bind_eq_bind, Option.bind_eq_some_iff, Channel.ofValue?_eq_some_iff] at h
      obtain ⟨red, rfl, green, rfl, blue, rfl, h⟩ := h
      cases h
      exact .inr rfl
    · cases h
  · intro h
    cases h with
    | inl hname =>
        obtain ⟨name, rfl, hmem⟩ := hname
        exact lookup_palette_eq_some_iff.mpr hmem
    | inr hlist => rw [hlist, ofValue?_toValue]

/-- The colour is the one that a value means, if there is a value, and else the one that stands. -/
def Replaces (color standing : Color) : Option Value → Prop
  | none => color = standing
  | some v => color.MeantBy v

end Color

/-- The value is a name of the palette or a list of three whole numbers from 0 to 255. -/
def Json.Value.IsColor (v : Value) : Prop :=
  (∃ name ∈ Color.palette.map (·.1), v = .string name) ∨ v.IsTriple

theorem Color.isColor_iff {v : Value} : v.IsColor ↔ ∃ color, Color.ofValue? v = some color := by
  constructor
  · intro h
    cases h with
    | inl hname =>
        obtain ⟨name, hname, rfl⟩ := hname
        obtain ⟨⟨_, color⟩, hmem, rfl⟩ := List.mem_map.mp hname
        exact ⟨color, ofValue?_eq_some_iff.mpr (.inl ⟨_, rfl, hmem⟩)⟩
    | inr htriple =>
        obtain ⟨r, g, b, rfl, hchannels⟩ := htriple
        simp only [List.forall_mem_cons, ← Channel.exists_ofValue?_iff] at hchannels
        obtain ⟨⟨red, hred⟩, ⟨green, hgreen⟩, ⟨blue, hblue⟩, -⟩ := hchannels
        exact ⟨⟨red, green, blue⟩, by simp [ofValue?, hred, hgreen, hblue]⟩
  · intro h
    obtain ⟨color, hcolor⟩ := h
    cases ofValue?_eq_some_iff.mp hcolor with
    | inl hname =>
        obtain ⟨name, rfl, hmem⟩ := hname
        exact .inl ⟨name, List.mem_map.mpr ⟨_, hmem, rfl⟩, rfl⟩
    | inr hlist =>
        rw [hlist]
        exact .inr color.isTriple_toValue

theorem Color.Replaces.isColor {color standing : Color} {value? : Option Value}
    (h : color.Replaces standing value?) (v : Value) (hv : value? = some v) : v.IsColor := by
  subst hv
  exact isColor_iff.mpr ⟨color, ofValue?_eq_some_iff.mpr h⟩

namespace Settings

variable {c c' : Settings} {members : Members} {r : Except (SettingsError × String) Settings}

/-! ### The settings that an object makes -/

/-- The settings that are kept as the values they are given as. -/
def plainKeys : List String := keys.filter fun key => key ≠ "fg_color" ∧ key ≠ "bg_color"

/-- The settings `c'` have what the object says, the colours that it means, and what it says nothing
about from `c`. -/
structure Takes (c : Settings) (members : Members) (c' : Settings) : Prop where
  plain (key : String) (hkey : key ∈ plainKeys) :
    c'.toMembers.find? key = (members.find? key).or (c.toMembers.find? key)
  fgColor : c'.fgColor.Replaces c.fgColor (members.find? "fg_color")
  bgColor : c'.bgColor.Replaces c.bgColor (members.find? "bg_color")

theorem givenColor_eq_iff {key : String} {standing color : Color}
    (hkey : ∀ v, members.find? key = some v → v.IsColor) :
    color = givenColor members key standing ↔ color.Replaces standing (members.find? key) := by
  rw [givenColor]
  cases hv : members.find? key with
  | none => rfl
  | some v =>
      obtain ⟨meant, hmeant⟩ := Color.isColor_iff.mp (hkey v hv)
      rw [Option.bind_some, Color.Replaces, ← Color.ofValue?_eq_some_iff, hmeant, Option.getD_some,
        Option.some.injEq, eq_comm]

theorem find?_toMembers_overridden (c : Settings) (members : Members) :
    ∀ key ∈ plainKeys, (c.overridden members).toMembers.find? key =
      (members.find? key).or (c.toMembers.find? key) := by
  intro key hkey
  have hcases : key = "scale" ∨ key = "clock_hz" ∨ key = "frame_hz" ∨ key = "bloom_strength" ∨
      key = "blur_radius" ∨ key = "show_debug" ∨ key = "seed" := by
    simpa [plainKeys, keys] using hkey
  -- Under a given key both sides compute to the value that is given or stands.
  rcases hcases with rfl | rfl | rfl | rfl | rfl | rfl | rfl <;> exact Option.or_some.symm

/-- Settings that are the same under every key are the same. -/
theorem eq_of_find?_toMembers
    (hplain : ∀ key ∈ plainKeys, c.toMembers.find? key = c'.toMembers.find? key)
    (hfg : c.fgColor = c'.fgColor) (hbg : c.bgColor = c'.bgColor) : c = c' := by
  have hscale := hplain "scale" (by decide)
  have hclock := hplain "clock_hz" (by decide)
  have hframe := hplain "frame_hz" (by decide)
  have hbloom := hplain "bloom_strength" (by decide)
  have hblur := hplain "blur_radius" (by decide)
  have hdebug := hplain "show_debug" (by decide)
  have hseed := hplain "seed" (by decide)
  cases c
  cases c'
  cases hfg
  cases hbg
  cases hscale
  cases hclock
  cases hframe
  cases hbloom
  cases hblur
  cases hdebug
  cases hseed
  rfl

/-- **An object whose colours are colours** makes one kind of settings. -/
theorem takes_iff (hfg : ∀ v, members.find? "fg_color" = some v → v.IsColor)
    (hbg : ∀ v, members.find? "bg_color" = some v → v.IsColor) :
    c.Takes members c' ↔ c' = c.overridden members := by
  constructor
  · intro h
    refine eq_of_find?_toMembers (fun key hkey => ?_) ((givenColor_eq_iff hfg).mpr h.fgColor)
      ((givenColor_eq_iff hbg).mpr h.bgColor)
    rw [h.plain key hkey, find?_toMembers_overridden c members key hkey]
  · intro h
    subst h
    exact ⟨find?_toMembers_overridden c members, (givenColor_eq_iff hfg).mp rfl,
      (givenColor_eq_iff hbg).mp rfl⟩

/-! ### Numbers where numbers belong -/

/-- The speeds are whole numbers, and the bloom strength is a number. -/
structure Numeric (c : Settings) : Prop where
  speeds : ∀ v ∈ c.speeds, ∃ n, v.int? = some n
  bloom : ∃ n, c.bloomStrength.number? = some n

/-- So are those of them that an object has. -/
structure NumericMembers (members : Members) : Prop where
  speeds : ∀ key ∈ speedKeys, ∀ v, members.find? key = some v → ∃ n, v.int? = some n
  bloom : ∀ v, members.find? "bloom_strength" = some v → ∃ n, v.number? = some n

theorem Numeric.overridden (hc : c.Numeric) (hmembers : NumericMembers members) :
    (c.overridden members).Numeric := by
  constructor
  case speeds =>
    intro v hv
    rcases mem_speeds_overridden hv with ⟨key, hkey, hgiven⟩ | hkept
    · exact hmembers.speeds key hkey v hgiven
    · exact hc.speeds v hkept
  case bloom =>
    rcases given_cases members "bloom_strength" c.bloomStrength with hgiven | hkept
    · exact hmembers.bloom _ hgiven
    · rw [Settings.overridden, hkept]
      exact hc.bloom

/-! ### Answers -/

/-- Every key of the object is a setting. -/
def Known (members : Members) : Prop := ∀ key ∈ members.keys, key ∈ keys

/-- The speeds are positive whole numbers. -/
def Positive (c : Settings) : Prop := ∀ v ∈ c.speeds, ∃ n, v.int? = some n ∧ 1 ≤ n

/-- How an object is answered: with settings, or with a refusal and the text it is told in. Each
answer but the first supposes that there was no reason for those before it. -/
inductive Answer (c : Settings) (members : Members) :
    Except (SettingsError × String) Settings → Prop
  /-- All keys are named that are no settings, in order. -/
  | unknownKeys (names : List String) (hne : names ≠ []) (hsorted : names.Pairwise (· ≤ ·))
    (hnames : names.Perm (members.keys.filter (· ∉ keys))) :
    Answer c members
      (.error (.unknownKeys names, "Unknown config keys: " ++ ", ".intercalate names))
  | badFgColor (v : Value) (hkeys : Known members) (hv : members.find? "fg_color" = some v)
    (hbad : ¬v.IsColor) :
    Answer c members (.error (.badColor "fg_color" v,
      "fg_color must be a color name or [r, g, b], got " ++ v.literal))
  | badBgColor (v : Value) (hkeys : Known members)
    (hfg : ∀ v, members.find? "fg_color" = some v → v.IsColor)
    (hv : members.find? "bg_color" = some v) (hbad : ¬v.IsColor) :
    Answer c members (.error (.badColor "bg_color" v,
      "bg_color must be a color name or [r, g, b], got " ++ v.literal))
  | notPositive (made : Settings) (hkeys : Known members) (hmade : c.Takes members made)
    (hlow : ∃ v ∈ made.speeds, ∃ n, v.int? = some n ∧ n < 1) :
    Answer c members (.error (.notPositive, "scale, clock_hz and frame_hz must be positive"))
  | badBloom (made : Settings) (hkeys : Known members) (hmade : c.Takes members made)
    (hspeeds : made.Positive)
    (hbloom : ∃ n, made.bloomStrength.number? = some n ∧ ¬n.InUnit) :
    Answer c members (.error (.badBloom, "bloom_strength must be between 0.0 and 1.0"))
  | accepted (made : Settings) (hkeys : Known members) (hmade : c.Takes members made)
    (hspeeds : made.Positive) (hbloom : ∃ n, made.bloomStrength.number? = some n ∧ n.InUnit) :
    Answer c members (.ok made)

/-- The settings that an object makes, or why it is refused and in which words. -/
def answer (c : Settings) (members : Members) : Except (SettingsError × String) Settings :=
  (c.withOverrides members).mapError fun e => (e, e.message)

theorem answer_of_error {e : SettingsError} (h : c.withOverrides members = .error e) :
    c.answer members = .error (e, e.message) := by
  rw [answer, h]
  rfl

theorem answer_of_ok (h : c.withOverrides members = .ok c') : c.answer members = .ok c' := by
  rw [answer, h]
  rfl

theorem pairwise_unknownKeys (members : Members) : (unknownKeys members).Pairwise (· ≤ ·) := by
  refine (List.pairwise_mergeSort ?_ ?_ _).imp of_decide_eq_true
  · simp only [decide_eq_true_eq]
    exact fun _ _ _ => String.le_trans
  · simp only [Bool.or_eq_true, decide_eq_true_eq]
    exact String.le_total

theorem unknownKeys_perm (members : Members) :
    (unknownKeys members).Perm (members.keys.filter (· ∉ keys)) := by
  simpa [unknownKeys] using List.mergeSort_perm _ _

/-- The keys can be named in order in one way only. -/
theorem eq_unknownKeys {names : List String} (hsorted : names.Pairwise (· ≤ ·))
    (hnames : names.Perm (members.keys.filter (· ∉ keys))) : names = unknownKeys members :=
  (hnames.trans (unknownKeys_perm members).symm).eq_of_pairwise
    (fun _ _ _ _ => String.le_antisymm) hsorted (pairwise_unknownKeys members)

theorem colorUnder_of_isColor {key : String} (standing : Color)
    (h : ∀ v, members.find? key = some v → v.IsColor) :
    colorUnder members key standing = .ok (givenColor members key standing) := by
  have hpasses : (Check.color key (members.find? key)).Passes :=
    fun v hv => Color.isColor_iff.mp (h v hv)
  rw [colorUnder_eq, Check.refusal?_eq_none_iff.mpr hpasses]

theorem colorUnder_of_not_isColor {key : String} {v : Value} (standing : Color)
    (hv : members.find? key = some v) (hbad : ¬v.IsColor) :
    colorUnder members key standing = .error (.badColor key v) := by
  rw [colorUnder, hv]
  dsimp only
  cases hcolor : Color.ofValue? v with
  | none => rfl
  | some color => exact absurd (Color.isColor_iff.mpr ⟨color, hcolor⟩) hbad

theorem isBelowOne_of_int? {v : Value} {n : Int} (hn : v.int? = some n) :
    v.isBelowOne = .ok (decide (n < 1)) := by
  rw [Value.isBelowOne, Value.number?_of_int? hn]
  rfl

/-- Whole numbers can all be compared. -/
theorem exists_anyBelowOne {vs : List Value} (hwhole : ∀ v ∈ vs, ∃ n, v.int? = some n) :
    ∃ low, anyBelowOne vs = .ok low ∧
      (low = true ↔ ∃ v ∈ vs, ∃ n, v.int? = some n ∧ n < 1) := by
  induction vs with
  | nil => exact ⟨false, rfl, by simp⟩
  | cons v vs ih =>
      obtain ⟨n, hn⟩ := hwhole v List.mem_cons_self
      rw [anyBelowOne, isBelowOne_of_int? hn]
      by_cases hlow : n < 1
      · rw [decide_eq_true hlow]
        exact ⟨true, rfl, iff_of_true rfl ⟨v, List.mem_cons_self, n, hn, hlow⟩⟩
      · rw [decide_eq_false hlow]
        obtain ⟨low, hrest, hiff⟩ := ih fun w hw => hwhole w (List.mem_cons_of_mem v hw)
        refine ⟨low, hrest, ?_⟩
        have hfirst : ¬∃ n, v.int? = some n ∧ n < 1 := by
          simp [hn, hlow]
        simp only [List.mem_cons, exists_eq_or_imp, hfirst, false_or]
        exact hiff

theorem not_positive_iff (hwhole : ∀ v ∈ c.speeds, ∃ n, v.int? = some n) :
    ¬c.Positive ↔ ∃ v ∈ c.speeds, ∃ n, v.int? = some n ∧ n < 1 := by
  constructor
  · intro hnot
    apply Classical.byContradiction
    intro hnone
    refine hnot fun v hv => ?_
    obtain ⟨n, hn⟩ := hwhole v hv
    exact ⟨n, hn, Int.not_lt.mp fun hlow => hnone ⟨v, hv, n, hn, hlow⟩⟩
  · intro hlow hpositive
    obtain ⟨v, hv, n, hn, hlow⟩ := hlow
    obtain ⟨n', hn', hpos⟩ := hpositive v hv
    rw [hn, Option.some.injEq] at hn'
    omega

theorem check_of_low (hwhole : ∀ v ∈ c.speeds, ∃ n, v.int? = some n)
    (hlow : ∃ v ∈ c.speeds, ∃ n, v.int? = some n ∧ n < 1) : c.check = .error .notPositive := by
  obtain ⟨low, hbelow, hiff⟩ := exists_anyBelowOne hwhole
  rw [hiff.mpr hlow] at hbelow
  rw [check, show anyBelowOne [c.scale, c.clockHz, c.frameHz] = _ from hbelow]

theorem check_of_positive (hpositive : c.Positive) {n : Number}
    (hn : c.bloomStrength.number? = some n) :
    c.check = if n.isUnit then .ok c else .error .badBloom := by
  have hwhole : ∀ v ∈ c.speeds, ∃ n, v.int? = some n := fun v hv =>
    (hpositive v hv).imp fun _ hn => hn.1
  obtain ⟨low, hbelow, hiff⟩ := exists_anyBelowOne hwhole
  have hlow : low = false := by
    rw [← Bool.not_eq_true, hiff, ← not_positive_iff hwhole, Classical.not_not]
    exact hpositive
  rw [hlow] at hbelow
  rw [check, show anyBelowOne [c.scale, c.clockHz, c.frameHz] = _ from hbelow, Value.isUnit, hn]
  dsimp only
  cases n.isUnit <;> rfl

/-- Once the keys and the colours have passed, the settings are checked that the object makes. -/
theorem withOverrides_eq_check (hkeys : Known members)
    (hfg : ∀ v, members.find? "fg_color" = some v → v.IsColor)
    (hbg : ∀ v, members.find? "bg_color" = some v → v.IsColor) :
    c.withOverrides members = (c.overridden members).check := by
  rw [withOverrides, unknownKeys_eq_nil_iff.mpr hkeys]
  dsimp only
  rw [colorUnder_of_isColor c.fgColor hfg]
  dsimp only
  rw [colorUnder_of_isColor c.bgColor hbg]
  rfl

/-- What an object makes is checked. -/
theorem Takes.withOverrides_eq (h : c.Takes members c') (hkeys : Known members) :
    c.withOverrides members = c'.check := by
  rw [withOverrides_eq_check hkeys h.fgColor.isColor h.bgColor.isColor,
    (takes_iff h.fgColor.isColor h.bgColor.isColor).mp h]

/-- No object has two answers, and its answer is given. -/
theorem Answer.eq (hc : c.Numeric) (hmembers : NumericMembers members) (h : c.Answer members r) :
    c.answer members = r := by
  cases h with
  | unknownKeys names hne hsorted hnames =>
      rw [eq_unknownKeys hsorted hnames] at hne ⊢
      refine answer_of_error (e := .unknownKeys _) ?_
      rw [withOverrides]
      cases hunknown : Settings.unknownKeys members with
      | nil => exact absurd hunknown hne
      | cons key more => rfl
  | badFgColor v hkeys hv hbad =>
      refine answer_of_error (e := .badColor _ v) ?_
      rw [withOverrides, unknownKeys_eq_nil_iff.mpr hkeys]
      dsimp only
      rw [colorUnder_of_not_isColor c.fgColor hv hbad]
  | badBgColor v hkeys hfg hv hbad =>
      refine answer_of_error (e := .badColor _ v) ?_
      rw [withOverrides, unknownKeys_eq_nil_iff.mpr hkeys]
      dsimp only
      rw [colorUnder_of_isColor c.fgColor hfg]
      dsimp only
      rw [colorUnder_of_not_isColor c.bgColor hv hbad]
  | notPositive made hkeys hmade hlow =>
      have hnumeric := hc.overridden hmembers
      rw [← (takes_iff hmade.fgColor.isColor hmade.bgColor.isColor).mp hmade] at hnumeric
      refine answer_of_error (e := .notPositive) ?_
      rw [hmade.withOverrides_eq hkeys, check_of_low hnumeric.speeds hlow]
  | badBloom made hkeys hmade hspeeds hbloom =>
      obtain ⟨n, hn, hbad⟩ := hbloom
      refine answer_of_error (e := .badBloom) ?_
      rw [hmade.withOverrides_eq hkeys, check_of_positive hspeeds hn,
        if_neg (by rwa [Number.isUnit_iff])]
  | accepted made hkeys hmade hspeeds hbloom =>
      obtain ⟨n, hn, hunit⟩ := hbloom
      refine answer_of_ok ?_
      rw [hmade.withOverrides_eq hkeys, check_of_positive hspeeds hn,
        if_pos (Number.isUnit_iff.mpr hunit)]

/-- Every object has an answer. -/
theorem exists_answer (hc : c.Numeric) (hmembers : NumericMembers members) :
    ∃ r, c.Answer members r := by
  -- The questions are asked in the order of the checks, and the first one with a no decides.
  by_cases hkeys : Known members
  · by_cases hfg : ∀ v, members.find? "fg_color" = some v → v.IsColor
    · by_cases hbg : ∀ v, members.find? "bg_color" = some v → v.IsColor
      · have hmade : c.Takes members (c.overridden members) := (takes_iff hfg hbg).mpr rfl
        have hnumeric := hc.overridden hmembers
        by_cases hspeeds : (c.overridden members).Positive
        · obtain ⟨n, hn⟩ := hnumeric.bloom
          by_cases hunit : n.InUnit
          · exact ⟨_, .accepted _ hkeys hmade hspeeds ⟨n, hn, hunit⟩⟩
          · exact ⟨_, .badBloom _ hkeys hmade hspeeds ⟨n, hn, hunit⟩⟩
        · exact ⟨_, .notPositive _ hkeys hmade ((not_positive_iff hnumeric.speeds).mp hspeeds)⟩
      · obtain ⟨v, hbad⟩ := Classical.not_forall.mp hbg
        obtain ⟨hv, hbad⟩ := Classical.not_imp.mp hbad
        exact ⟨_, .badBgColor v hkeys hfg hv hbad⟩
    · obtain ⟨v, hbad⟩ := Classical.not_forall.mp hfg
      obtain ⟨hv, hbad⟩ := Classical.not_imp.mp hbad
      exact ⟨_, .badFgColor v hkeys hv hbad⟩
  · refine ⟨_, .unknownKeys (unknownKeys members) (fun hnil => ?_) (pairwise_unknownKeys members)
      (unknownKeys_perm members)⟩
    exact hkeys (unknownKeys_eq_nil_iff.mp hnil)

/-- A refusal is one of settings. -/
theorem Answer.kind? {e : SettingsError} {text : String} (h : c.Answer members (.error (e, text))) :
    e.kind? = some .badSettings := by
  cases h <;> rfl

/-- **What an object is answered with.** The unknown keys are named first; then come the colours,
the speeds and the bloom strength, each with its own text. Each refusal is one of settings. Accepted
settings hold what the object says, and a frame has as many cycles as the rates say, rounded down,
and at least one. -/
theorem withOverrides_eq_iff_answer (hc : c.Numeric) (hmembers : NumericMembers members) :
    (∀ r, ((c.withOverrides members).mapError fun e => (e, e.message)) = r ↔
      c.Answer members r) ∧
      (∀ e, c.withOverrides members = .error e → e.kind? = some .badSettings) ∧
      ∀ made, c.withOverrides members = .ok made →
        ∃ clock frame, made.clockHz.int? = some clock ∧ made.frameHz.int? = some frame ∧
          made.cyclesPerFrame = .ok (.int (max 1 (clock.fdiv frame))) := by
  have hiff (r : Except (SettingsError × String) Settings) :
      c.answer members = r ↔ c.Answer members r := by
    constructor
    · intro h
      obtain ⟨r', hanswer⟩ := exists_answer hc hmembers
      rw [← h, hanswer.eq hc hmembers]
      exact hanswer
    · exact Answer.eq hc hmembers
  refine ⟨hiff, fun e he => ((hiff _).mp (answer_of_error he)).kind?, fun made hmade => ?_⟩
  cases (hiff _).mp (answer_of_ok hmade) with
  | accepted made hkeys htakes hspeeds hbloom =>
      obtain ⟨clock, hclock, -⟩ := hspeeds made.clockHz (by simp [speeds])
      obtain ⟨frame, hframe, hpos⟩ := hspeeds made.frameHz (by simp [speeds])
      refine ⟨clock, frame, hclock, hframe, ?_⟩
      rw [cyclesPerFrame_eq (Value.number?_of_int? hclock) (Value.number?_of_int? hframe),
        Number.floorDiv, if_neg (by omega)]
      show Except.ok (Number.atLeastOne (.int (clock.fdiv frame))) = _
      rw [Number.atLeastOne]
      split
      · rw [Int.max_eq_right (by omega)]
      · rw [Int.max_eq_left (by omega)]

/-- An object with a good colour, a scale that counts as zero and a NaN for the bloom strength. -/
def twoDefects : Members :=
  [("bloom_strength", .float (0.0 / 0.0)), ("scale", .bool false),
    ("fg_color", .array [.bool true, .int 0, .int 255])]

/-- Of the two defects, the one of the scale is reported. -/
theorem twoDefects_answer :
    Numeric {} ∧ NumericMembers twoDefects ∧
      ((withOverrides {} twoDefects).mapError fun e => (e, e.message)) =
        .error (.notPositive, "scale, clock_hz and frame_hz must be positive") := by
  have hnumeric : Numeric {} := by
    refine ⟨fun v hv => ?_, ⟨_, rfl⟩⟩
    simp only [speeds, List.mem_cons, List.not_mem_nil, or_false] at hv
    rcases hv with rfl | rfl | rfl <;> exact ⟨_, rfl⟩
  have hmembers : NumericMembers twoDefects := by
    refine ⟨fun key hkey v hv => ?_, fun v hv => ?_⟩
    · simp only [speedKeys, List.mem_cons, List.not_mem_nil, or_false] at hkey
      rcases hkey with rfl | rfl | rfl <;> cases hv
      exact ⟨_, rfl⟩
    · cases hv
      exact ⟨_, rfl⟩
  have hkeys : ∀ key ∈ twoDefects.keys, key ∈ keys := by decide
  have hfg : ∀ v, twoDefects.find? "fg_color" = some v → v.IsColor := by
    intro v hv
    cases hv
    exact Color.isColor_iff.mpr ⟨⟨.flag true, .level 0, .level 255⟩, rfl⟩
  have hmade : Takes {} twoDefects (overridden {} twoDefects) :=
    (takes_iff hfg fun v hv => by cases hv).mpr rfl
  have hlow : ∃ v ∈ (overridden {} twoDefects).speeds, ∃ n, v.int? = some n ∧ n < 1 :=
    ⟨.bool false, List.mem_cons_self, 0, rfl, by decide⟩
  exact ⟨hnumeric, hmembers, ((withOverrides_eq_iff_answer hnumeric hmembers).1 _).mpr
    (.notPositive _ hkeys hmade hlow)⟩

end Settings

end Chip8
