import Chip8.Files

/-!
# Chip8.Proofs.Paths

Paths that are tidy already.

The components of a path that was joined with slashes are what was joined (`componentsOf_join`).
Tidying a path drops the components that lead nowhere and joins the others again. A plain path has
no such component, so tidying leaves it alone (`tidyPath_of_isPlain`), and the file that is opened
under it is its own.
-/

namespace Chip8

namespace FileArea

/-- Characters without a slash are one component. -/
theorem betweenSlashes_of_notMem {name : List Char} (h : '/' ∉ name) :
    betweenSlashes name = [name] := by
  induction name with
  | nil => rfl
  | cons c name ih =>
      rw [List.mem_cons, not_or] at h
      obtain ⟨hc, hname⟩ := h
      rw [betweenSlashes, ih hname]
      exact if_neg (Ne.symm hc)

/-- A slash ends a component. -/
theorem betweenSlashes_append_cons {name : List Char} (h : '/' ∉ name) (rest : List Char) :
    betweenSlashes (name ++ '/' :: rest) = name :: betweenSlashes rest := by
  induction name with
  | nil => rfl
  | cons c name ih =>
      rw [List.mem_cons, not_or] at h
      obtain ⟨hc, hname⟩ := h
      rw [List.cons_append, betweenSlashes, ih hname]
      exact if_neg (Ne.symm hc)

theorem betweenSlashes_intercalate {names : List (List Char)} (hne : names ≠ [])
    (h : ∀ name ∈ names, '/' ∉ name) : betweenSlashes (['/'].intercalate names) = names := by
  induction names with
  | nil => exact absurd rfl hne
  | cons name names ih =>
      obtain ⟨hname, hnames⟩ := List.forall_mem_cons.mp h
      cases names with
      | nil =>
          rw [List.intercalate_singleton]
          exact betweenSlashes_of_notMem hname
      | cons next names =>
          rw [List.intercalate_cons_cons, List.append_assoc, List.singleton_append,
            betweenSlashes_append_cons hname, ih (List.cons_ne_nil _ _) hnames]

/-- **Splitting a path undoes joining it.** -/
theorem componentsOf_join {names : List String} (hne : names ≠ [])
    (h : ∀ name ∈ names, '/' ∉ name.toList) : componentsOf ("/".intercalate names) = names := by
  have hchars : ∀ name ∈ names.map String.toList, '/' ∉ name := by
    intro name hname
    obtain ⟨text, htext, rfl⟩ := List.mem_map.mp hname
    exact h text htext
  rw [componentsOf, String.toList_intercalate]
  show (betweenSlashes (['/'].intercalate _)).map String.ofList = names
  rw [betweenSlashes_intercalate (by simpa using hne) hchars, List.map_map]
  simp

/-- A leading slash has nothing before it. -/
theorem componentsOf_slash (path : String) :
    componentsOf ("/" ++ path) = "" :: componentsOf path := by
  rw [componentsOf, String.toList_append]
  rfl

end FileArea

open FileArea

/-- The text can be the name of a file or of a directory, and leads somewhere. -/
structure IsName (name : String) : Prop where
  ne_empty : name ≠ ""
  ne_dot : name ≠ "."
  no_slash : '/' ∉ name.toList

/-- The path is made of names, behind a root or from where one is. -/
def IsPlain (path : String) : Prop :=
  ∃ root ∈ ["", "/", "//"], ∃ names : List String,
    names ≠ [] ∧ (∀ name ∈ names, IsName name) ∧ path = root ++ "/".intercalate names

/-- The names of a plain path are those it is made of. -/
theorem namesOf_of_isPlain {root : String} (hroot : root ∈ ["", "/", "//"]) {names : List String}
    (hne : names ≠ []) (hnames : ∀ name ∈ names, IsName name) :
    namesOf (root ++ "/".intercalate names) = names.reverse := by
  have hkept : names.filter (fun name => name != "" && name != ".") = names := by
    refine List.filter_eq_self.mpr fun name hname => ?_
    simp [(hnames name hname).ne_empty, (hnames name hname).ne_dot]
  have hjoin := componentsOf_join hne fun name hname => (hnames name hname).no_slash
  simp only [List.mem_cons, List.not_mem_nil, or_false] at hroot
  rw [namesOf]
  -- The root adds components without a name in them, which are dropped.
  rcases hroot with rfl | rfl | rfl
  · rw [String.empty_append, hjoin, hkept]
  · rw [componentsOf_slash, hjoin]
    exact congrArg List.reverse hkept
  · rw [show "//" = "/" ++ "/" from rfl, String.append_assoc, componentsOf_slash,
      componentsOf_slash, hjoin]
    exact congrArg List.reverse hkept

/-- What is made of names does not begin with a slash. -/
theorem takeWhile_slash_of_isName {names : List String} (hnames : ∀ name ∈ names, IsName name) :
    (['/'].intercalate (names.map String.toList)).takeWhile (· = '/') = [] := by
  cases names with
  | nil => rfl
  | cons name names =>
      have hname := hnames name List.mem_cons_self
      have hchars : name.toList ≠ [] := by simpa using hname.ne_empty
      obtain ⟨c, rest, hc⟩ := List.exists_cons_of_ne_nil hchars
      have hslash : c ≠ '/' := fun h => hname.no_slash (by rw [hc, h]; exact List.mem_cons_self)
      cases names with
      | nil => simp [hc, hslash]
      | cons next names =>
          rw [List.map_cons, List.map_cons, List.intercalate_cons_cons, hc]
          simp [hslash]

/-- What is made of names is not empty. -/
theorem intercalate_ne_empty {names : List String} (hne : names ≠ [])
    (hnames : ∀ name ∈ names, IsName name) : "/".intercalate names ≠ "" := by
  intro hempty
  have hjoin := componentsOf_join hne fun name hname => (hnames name hname).no_slash
  rw [hempty] at hjoin
  exact (hnames "" (hjoin ▸ List.mem_cons_self)).ne_empty rfl

/-- **A plain path is tidy.** -/
theorem tidyPath_of_isPlain {path : String} (h : IsPlain path) : tidyPath path = path := by
  obtain ⟨root, hroot, names, hne, hnames, rfl⟩ := h
  have hbegin := takeWhile_slash_of_isName hnames
  have hempty := intercalate_ne_empty hne hnames
  rw [tidyPath, namesOf_of_isPlain hroot hne hnames, List.reverse_reverse]
  simp only [List.mem_cons, List.not_mem_nil, or_false] at hroot
  rcases hroot with rfl | rfl | rfl <;> simp [hbegin, hempty]

end Chip8
