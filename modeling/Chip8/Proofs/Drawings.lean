import Chip8.Proofs.Pixels

/-!
# Chip8.Proofs.Drawings

Several sprites, one after the other.

Drawing is switching cells, and a pixel only remembers how often it was switched (`isLit_paint`). So
the cells of several sprites may be switched in any order (`paint_perm`), and switching all of them
a second time takes the first time back (`paint_again`). Which of the sprites is told of a lit pixel
that went dark does depend on the order. Whether any of them is told does not, because that is again
a matter of counting (`snd_paint_iff`).
-/

namespace Chip8.Screen

/-- A sprite, and where its top left corner goes. -/
structure Drawing where
  x : Int
  y : Int
  sprite : List Int

/-- The cells that a drawing switches. -/
def Drawing.cells (d : Drawing) : List Cell := spriteCells d.x d.y d.sprite

/-- Draws one sprite after the other. The second component has the flag of each of them. -/
def drawAll? (s : Screen) : List Drawing → Option (Screen × List Bool)
  | [] => some (s, [])
  | d :: ds =>
    match s.draw? d.x d.y d.sprite with
    | none => none
    | some (t, hit) => (t.drawAll? ds).map fun (u, hits) => (u, hit :: hits)

/-- Drawing several sprites is switching all their cells. Each sprite has a flag, and some flag is
up if a lit pixel was switched off anywhere on the way. -/
theorem exists_drawAll? {s : Screen} (hw : 0 < s.width) (hh : 0 < s.height) (ds : List Drawing) :
    ∃ hits, s.drawAll? ds = some ((s.paint (ds.flatMap Drawing.cells)).1, hits) ∧
      hits.length = ds.length ∧
      (true ∈ hits ↔ (s.paint (ds.flatMap Drawing.cells)).2 = true) := by
  induction ds generalizing s with
  | nil => exact ⟨[], rfl, rfl, by simp⟩
  | cons d ds ih =>
      obtain ⟨hits, hdraw, hlength, hmem⟩ :=
        ih (s := (s.paint d.cells).1) (by simpa using hw) (by simpa using hh)
      refine ⟨(s.paint d.cells).2 :: hits, ?_, congrArg (· + 1) hlength, ?_⟩
      · rw [drawAll?, draw?_of_pos hw hh, List.flatMap_cons, paint_append]
        dsimp only
        rw [show spriteCells d.x d.y d.sprite = d.cells from rfl, hdraw]
        rfl
      · rw [List.mem_cons, hmem, List.flatMap_cons, paint_append, Bool.or_eq_true, eq_comm]

/-! ### Cells in another order, and cells a second time -/

theorem toggles_perm (s : Screen) {cells more : List Cell} (h : cells.Perm more) (d : Cell) :
    s.toggles cells d = s.toggles more d :=
  h.countP_eq _

theorem toggles_append (s : Screen) (cells more : List Cell) (d : Cell) :
    s.toggles (cells ++ more) d = s.toggles cells d + s.toggles more d :=
  List.countP_append

/-- The order in which cells are switched shows neither in the pixels nor in the flag. -/
theorem paint_perm {s : Screen} (hw : 0 < s.width) (hh : 0 < s.height) {cells more : List Cell}
    (h : cells.Perm more) : s.paint cells = s.paint more := by
  refine Prod.ext ?_ ?_
  · refine ext_isLit (by simp) (by simp) fun px _ py _ => ?_
    rw [isLit_paint hw hh, isLit_paint hw hh, toggles_perm s h]
  · rw [Bool.eq_iff_iff, snd_paint_iff hw hh, snd_paint_iff hw hh]
    simp only [toggles_perm s h]

/-- Switching cells twice leaves the screen as it was, and switches something off unless there are
no cells: a pixel that was dark is lit by then. -/
theorem paint_again {s : Screen} (hw : 0 < s.width) (hh : 0 < s.height) (cells : List Cell) :
    (s.paint (cells ++ cells)).1 = s ∧ ((s.paint (cells ++ cells)).2 = true ↔ cells ≠ []) := by
  constructor
  · refine ext_isLit (by simp) (by simp) fun px _ py _ => ?_
    rw [isLit_paint hw hh, toggles_append, decide_eq_false (by omega), Bool.xor_false]
  · rw [snd_paint_iff hw hh]
    constructor
    · rintro ⟨d, hd⟩ rfl
      have := Bool.toNat_le (s.isLit d)
      simp only [toggles, List.append_nil, List.countP_nil] at hd
      omega
    · intro hne
      -- The first cell is switched at least twice, and one of two switches finds it lit.
      obtain ⟨c, rest, rfl⟩ := List.exists_cons_of_ne_nil hne
      refine ⟨c, ?_⟩
      rw [toggles_append, toggles_cons, if_pos ⟨rfl, rfl⟩]
      omega

/-- Drawings have cells as soon as one of them has a row with a set bit. -/
theorem flatMap_cells_ne_nil_iff {ds : List Drawing} :
    ds.flatMap Drawing.cells ≠ [] ↔ ∃ d ∈ ds, ∃ row ∈ d.sprite, row % 256 ≠ 0 := by
  simp [Drawing.cells, spriteCells_eq_nil_iff]

/-- **Sprites may be drawn in any order.** Two orders of the same drawings leave the same screen,
and in both or in neither some sprite switches off a lit pixel. Drawing all of them again, in
whatever order, restores the screen; by then some sprite has switched off a lit pixel, unless no
sprite has a set bit. -/
theorem drawings_in_any_order {s : Screen} (hw : 0 < s.width) (hh : 0 < s.height)
    {ds es : List Drawing} (hperm : ds.Perm es) :
    ∃ t hits hits' back,
      s.drawAll? ds = some (t, hits) ∧ s.drawAll? es = some (t, hits') ∧
      (true ∈ hits ↔ true ∈ hits') ∧
      t.drawAll? es = some (s, back) ∧
      (true ∈ hits ∨ true ∈ back ↔ ∃ d ∈ ds, ∃ row ∈ d.sprite, row % 256 ≠ 0) := by
  have hcells : (es.flatMap Drawing.cells).Perm (ds.flatMap Drawing.cells) :=
    hperm.symm.flatMap_right _
  obtain ⟨hits, hdraw, -, hmem⟩ := exists_drawAll? hw hh ds
  obtain ⟨hits', hdraw', -, hmem'⟩ := exists_drawAll? hw hh es
  obtain ⟨back, hagain, -, hback⟩ :=
    exists_drawAll? (s := (s.paint (ds.flatMap Drawing.cells)).1) (by simpa using hw)
      (by simpa using hh) es
  rw [paint_perm hw hh hcells] at hdraw' hmem'
  rw [paint_perm (by simpa using hw) (by simpa using hh) hcells] at hagain hback
  -- The second pass goes on where the first one stopped.
  have htwice := paint_append s (ds.flatMap Drawing.cells) (ds.flatMap Drawing.cells)
  obtain ⟨hrestored, hflag⟩ := paint_again hw hh (ds.flatMap Drawing.cells)
  rw [htwice] at hrestored hflag
  dsimp only at hrestored hflag
  refine ⟨_, hits, hits', back, hdraw, hdraw', hmem.trans hmem'.symm, ?_, ?_⟩
  · rw [hagain, hrestored]
  · rw [hmem, hback, ← Bool.or_eq_true, hflag, flatMap_cells_ne_nil_iff]

/-- Two sprites that overlap in one pixel. The first one also covers the pixel that is lit. -/
def overlapping : List Drawing := [⟨0, 0, [0xC0]⟩, ⟨1, 0, [0x80]⟩]

/-- In one order both of them switch off a lit pixel, in the other only the last one. -/
theorem drawings_overlapping :
    (0 < narrow.width ∧ 0 < narrow.height ∧ overlapping.Perm overlapping.reverse) ∧
      ∃ t back, narrow.drawAll? overlapping = some (t, [true, true]) ∧
        narrow.drawAll? overlapping.reverse = some (t, [false, true]) ∧
        t.drawAll? overlapping.reverse = some (narrow, back) := by
  have hperm : overlapping.Perm overlapping.reverse := (List.reverse_perm _).symm
  obtain ⟨t, hits, hits', back, hdraw, hdraw', -, hagain, -⟩ :=
    drawings_in_any_order (s := narrow) (by decide) (by decide) hperm
  have hhits : (narrow.drawAll? overlapping).map Prod.snd = some [true, true] := by decide
  have hhits' : (narrow.drawAll? overlapping.reverse).map Prod.snd = some [false, true] := by decide
  rw [hdraw, Option.map_some, Option.some_inj] at hhits
  rw [hdraw', Option.map_some, Option.some_inj] at hhits'
  dsimp only at hhits hhits'
  subst hhits hhits'
  exact ⟨⟨by decide, by decide, hperm⟩, t, back, hdraw, hdraw', hagain⟩

end Chip8.Screen
