/-!
# Chip8.Indexed

Vectors indexed by the numbers below their length.

Registers, keys, stack slots, memory cells and the pixels of a row are kept in vectors of a fixed
length, and what names an entry is a `Fin` of that length. Such a number is always an index, so
`xs[k]` asks for no proof here, and statements about entries carry none.
-/

namespace Chip8

-- Zero is the core library's, whatever other zeros are in scope.
attribute [local instance (high)] Zero.ofOfNat0

/-- Registers, keys and stack slots come in sixteens, and are written as numerals. -/
instance neZero_sixteen : NeZero 16 := ⟨by decide⟩

variable {α : Type} {n : Nat}

/-- An entry of a vector, by a number below its length. -/
instance getElem_vector_fin : GetElem (Vector α n) (Fin n) α fun _ _ => True where
  getElem xs k _ := xs.get k

/-- The vector with one entry replaced. -/
def setAt (xs : Vector α n) (k : Fin n) (a : α) : Vector α n := xs.set k a

/-- An entry by the number itself. -/
theorem getElem_val (xs : Vector α n) (k : Fin n) : xs[k.val] = xs[k] := rfl

@[simp] theorem getElem_setAt (xs : Vector α n) (k j : Fin n) (a : α) :
    (setAt xs k a)[j] = if k = j then a else xs[j] := by
  rw [← getElem_val, ← getElem_val, setAt, Vector.getElem_set]
  simp only [Fin.ext_iff]

@[simp] theorem getElem_ofFn (f : Fin n → α) (k : Fin n) : (Vector.ofFn f)[k] = f k := by
  rw [← getElem_val, Vector.getElem_ofFn]

@[simp] theorem getElem_replicate (a : α) (k : Fin n) : (Vector.replicate n a)[k] = a := by
  rw [← getElem_val, Vector.getElem_replicate]

/-- Two vectors are equal if they have the same entries. -/
theorem ext_entries {xs ys : Vector α n} (h : ∀ k : Fin n, xs[k] = ys[k]) : xs = ys :=
  Vector.ext fun k hk => h ⟨k, hk⟩

end Chip8
