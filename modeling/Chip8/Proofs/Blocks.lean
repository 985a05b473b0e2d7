import Chip8.Memory

/-!
# Chip8.Proofs.Blocks

Reading and writing several cells at once.

`Memory.writeBlock` and `Memory.readBlock` go cell by cell and stop at the first address that does
not exist. Seen from outside there is only one thing to know about such an access: whether all its
cells exist (`Memory.Spans`). If they do it works; if not, the first address that does not exist is
either the first one of all or the end of memory (`firstMissing`). A write that stops has by then
written every cell that does exist, so the memory it leaves is the same expression in both cases
(`Memory.withBytes`).
-/

namespace Chip8.Memory

variable {mem : Memory} {base : Int}

/-- The `n` cells from `base` on exist. No cells exist anywhere. -/
def Spans (base : Int) (n : Nat) : Prop := n = 0 ∨ base + n ≤ memorySize

instance (base : Int) (n : Nat) : Decidable (Spans base n) := by unfold Spans; infer_instance

/-- The first address from `base` on that is not in memory. -/
def firstMissing (base : Int) : Int := max base memorySize

/-- The byte at an address; zero outside memory. -/
def byteAt (mem : Memory) (address : Int) : UInt8 := (mem.read? address).getD 0

/-- Memory with bytes in consecutive cells from `base` on. Bytes past the end are dropped, and every
other cell is as before. -/
def withBytes (mem : Memory) (base : Int) (bytes : List UInt8) : Memory :=
  ⟨Vector.ofFn fun a =>
    if base ≤ a then bytes.getD (a - base).toNat mem.cells[a] else mem.cells[a]⟩

/-! ### Single cells -/

theorem read?_of_mem {address : Int} (h₀ : 0 ≤ address) (h₁ : address < memorySize) :
    mem.read? address = some (mem.byteAt address) := by
  cases h : mem.read? address with
  | some b => simp [byteAt, h]
  | none =>
      rw [read?_eq_none] at h
      omega

/-- A cell is read at its address. -/
theorem read?_val (mem : Memory) (a : Fin memorySize) : mem.read? a.val = some mem.cells[a] := by
  rw [read?, cell?_eq_some.mpr rfl, Option.map_some]

theorem bounds_of_read?_eq_some {address : Int} {b : UInt8} (h : mem.read? address = some b) :
    0 ≤ address ∧ address < memorySize := by
  have hin : ¬(address < 0 ∨ (memorySize : Int) ≤ address) := fun hout => by
    rw [read?_eq_none.mpr hout] at h
    cases h
  omega

theorem read?_of_le {address : Int} (h : memorySize ≤ address) : mem.read? address = none :=
  read?_eq_none.mpr (.inr h)

theorem write?_of_mem {address : Int} (b : UInt8) (h₀ : 0 ≤ address)
    (h₁ : address < memorySize) :
    mem.write? address b = some ⟨setAt mem.cells ⟨address.toNat, by omega⟩ b⟩ := by
  have hcell : cell? address = some ⟨address.toNat, by omega⟩ :=
    cell?_eq_some.mpr (by simp only; omega)
  simp [write?, hcell]

theorem write?_of_le {address : Int} (b : UInt8) (h : memorySize ≤ address) :
    mem.write? address b = none := by
  rw [write?, cell?_eq_none.mpr (.inr h)]
  rfl

/-- Two memories are equal if they have the same byte in every cell. -/
theorem ext_cells {mem mem' : Memory}
    (h : ∀ a : Fin memorySize, mem.cells[a] = mem'.cells[a]) : mem = mem' :=
  Memory.ext (ext_entries h)

@[simp] theorem cells_withBytes (mem : Memory) (base : Int) (bytes : List UInt8)
    (a : Fin memorySize) :
    (mem.withBytes base bytes).cells[a] =
      if base ≤ a.val then bytes.getD (a.val - base).toNat mem.cells[a] else mem.cells[a] := by
  simp [withBytes]

/-- Within memory a byte is read from those that were put there, or else from the old ones. -/
theorem read?_withBytes (mem : Memory) (base : Int) (bytes : List UInt8) (address : Int) :
    (mem.withBytes base bytes).read? address =
      (mem.read? address).map fun old =>
        if base ≤ address then bytes.getD (address - base).toNat old else old := by
  unfold read?
  cases hcell : cell? address with
  | none => rfl
  | some a =>
      obtain rfl := cell?_eq_some.mp hcell
      rw [Option.map_some, Option.map_some, Option.map_some, cells_withBytes]

/-- The bytes that were put into memory are read back. -/
theorem read?_withBytes_of_lt (h₀ : 0 ≤ base) {bytes : List UInt8} {k : Nat} (hk : k < bytes.length)
    (h₁ : base + k < memorySize) : (mem.withBytes base bytes).read? (base + k) = some bytes[k] := by
  rw [read?_withBytes, read?_of_mem (by omega) h₁, Option.map_some, if_pos (by omega),
    show (base + k - base).toNat = k by omega, List.getD_eq_getElem?_getD,
    List.getElem?_eq_getElem hk, Option.getD_some]

/-- A byte is as before unless one was put there. -/
theorem read?_withBytes_of_ne {bytes : List UInt8} {address : Int}
    (h : ∀ k : Nat, k < bytes.length → address ≠ base + k) :
    (mem.withBytes base bytes).read? address = mem.read? address := by
  rw [read?_withBytes]
  by_cases hfrom : base ≤ address
  · have hfar : bytes.length ≤ (address - base).toNat :=
      Nat.le_of_not_lt fun hnear => h (address - base).toNat hnear (by omega)
    simp only [if_pos hfrom, List.getD_eq_getElem?_getD, List.getElem?_eq_none hfar,
      Option.getD_none, Option.map_id_fun', id]
  · simp only [if_neg hfrom, Option.map_id_fun', id]

/-- A program laid over memory is a run of bytes in it. -/
theorem overlay_eq (mem : Memory) (base : Nat) (program : Array UInt8) :
    mem.overlay base program = mem.withBytes base program.toList := by
  refine ext_cells fun a => ?_
  rw [cells_overlay, cells_withBytes]
  by_cases h : base ≤ a.val
  · rw [if_pos h, if_pos (by omega),
      show ((a.val : Int) - (base : Int)).toNat = a.val - base by omega]
    simp
  · rw [if_neg h, if_neg (by omega)]

/-- A program that fits is read back from the start on. -/
theorem read?_overlay (mem : Memory) {program : Array UInt8} (hsize : program.size ≤ maxProgramSize)
    {k : Nat} (hk : k < program.size) :
    (mem.overlay programStart program).read? (programStart + k) = some program[k] := by
  unfold maxProgramSize at hsize
  rw [overlay_eq, read?_withBytes_of_lt (by omega) (by exact hk) (by omega), Array.getElem_toList]

/-! ### Writing -/

@[simp] theorem withBytes_nil (mem : Memory) (base : Int) : mem.withBytes base [] = mem :=
  ext_cells fun a => by simp

/-- Nothing is written behind the end of memory. -/
theorem withBytes_of_le (h : memorySize ≤ base) (bytes : List UInt8) :
    mem.withBytes base bytes = mem :=
  ext_cells fun a => by rw [cells_withBytes, if_neg (by omega)]

/-- The first byte goes into the first cell, and the others behind it. -/
theorem withBytes_cons (h₀ : 0 ≤ base) (h₁ : base < memorySize) (b : UInt8)
    (bytes : List UInt8) :
    mem.withBytes base (b :: bytes) =
      withBytes ⟨setAt mem.cells ⟨base.toNat, by omega⟩ b⟩ (base + 1) bytes := by
  refine ext_cells fun a => ?_
  simp only [cells_withBytes, getElem_setAt, Fin.ext_iff]
  rcases Int.lt_trichotomy a.val base with h | h | h
  · rw [if_neg (by omega), if_neg (by omega), if_neg (by omega)]
  · rw [if_pos (by omega), if_neg (by omega), if_pos (by omega)]
    simp [show ((a.val : Int) - base).toNat = 0 by omega]
  · rw [if_pos (by omega), if_pos (by omega), if_neg (by omega)]
    simp [show ((a.val : Int) - base).toNat = ((a.val : Int) - (base + 1)).toNat + 1 by omega]

/-! ### Where an access stops -/

theorem spans_iff (base : Int) (n : Nat) : Spans base (n + 1) ↔ base + n ≤ 4095 := by
  unfold Spans memorySize
  omega

theorem not_spans_iff (base : Int) (n : Nat) : ¬Spans base n ↔ 1 ≤ n ∧ 4095 < base + n - 1 := by
  unfold Spans memorySize
  omega

/-- An access that begins behind the end of memory stops at its first cell. -/
theorem not_spans_of_le (h : memorySize ≤ base) {n : Nat} (hn : n ≠ 0) : ¬Spans base n := by
  unfold Spans
  omega

theorem firstMissing_of_le (h : memorySize ≤ base) : firstMissing base = base := by
  unfold firstMissing
  omega

/-- An access that begins inside memory is one cell, and the access to the cells behind it. -/
theorem spans_succ (h : base < memorySize) (n : Nat) : Spans base (n + 1) ↔ Spans (base + 1) n := by
  unfold Spans
  omega

theorem firstMissing_succ (h : base < memorySize) :
    firstMissing (base + 1) = firstMissing base := by
  unfold firstMissing
  omega

/-- What a write leaves, and the address it stops at. -/
theorem writeBlock_eq (mem : Memory) (h₀ : 0 ≤ base) (bytes : List UInt8) :
    mem.writeBlock base bytes =
      (mem.withBytes base bytes,
        if Spans base bytes.length then none else some (firstMissing base)) := by
  induction bytes generalizing mem base with
  | nil => simp [writeBlock, Spans]
  | cons b bytes ih =>
      by_cases h₁ : base < memorySize
      · rw [writeBlock, write?_of_mem b h₀ h₁]
        dsimp only
        rw [ih _ (by omega), ← withBytes_cons h₀ h₁]
        simp only [List.length_cons, spans_succ h₁, firstMissing_succ h₁]
      · have h : (memorySize : Int) ≤ base := by omega
        rw [writeBlock, write?_of_le b h, withBytes_of_le h,
          if_neg (not_spans_of_le h (by simp)), firstMissing_of_le h]

/-! ### Reading -/

/-- The `n` bytes from an address on. -/
def bytesAt (mem : Memory) (base : Int) (n : Nat) : List UInt8 :=
  (List.range n).map fun (k : Nat) => mem.byteAt (base + k)

theorem bytesAt_succ (mem : Memory) (base : Int) (n : Nat) :
    mem.bytesAt base (n + 1) = mem.byteAt base :: mem.bytesAt (base + 1) n := by
  simp only [bytesAt, List.range_succ_eq_map, List.map_cons, List.map_map]
  congr 1
  · simp
  · refine List.map_congr_left fun k _ => ?_
    simp only [Function.comp_apply]
    congr 1
    omega

/-- What a read gives, or the address it stops at. -/
theorem readBlock_eq (mem : Memory) (h₀ : 0 ≤ base) (n : Nat) :
    mem.readBlock base n =
      if Spans base n then .ok (mem.bytesAt base n) else .error (firstMissing base) := by
  induction n generalizing base with
  | zero => simp [readBlock, Spans, bytesAt]
  | succ n ih =>
      by_cases h₁ : base < memorySize
      · rw [readBlock, read?_of_mem h₀ h₁]
        dsimp only
        rw [ih (by omega), bytesAt_succ]
        simp only [spans_succ h₁, firstMissing_succ h₁]
        split <;> rfl
      · have h : (memorySize : Int) ≤ base := by omega
        rw [readBlock, read?_of_le h, if_neg (not_spans_of_le h (by simp)), firstMissing_of_le h]

-- From here on memory with bytes in it is known by its cells. Comparing two machines would
-- otherwise unfold all of them.
attribute [irreducible] withBytes

end Chip8.Memory
