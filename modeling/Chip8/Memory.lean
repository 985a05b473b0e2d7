import Chip8.Bitwise
import Chip8.Indexed
/-!
# Chip8.Memory

The 4096 bytes of memory, the built-in font and where programs go.

Design points:

* Addresses are integers. The index register and the program counter are never masked, so an access
  may name any integer, and the memory alone decides whether it exists: `read?` and `write?` answer
  `none` outside `0 … 4095`.
* An access to several cells runs in address order and stops at the first cell that does not exist.
  `writeBlock` keeps what it wrote before that point and says which address failed, because an
  instruction that faults half-way leaves its first bytes behind.
* The size is part of the type, so no operation can lengthen or shorten the memory.
-/

namespace Chip8

/-- The address of the first byte of a program. The font lies below it. -/
def programStart : Nat := 0x200

def memorySize : Nat := 4096

/-- The longest program that fits between `programStart` and the end of memory. -/
def maxProgramSize : Nat := memorySize - programStart

/-- The bytes of one glyph of the built-in font: five rows of eight pixels. -/
def glyphSize : Nat := 5

/-- The font: a 4×5 picture of each hexadecimal digit, in the upper half of its bytes. -/
def font : Array UInt8 := #[
  0xF0, 0x90, 0x90, 0x90, 0xF0,  -- 0
  0x20, 0x60, 0x20, 0x20, 0x70,  -- 1
  0xF0, 0x10, 0xF0, 0x80, 0xF0,  -- 2
  0xF0, 0x10, 0xF0, 0x10, 0xF0,  -- 3
  0x90, 0x90, 0xF0, 0x10, 0x10,  -- 4
  0xF0, 0x80, 0xF0, 0x10, 0xF0,  -- 5
  0xF0, 0x80, 0xF0, 0x90, 0xF0,  -- 6
  0xF0, 0x10, 0x20, 0x40, 0x40,  -- 7
  0xF0, 0x90, 0xF0, 0x90, 0xF0,  -- 8
  0xF0, 0x90, 0xF0, 0x10, 0xF0,  -- 9
  0xF0, 0x90, 0xF0, 0x90, 0x90,  -- A
  0xE0, 0x90, 0xE0, 0x90, 0xE0,  -- B
  0xF0, 0x80, 0x80, 0x80, 0xF0,  -- C
  0xE0, 0x90, 0x90, 0x90, 0xE0,  -- D
  0xF0, 0x80, 0xF0, 0x80, 0xF0,  -- E
  0xF0, 0x80, 0xF0, 0x80, 0x80]  -- F

@[ext] structure Memory where
  cells : Vector UInt8 memorySize

namespace Memory

def blank : Memory := ⟨Vector.replicate memorySize 0⟩

/-- The cell that an address names, if there is one. -/
def cell? (address : Int) : Option (Fin memorySize) :=
  if h : 0 ≤ address ∧ address < memorySize then some ⟨address.toNat, by omega⟩ else none

def read? (mem : Memory) (address : Int) : Option UInt8 :=
  (cell? address).map (mem.cells[·])

/-- The memory with one byte replaced. -/
def write? (mem : Memory) (address : Int) (b : UInt8) : Option Memory :=
  (cell? address).map fun (a : Fin memorySize) => ⟨setAt mem.cells a b⟩

/-- The `n` bytes from `address` on, or the first of their addresses that does not exist. -/
def readBlock (mem : Memory) (address : Int) : Nat → Except Int (List UInt8)
  | 0 => .ok []
  | n + 1 =>
    match mem.read? address with
    | none => .error address
    | some b => (mem.readBlock (address + 1) n).map (b :: ·)

/-- Writes bytes from `address` on, as far as memory reaches. The second component is the first
address that does not exist, if the bytes did not all fit. -/
def writeBlock (mem : Memory) (address : Int) : List UInt8 → Memory × Option Int
  | [] => (mem, none)
  | b :: bs =>
    match mem.write? address b with
    | none => (mem, some address)
    | some mem => mem.writeBlock (address + 1) bs

/-- Lays `data` over the memory from `base` on. Bytes past the end are dropped. -/
def overlay (mem : Memory) (base : Nat) (data : Array UInt8) : Memory :=
  ⟨Vector.ofFn fun a =>
    if base ≤ a then data.getD (a - base) mem.cells[a] else mem.cells[a]⟩

/-- The memory of a machine that has just been built: the font at address zero. -/
def initial : Memory := blank.overlay 0 font

/-! ### What each operation does, cell by cell -/

theorem cell?_eq_some {address : Int} {a : Fin memorySize} :
    cell? address = some a ↔ address = (a : Nat) := by
  unfold cell?
  split
  · rename_i h
    constructor
    · intro heq
      cases heq
      simp only
      omega
    · intro heq
      subst heq
      simp
  · rename_i h
    constructor
    · intro heq; cases heq
    · intro heq
      have := a.isLt
      exact absurd ⟨by omega, by omega⟩ h

theorem cell?_eq_none {address : Int} :
    cell? address = none ↔ address < 0 ∨ (memorySize : Int) ≤ address := by
  unfold cell?
  split <;> simp <;> omega

theorem read?_eq_none {mem : Memory} {address : Int} :
    mem.read? address = none ↔ address < 0 ∨ (memorySize : Int) ≤ address := by
  simp [read?, cell?_eq_none]

/-- A byte that was just written is read back, and every other byte is as before. -/
theorem read?_write? {mem mem' : Memory} {a : Int} {b : UInt8} (h : mem.write? a b = some mem')
    (a' : Int) : mem'.read? a' = if a' = a then some b else mem.read? a' := by
  obtain ⟨c, hc, rfl⟩ := Option.map_eq_some_iff.mp h
  have hac := cell?_eq_some.mp hc
  unfold read?
  cases hc' : cell? a' with
  | none =>
    have hne : a' ≠ a := by
      intro heq
      rw [heq, hc] at hc'
      cases hc'
    simp [hne]
  | some c' =>
    have hac' := cell?_eq_some.mp hc'
    simp only [Option.map_some, getElem_setAt]
    by_cases heq : a' = a
    · have : c = c' := by omega
      simp [heq, this]
    · have : c ≠ c' := by omega
      simp [heq, this]

/-- A byte under the data comes from the data, and every other byte is as before. -/
theorem cells_overlay (mem : Memory) (base : Nat) (data : Array UInt8) (a : Fin memorySize) :
    (mem.overlay base data).cells[a] =
      if base ≤ a then data.getD (a - base) mem.cells[a] else mem.cells[a] := by
  simp [overlay]

end Memory

end Chip8
