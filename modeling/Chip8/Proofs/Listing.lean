import Chip8.Machine.Load
import Chip8.Proofs.Disassembly

/-!
# Chip8.Proofs.Listing

Listings, and the machine that has the listed program in memory.

A program is read as words in two places: a listing takes the bytes two by two from the program, and
a fetch takes two cells of memory at the program counter. `Lists` says what they have in common, as
a statement about a machine and some lines: at every second address from the start the line is the
text of the word that the machine would fetch there, and an odd byte at the end is shown as data.

A listing is the lines of its words one after the other (`getElem?_listing`, `getLast?_listing`), so
it can be cut between any two of them and each part listed at its own address (`listing_append`).
-/

namespace Chip8

/-- A line of a listing: an address and what is there. -/
def listingLine (address : Int) (text : String) : String := Hex.text 4 address ++ ":  " ++ text

/-- A byte that is shown as data. -/
def byteText (b : UInt8) : String := ".byte $" ++ Hex.text 2 b.toNat

variable {address : Int} {program : List UInt8} {lines : List String}

theorem listing_single (address : Int) (b : UInt8) :
    listing address [b] = .ok [listingLine address (byteText b)] := by
  have hcolon : ":  .byte $" = ":  " ++ ".byte $" := rfl
  rw [listing, listingLine, byteText, hcolon, String.append_assoc, String.append_assoc,
    String.append_assoc]

/-- Half as many lines as bytes, rounded up. -/
theorem length_listing (h : listing address program = .ok lines) :
    lines.length = (program.length + 1) / 2 := by
  fun_induction listing address program generalizing lines with
  | case1 => cases h
  | case2 => cases h
  | case3 address high low rest text htext more hmore ih =>
      cases h
      have := ih hmore
      simp only [List.length_cons]
      omega
  | case4 =>
      cases h
      simp
  | case5 =>
      cases h
      rfl

/-- The listings of two parts make up the listing of the whole, if the first part has no odd
byte. -/
theorem listing_append {more : List String} {rest : List UInt8}
    (h : listing address program = .ok lines)
    (hrest : listing (address + program.length) rest = .ok more)
    (heven : program.length % 2 = 0) : listing address (program ++ rest) = .ok (lines ++ more) := by
  fun_induction listing address program generalizing lines with
  | case1 => cases h
  | case2 => cases h
  | case3 address high low program text htext tail htail ih =>
      cases h
      simp only [List.length_cons] at hrest heven
      have htogether : listing (address + 2) (program ++ rest) = .ok (tail ++ more) := by
        refine ih htail ?_ (by omega)
        rw [← hrest]
        congr 1
        omega
      rw [List.cons_append, List.cons_append, listing, htext]
      dsimp only
      rw [htogether]
      rfl
  | case4 => cases heven
  | case5 =>
      cases h
      simpa using hrest

/-- The line of a word has its address and its text. -/
theorem getElem?_listing (h : listing address program = .ok lines) {k : Nat}
    (hk : 2 * k + 1 < program.length) :
    ∃ text, disassemble (wordOf (program.getD (2 * k) 0) (program.getD (2 * k + 1) 0)) = .ok text ∧
      lines[k]? = some (listingLine (address + 2 * k) text) := by
  fun_induction listing address program generalizing lines k with
  | case1 => cases h
  | case2 => cases h
  | case3 address high low rest text htext more hmore ih =>
      cases h
      cases k with
      | zero => exact ⟨text, htext, by simp [listingLine]⟩
      | succ k =>
          simp only [List.length_cons] at hk
          obtain ⟨text', htext', hline⟩ := ih hmore (by omega : 2 * k + 1 < rest.length)
          refine ⟨text', htext', ?_⟩
          rw [List.getElem?_cons_succ, hline]
          congr 2
          omega
  | case4 =>
      simp at hk
  | case5 => cases hk

/-- The line of an odd byte is the last one. -/
theorem getLast?_listing {last : UInt8} (h : listing address (program ++ [last]) = .ok lines)
    (heven : program.length % 2 = 0) :
    lines.getLast? = some (listingLine (address + program.length) (byteText last)) := by
  obtain ⟨front, hfront⟩ := exists_listing_eq_ok address program
  rw [listing_append hfront (listing_single _ last) heven] at h
  cases h
  exact List.getLast?_concat

namespace Machine

variable {ρ : Type}

/-- The lines list the memory of a machine from an address on, as far as `size` bytes: every two
bytes as the word that the machine would fetch there, and an odd one as data. -/
structure Lists (m : Machine ρ) (address : Int) (size : Nat) (lines : List String) : Prop where
  word (k : Nat) : 2 * k + 1 < size → ∃ w text, (m.goto (address + 2 * k)).fetch = .ok w ∧
    disassemble w = .ok text ∧ lines[k]? = some (listingLine (address + 2 * k) text)
  byte : size % 2 = 1 → ∃ b, m.memory.read? (address + size - 1) = some b ∧
    lines.getLast? = some (listingLine (address + size - 1) (byteText b))

/-- A program that has been loaded is listed as it stands in memory. -/
theorem lists_of_load {m m' : Machine ρ} {program : Array UInt8} {lines : List String}
    (hsize : program.size ≤ maxProgramSize)
    (hload : m'.memory = m.memory.overlay programStart program)
    (hlines : listing programStart program.toList = .ok lines) :
    m'.Lists programStart program.size lines where
  word k hk := by
    obtain ⟨text, htext, hline⟩ := getElem?_listing hlines hk
    refine ⟨_, text, fetch_of_program hload ?_ hsize hk rfl, ?_, hline⟩
    · rw [goto]
      push_cast
      rfl
    · simpa [wordOf] using htext
  byte hodd := by
    have hlast : program.size - 1 < program.size := by omega
    refine ⟨program[program.size - 1], ?_, ?_⟩
    · have haddress : (programStart : Int) + program.size - 1 =
          programStart + (program.size - 1 : Nat) := by omega
      rw [hload, haddress, Memory.read?_overlay _ hsize hlast]
    · -- All bytes but the last one are listed as words.
      have hne : program.toList ≠ [] := fun hnil => by simp_all
      have hsplit := List.dropLast_concat_getLast hne
      have hlength : program.toList.dropLast.length = program.size - 1 := by simp
      rw [← hsplit] at hlines
      rw [getLast?_listing hlines (by omega), hlength, List.getLast_eq_getElem,
        Array.getElem_toList]
      congr 2
      omega

end Machine

/-- **The listing of a program and the machine agree.** -/
theorem listing_agrees {ρ : Type} :
    (∀ (address : Int) (program : List UInt8), ∃ lines,
      listing address program = .ok lines ∧ lines.length = (program.length + 1) / 2) ∧
    (∀ (address : Int) (front rest : List UInt8), front.length % 2 = 0 → ∃ lines more,
      listing address front = .ok lines ∧ listing (address + front.length) rest = .ok more ∧
        listing address (front ++ rest) = .ok (lines ++ more)) ∧
    ∀ (m : Machine ρ) (program : Array UInt8), program.size ≤ maxProgramSize → ∃ m' lines,
      m.load program = (none, m') ∧ listing programStart program.toList = .ok lines ∧
        m'.Lists programStart program.size lines := by
  refine ⟨fun address program => ?_, fun address front rest heven => ?_,
    fun m program hsize => ?_⟩
  · obtain ⟨lines, hlines⟩ := exists_listing_eq_ok address program
    exact ⟨lines, hlines, length_listing hlines⟩
  · obtain ⟨lines, hlines⟩ := exists_listing_eq_ok address front
    obtain ⟨more, hmore⟩ := exists_listing_eq_ok (address + front.length) rest
    exact ⟨lines, more, hlines, hmore, listing_append hlines hmore heven⟩
  · obtain ⟨lines, hlines⟩ := exists_listing_eq_ok programStart program.toList
    refine ⟨_, lines, if_neg (Nat.not_lt.mpr hsize), hlines, ?_⟩
    exact Machine.lists_of_load (m := m) hsize rfl hlines

/-- The program `00E0`, `C2FF`, `1200` and a byte that is left over. -/
def oddProgram : Array UInt8 := #[0x00, 0xE0, 0xC2, 0xFF, 0x12, 0x00, 0xAB]

/-- It is listed as it will be fetched, and in two parts as in one. -/
theorem oddProgram_listed :
    let m : Machine CyclicNumbers := { source := ⟨[0], [0]⟩ }
    let lines := ["0200:  CLS", "0202:  RND V2, $FF", "0204:  JP $200", "0206:  .byte $AB"]
    listing programStart oddProgram.toList = .ok lines ∧
      (∃ front more, listing programStart [0x00, 0xE0, 0xC2, 0xFF] = .ok front ∧
        listing 0x204 [0x12, 0x00, 0xAB] = .ok more ∧ lines = front ++ more) ∧
      ∃ m', m.load oddProgram = (none, m') ∧ m'.Lists programStart 7 lines := by
  intro m lines
  have hlines : listing programStart oddProgram.toList = .ok lines := rfl
  obtain ⟨-, hparts, hload⟩ := @listing_agrees CyclicNumbers
  refine ⟨hlines, ?_, ?_⟩
  · obtain ⟨front, more, hfront, hmore, hwhole⟩ :=
      hparts programStart [0x00, 0xE0, 0xC2, 0xFF] [0x12, 0x00, 0xAB] rfl
    exact ⟨front, more, hfront, hmore, Except.ok.inj (hlines.symm.trans hwhole)⟩
  · obtain ⟨m', lines', hm', hlines', hlists⟩ := hload m oddProgram (by decide)
    rw [← Except.ok.inj (hlines.symm.trans hlines')] at hlists
    exact ⟨m', hm', hlists⟩

end Chip8
