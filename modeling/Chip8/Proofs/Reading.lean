import Chip8.Proofs.Disassembly

/-!
# Chip8.Proofs.Reading

Written forms read back.

A written form is a word for the operation and its operands behind it (`Instruction.word`,
`Instruction.operands`). `Instruction.read?` takes a text apart again, and `read?_mnemonic` says
that it finds the instruction that was written. So no two instructions share a text, although one
word may stand for eleven of them and `B` and `F` are digits as well as names of operands.

A text also tells what an opcode does to a machine (`execute_eq_of_disassemble_eq`). The only thing
it leaves out is the second register field of a shift, which has no meaning; all other words of
sixteen bits are written out in full, those that are no instruction as well.
-/

namespace Chip8

-- Powers are the core library's, whatever other powers are in scope.
attribute [local instance (high)] instPowNat

/-! ### Hexadecimal numbers -/

namespace Hex

/-- The number that an upper-case digit stands for. -/
def digitValue (c : Char) : Nat :=
  if c.isDigit then c.toNat - '0'.toNat else c.toNat - 'A'.toNat + 10

/-- The number that is written with these digits. -/
def value (ds : List Char) : Nat := ds.foldl (fun n c => 16 * n + digitValue c) 0

/-- The last digit stands for the remainder, the others for the quotient. -/
theorem digits_eq (n : Nat) :
    digits n =
      if n < 16 then [n.digitChar.toUpper]
      else digits (n / 16) ++ [(n % 16).digitChar.toUpper] := by
  unfold digits
  rw [Nat.toDigits_eq_if (by decide)]
  split <;> simp

theorem digitValue_digitChar : ∀ k < 16, digitValue k.digitChar.toUpper = k := by decide

theorem digitChar_isAlphanum : ∀ k < 16, k.digitChar.toUpper.isAlphanum = true := by decide

theorem value_digits (n : Nat) : value (digits n) = n := by
  induction n using Nat.strongRecOn with
  | ind n ih =>
      rw [digits_eq]
      split
      · rename_i hlt
        simp [value, digitValue_digitChar n hlt]
      · have hquotient : value (digits (n / 16)) = n / 16 := ih _ (by omega)
        have hremainder := digitValue_digitChar (n % 16) (by omega)
        rw [value] at hquotient
        rw [value, List.foldl_append, List.foldl_cons, List.foldl_nil, hquotient, hremainder]
        omega

/-- Leading zeros do not matter. -/
theorem value_padded (width n : Nat) : value (padded width n) = n := by
  have hzeros (k : Nat) :
      (List.replicate k '0').foldl (fun n c => 16 * n + digitValue c) 0 = 0 := by
    induction k with
    | zero => rfl
    | succ k ih => rw [List.replicate_succ]; exact ih
  rw [value, padded, List.foldl_append, hzeros]
  exact value_digits n

theorem isAlphanum_of_mem_digits {n : Nat} {c : Char} (h : c ∈ digits n) :
    c.isAlphanum = true := by
  induction n using Nat.strongRecOn with
  | ind n ih =>
      rw [digits_eq] at h
      split at h
      · rename_i hlt
        rw [List.mem_singleton.mp h]
        exact digitChar_isAlphanum n hlt
      · rcases List.mem_append.mp h with hmem | hmem
        · exact ih _ (by omega) hmem
        · rw [List.mem_singleton.mp hmem]
          exact digitChar_isAlphanum (n % 16) (by omega)

/-- Numbers are written without blanks and commas. -/
theorem isAlphanum_of_mem_padded {width n : Nat} {c : Char} (h : c ∈ padded width n) :
    c.isAlphanum = true := by
  rcases List.mem_append.mp h with hmem | hmem
  · rw [List.eq_of_mem_replicate hmem]
    decide
  · exact isAlphanum_of_mem_digits hmem

/-- A number that fits into its width fills it. -/
theorem length_padded_of_lt {width n : Nat} (hwidth : 0 < width) (h : n < 16 ^ width) :
    (padded width n).length = width := by
  have hlength : (digits n).length ≤ width := by
    rw [digits, List.length_map]
    exact (Nat.length_toDigits_le_iff (by decide) hwidth).mpr h
  rw [padded, List.length_append, List.length_replicate]
  omega

theorem text_natCast (width n : Nat) : text width n = String.ofList (padded width n) := rfl

theorem text_natCast_inj {width m n : Nat} : text width m = text width n ↔ m = n := by
  constructor
  · intro h
    rw [text_natCast, text_natCast, String.ofList_inj] at h
    rw [← value_padded width m, h, value_padded]
  · rintro rfl
    rfl

end Hex

/-- Nothing is skipped where there is no comma. -/
theorem filter_of_alphanum {cs : List Char} (h : ∀ c ∈ cs, c.isAlphanum = true) :
    cs.filter (· != ',') = cs :=
  List.filter_eq_self.mpr fun c hc => by
    rw [bne_iff_ne]
    rintro rfl
    exact absurd (h ',' hc) (by decide)

namespace Instruction

/-! ### Operands -/

/-- What stands behind the word of an instruction. -/
inductive Operand
  | register (x : Fin 16)
  | byte (b : Fin 256)
  | address (a : Fin 4096)
  | count (n : Fin 16)
  | index
  | delay
  | sound
  | key
  /-- The glyph of a digit. -/
  | glyph
  /-- The digits of a number. -/
  | decimal
  /-- The cells at the index register. -/
  | cells
  deriving DecidableEq

namespace Operand

def text : Operand → List Char
  | register x => 'V' :: Hex.padded 1 x
  | byte b => '$' :: Hex.padded 2 b
  | address a => '$' :: Hex.padded 3 a
  | count n => (toString n.val).toList
  | index => ['I']
  | delay => ['D', 'T']
  | sound => ['S', 'T']
  | key => ['K']
  | glyph => ['F']
  | decimal => ['B']
  | cells => ['[', 'I', ']']

/-- A number below a bound. -/
def below? (bound n : Nat) : Option (Fin bound) := if h : n < bound then some ⟨n, h⟩ else none

/-- Reads an operand. Bytes and addresses differ in their number of digits. -/
def read? : List Char → Option Operand
  | 'V' :: ds => (below? 16 (Hex.value ds)).map register
  | '$' :: ds =>
    if ds.length = 2 then (below? 256 (Hex.value ds)).map byte
    else (below? 4096 (Hex.value ds)).map address
  | ['I'] => some index
  | ['D', 'T'] => some delay
  | ['S', 'T'] => some sound
  | ['K'] => some key
  | ['F'] => some glyph
  | ['B'] => some decimal
  | ['[', 'I', ']'] => some cells
  | ds => (below? 16 (Nat.ofDigitChars 10 ds 0)).map count

theorem below?_val {bound : Nat} (k : Fin bound) : below? bound k.val = some k := dif_pos k.isLt

theorem isDigit_of_mem_count {n : Fin 16} {c : Char} (h : c ∈ text (.count n)) :
    c.isDigit = true := by
  rw [text, Nat.toString_eq_repr, Nat.repr_eq_ofList_toDigits, String.toList_ofList] at h
  exact Nat.isDigit_of_mem_toDigits (by decide) (by decide) h

theorem read?_count : ∀ n : Fin 16, read? (text (.count n)) = some (.count n) := by decide

/-- An operand is read back. -/
theorem read?_text (o : Operand) : read? o.text = some o := by
  cases o with
  | register x => rw [text, read?, Hex.value_padded, below?_val, Option.map_some]
  | byte b =>
      have hlength : (Hex.padded 2 b).length = 2 := Hex.length_padded_of_lt (by decide) b.isLt
      rw [text, read?, if_pos hlength, Hex.value_padded, below?_val, Option.map_some]
  | address a =>
      have hlength : (Hex.padded 3 a).length = 3 := Hex.length_padded_of_lt (by decide) a.isLt
      rw [text, read?, if_neg (by omega), Hex.value_padded, below?_val, Option.map_some]
  | count n => exact read?_count n
  | _ => rfl

theorem blank_notMem_text (o : Operand) : ' ' ∉ o.text := by
  have hpadded (width n : Nat) : ' ' ∉ Hex.padded width n := fun hmem =>
    absurd (Hex.isAlphanum_of_mem_padded hmem) (by decide)
  cases o with
  | register | byte | address => simp [text, hpadded]
  | count n => exact fun hmem => absurd (isDigit_of_mem_count hmem) (by decide)
  | _ => simp [text]

end Operand

/-! ### Instructions -/

/-- The word for the operation. -/
def word : Instruction → String
  | clear => "CLS"
  | ret => "RET"
  | jump _ | jumpOffset _ => "JP"
  | call _ => "CALL"
  | skipEqByte _ _ | skipEq _ _ => "SE"
  | skipNeByte _ _ | skipNe _ _ => "SNE"
  | loadByte _ _ | copy _ _ | loadIndex _ | readDelay _ | awaitKey _ | setDelay _ | setSound _
  | glyph _ | storeDecimal _ | storeRegisters _ | loadRegisters _ => "LD"
  | addByte _ _ | add _ _ | addIndex _ => "ADD"
  | or _ _ => "OR"
  | and _ _ => "AND"
  | xor _ _ => "XOR"
  | sub _ _ => "SUB"
  | shiftRight _ => "SHR"
  | subFrom _ _ => "SUBN"
  | shiftLeft _ => "SHL"
  | random _ _ => "RND"
  | draw _ _ _ => "DRW"
  | skipPressed _ => "SKP"
  | skipReleased _ => "SKNP"

/-- The operands behind the word. -/
def operands : Instruction → List Operand
  | clear | ret => []
  | jump a | call a => [.address a]
  | jumpOffset a => [.register 0, .address a]
  | loadIndex a => [.index, .address a]
  | skipEqByte x b | skipNeByte x b | loadByte x b | addByte x b | random x b =>
    [.register x, .byte b]
  | skipEq x y | skipNe x y | copy x y | or x y | and x y | xor x y | add x y | sub x y
  | subFrom x y => [.register x, .register y]
  | shiftRight x | shiftLeft x | skipPressed x | skipReleased x => [.register x]
  | draw x y rows => [.register x, .register y, .count rows]
  | readDelay x => [.register x, .delay]
  | awaitKey x => [.register x, .key]
  | loadRegisters x => [.register x, .cells]
  | setDelay x => [.delay, .register x]
  | setSound x => [.sound, .register x]
  | addIndex x => [.index, .register x]
  | glyph x => [.glyph, .register x]
  | storeDecimal x => [.decimal, .register x]
  | storeRegisters x => [.cells, .register x]

/-- The instruction with a word and operands. -/
def ofWritten? : String → List Operand → Option Instruction
  | "CLS", [] => some clear
  | "RET", [] => some ret
  | "JP", [.address a] => some (jump a)
  | "JP", [.register 0, .address a] => some (jumpOffset a)
  | "CALL", [.address a] => some (call a)
  | "SE", [.register x, .byte b] => some (skipEqByte x b)
  | "SE", [.register x, .register y] => some (skipEq x y)
  | "SNE", [.register x, .byte b] => some (skipNeByte x b)
  | "SNE", [.register x, .register y] => some (skipNe x y)
  | "LD", [.register x, .byte b] => some (loadByte x b)
  | "LD", [.register x, .register y] => some (copy x y)
  | "LD", [.index, .address a] => some (loadIndex a)
  | "LD", [.register x, .delay] => some (readDelay x)
  | "LD", [.register x, .key] => some (awaitKey x)
  | "LD", [.register x, .cells] => some (loadRegisters x)
  | "LD", [.delay, .register x] => some (setDelay x)
  | "LD", [.sound, .register x] => some (setSound x)
  | "LD", [.glyph, .register x] => some (glyph x)
  | "LD", [.decimal, .register x] => some (storeDecimal x)
  | "LD", [.cells, .register x] => some (storeRegisters x)
  | "ADD", [.register x, .byte b] => some (addByte x b)
  | "ADD", [.register x, .register y] => some (add x y)
  | "ADD", [.index, .register x] => some (addIndex x)
  | "OR", [.register x, .register y] => some (or x y)
  | "AND", [.register x, .register y] => some (and x y)
  | "XOR", [.register x, .register y] => some (xor x y)
  | "SUB", [.register x, .register y] => some (sub x y)
  | "SHR", [.register x] => some (shiftRight x)
  | "SUBN", [.register x, .register y] => some (subFrom x y)
  | "SHL", [.register x] => some (shiftLeft x)
  | "RND", [.register x, .byte b] => some (random x b)
  | "DRW", [.register x, .register y, .count rows] => some (draw x y rows)
  | "SKP", [.register x] => some (skipPressed x)
  | "SKNP", [.register x] => some (skipReleased x)
  | _, _ => none

theorem ofWritten?_word_operands (i : Instruction) : ofWritten? i.word i.operands = some i := by
  cases i <;> rfl

/-- The word and the operands of a text. Commas are skipped, they stand at the ends of operands. -/
def parts (text : String) : List (List Char) := (text.toList.filter (· != ',')).splitOn ' '

/-- Reads an instruction. -/
def read? (text : String) : Option Instruction :=
  match parts text with
  | [] => none
  | word :: operands => (operands.mapM Operand.read?).bind (ofWritten? (String.ofList word))

/-- Without its commas an instruction is written as its word and its operands, with blanks between
them. -/
theorem mnemonic_eq (i : Instruction) :
    i.mnemonic.toList.filter (· != ',') =
      [' '].intercalate (i.word.toList :: i.operands.map Operand.text) := by
  have hpadded (width n : Nat) : (Hex.padded width n).filter (· != ',') = Hex.padded width n :=
    filter_of_alphanum fun c hc => Hex.isAlphanum_of_mem_padded hc
  have hcount (n : Fin 16) : (Nat.toDigits 10 n).filter (· != ',') = Nat.toDigits 10 n :=
    filter_of_alphanum fun c hc => by
      simp [Char.isAlphanum, Nat.isDigit_of_mem_toDigits (by decide) (by decide) hc]
  have hzero : Hex.padded 1 0 = ['0'] := by decide
  cases i <;>
    simp [mnemonic, word, operands, List.intercalate_cons_cons, List.intercalate_singleton,
      Operand.text, register, byteOperand, addressOperand, Hex.text_natCast, hpadded, hcount, hzero]

theorem parts_mnemonic (i : Instruction) :
    parts i.mnemonic = i.word.toList :: i.operands.map Operand.text := by
  have hword : ' ' ∉ i.word.toList := by cases i <;> simp [word]
  rw [parts, mnemonic_eq]
  refine List.splitOn_intercalate ' ' (fun part hpart => ?_) (List.cons_ne_nil _ _)
  rcases List.mem_cons.mp hpart with rfl | hmem
  · exact hword
  · obtain ⟨o, -, rfl⟩ := List.mem_map.mp hmem
    exact o.blank_notMem_text

theorem mapM_read?_text (os : List Operand) :
    (os.map Operand.text).mapM Operand.read? = some os := by
  induction os with
  | nil => rfl
  | cons o os ih => rw [List.map_cons, List.mapM_cons, Operand.read?_text, ih]; rfl

/-- **Reading undoes writing.** -/
theorem read?_mnemonic (i : Instruction) : read? i.mnemonic = some i := by
  rw [read?, parts_mnemonic]
  dsimp only
  rw [mapM_read?_text, String.ofList_toList]
  exact ofWritten?_word_operands i

/-- No two instructions share a text. -/
theorem mnemonic_inj {i j : Instruction} (h : i.mnemonic = j.mnemonic) : i = j := by
  have hread := congrArg read? h
  rwa [read?_mnemonic, read?_mnemonic, Option.some_inj] at hread

end Instruction

/-! ### Opcodes -/

/-- Two opcodes of one shift, with the same register in the first register field. -/
def SameShift (a b : Int) : Prop :=
  ∃ x y z : Fin 16,
    (a = 0x8006 + 0x100 * x.val + 0x10 * y.val ∧ b = 0x8006 + 0x100 * x.val + 0x10 * z.val) ∨
      (a = 0x800E + 0x100 * x.val + 0x10 * y.val ∧ b = 0x800E + 0x100 * x.val + 0x10 * z.val)

variable {a b : Int}

/-- An instruction has one opcode, unless it is a shift. -/
theorem eq_or_sameShift_iff :
    (a = b ∨ SameShift a b) ↔ a = b ∨ ∃ i : Instruction, i.HasOpcode a ∧ i.HasOpcode b := by
  constructor
  · rintro (h | ⟨x, y, z, ⟨ha, hb⟩ | ⟨ha, hb⟩⟩)
    · exact .inl h
    · exact .inr ⟨.shiftRight x, ⟨y, ha⟩, ⟨z, hb⟩⟩
    · exact .inr ⟨.shiftLeft x, ⟨y, ha⟩, ⟨z, hb⟩⟩
  · rintro (h | ⟨i, ha, hb⟩)
    · exact .inl h
    · cases i with
      | shiftRight x =>
          obtain ⟨⟨y, ha⟩, ⟨z, hb⟩⟩ := And.intro ha hb
          exact .inr ⟨x, y, z, .inl ⟨ha, hb⟩⟩
      | shiftLeft x =>
          obtain ⟨⟨y, ha⟩, ⟨z, hb⟩⟩ := And.intro ha hb
          exact .inr ⟨x, y, z, .inr ⟨ha, hb⟩⟩
      | _ => exact .inl (Eq.trans ha (Eq.symm hb))

theorem numberText_inj (ha : 0 ≤ a) (hb : 0 ≤ b) (h : numberText a = numberText b) : a = b := by
  obtain ⟨m, rfl⟩ := Int.eq_ofNat_of_zero_le ha
  obtain ⟨n, rfl⟩ := Int.eq_ofNat_of_zero_le hb
  rw [numberText, numberText, String.append_right_inj, Hex.text_natCast_inj] at h
  rw [h]

/-- A number is not written like an instruction. -/
theorem mnemonic_ne_numberText (i : Instruction) (w : Int) : i.mnemonic ≠ numberText w := by
  intro h
  have hunknown := unknown_isPrefix_numberText w
  rw [← h] at hunknown
  exact i.mnemonic_not_unknown hunknown

/-- Two words with one text are the same word, or opcodes of one instruction. -/
theorem eq_or_exists_of_disassemble_eq (ha : 0 ≤ a ∧ a < 0x10000) (hb : 0 ≤ b ∧ b < 0x10000)
    (h : disassemble a = disassemble b) :
    a = b ∨ ∃ i : Instruction, i.HasOpcode a ∧ i.HasOpcode b := by
  rw [disassemble_eq, disassemble_eq] at h
  -- Each of the two is an instruction or a bare number, and a text tells which.
  rcases decode_word ha.1 ha.2 with ⟨i, hdecode, hi⟩ | hdecode <;>
    rcases decode_word hb.1 hb.2 with ⟨j, hdecode', hj⟩ | hdecode' <;>
    simp only [hdecode, hdecode', Except.ok.injEq] at h
  · obtain rfl := Instruction.mnemonic_inj h
    exact .inr ⟨i, hi, hj⟩
  · exact absurd h (mnemonic_ne_numberText i b)
  · exact absurd h.symm (mnemonic_ne_numberText j a)
  · exact .inl (numberText_inj ha.1 hb.1 h)

namespace Machine

variable {ρ : Type} [RandomSource ρ]

/-- **A text tells what its opcode does.** Two words of sixteen bits share a text only if they are
the same word or differ in the second register field of a shift, which is not written. Then they do
the same to every machine. -/
theorem execute_eq_of_disassemble_eq (ha : 0 ≤ a ∧ a < 0x10000) (hb : 0 ≤ b ∧ b < 0x10000) :
    (disassemble a = disassemble b ↔ a = b ∨ SameShift a b) ∧
      (disassemble a = disassemble b → ∀ m : Machine ρ, m.execute a = m.execute b) := by
  have hwords := eq_or_exists_of_disassemble_eq ha hb
  refine ⟨⟨fun h => eq_or_sameShift_iff.mpr (hwords h), fun h => ?_⟩, fun h m => ?_⟩
  · obtain rfl | ⟨i, hia, hib⟩ := eq_or_sameShift_iff.mp h
    · rfl
    · rw [disassemble_eq, disassemble_eq, decode_of_hasOpcode hia, decode_of_hasOpcode hib]
  · obtain rfl | ⟨i, hia, hib⟩ := hwords h
    · rfl
    · rw [execute_of_hasOpcode hia, execute_of_hasOpcode hib]

/-- The third digit of a shift is not written, and nothing depends on it. -/
theorem execute_shift_eq :
    ((0 ≤ (0x8126 : Int) ∧ (0x8126 : Int) < 0x10000) ∧
        0 ≤ (0x81F6 : Int) ∧ (0x81F6 : Int) < 0x10000) ∧
      disassemble 0x8126 = disassemble 0x81F6 ∧
      (new (⟨[0], [0]⟩ : CyclicNumbers) .released .standard).execute 0x8126 =
        (new (⟨[0], [0]⟩ : CyclicNumbers) .released .standard).execute 0x81F6 := by
  have hwords : (0 ≤ (0x8126 : Int) ∧ (0x8126 : Int) < 0x10000) ∧
      0 ≤ (0x81F6 : Int) ∧ (0x81F6 : Int) < 0x10000 := by decide
  obtain ⟨hiff, hexecute⟩ :=
    execute_eq_of_disassemble_eq (ρ := CyclicNumbers) hwords.1 hwords.2
  have htext : disassemble 0x8126 = disassemble 0x81F6 := hiff.mpr (.inr ⟨1, 2, 15, by decide⟩)
  exact ⟨hwords, htext, hexecute htext _⟩

end Machine

end Chip8
