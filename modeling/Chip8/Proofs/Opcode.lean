import Chip8.Instruction.Decode

/-!
# Chip8.Proofs.Opcode

Which opcodes are which instruction.

`decode` finds an instruction through two levels of tables. `Instruction.HasOpcode` says the same
thing row by row, the way the instruction set is printed: the digits of the opcode, with the
operands standing in their places. `decode_eq_instruction_iff` joins the two for every integer, and
`decode_eq_noGroup_iff` tells which integers belong to no group at all.

Everything that has to know which opcode is at hand goes through these statements and never through
the tables.
-/

namespace Chip8

/-- The opcodes that are printed for an instruction. The shifts have sixteen each, because their
third digit has no meaning. -/
def Instruction.HasOpcode (w : Int) : Instruction → Prop
  | .clear => w = 0x00E0
  | .ret => w = 0x00EE
  | .jump target => w = 0x1000 + target.val
  | .call target => w = 0x2000 + target.val
  | .skipEqByte x byte => w = 0x3000 + 0x100 * x.val + byte.val
  | .skipNeByte x byte => w = 0x4000 + 0x100 * x.val + byte.val
  | .skipEq x y => w = 0x5000 + 0x100 * x.val + 0x10 * y.val
  | .loadByte x byte => w = 0x6000 + 0x100 * x.val + byte.val
  | .addByte x byte => w = 0x7000 + 0x100 * x.val + byte.val
  | .copy x y => w = 0x8000 + 0x100 * x.val + 0x10 * y.val
  | .or x y => w = 0x8001 + 0x100 * x.val + 0x10 * y.val
  | .and x y => w = 0x8002 + 0x100 * x.val + 0x10 * y.val
  | .xor x y => w = 0x8003 + 0x100 * x.val + 0x10 * y.val
  | .add x y => w = 0x8004 + 0x100 * x.val + 0x10 * y.val
  | .sub x y => w = 0x8005 + 0x100 * x.val + 0x10 * y.val
  | .shiftRight x => ∃ y : Fin 16, w = 0x8006 + 0x100 * x.val + 0x10 * y.val
  | .subFrom x y => w = 0x8007 + 0x100 * x.val + 0x10 * y.val
  | .shiftLeft x => ∃ y : Fin 16, w = 0x800E + 0x100 * x.val + 0x10 * y.val
  | .skipNe x y => w = 0x9000 + 0x100 * x.val + 0x10 * y.val
  | .loadIndex address => w = 0xA000 + address.val
  | .jumpOffset base => w = 0xB000 + base.val
  | .random x mask => w = 0xC000 + 0x100 * x.val + mask.val
  | .draw x y rows => w = 0xD000 + 0x100 * x.val + 0x10 * y.val + rows.val
  | .skipPressed x => w = 0xE09E + 0x100 * x.val
  | .skipReleased x => w = 0xE0A1 + 0x100 * x.val
  | .readDelay x => w = 0xF007 + 0x100 * x.val
  | .awaitKey x => w = 0xF00A + 0x100 * x.val
  | .setDelay x => w = 0xF015 + 0x100 * x.val
  | .setSound x => w = 0xF018 + 0x100 * x.val
  | .addIndex x => w = 0xF01E + 0x100 * x.val
  | .glyph x => w = 0xF029 + 0x100 * x.val
  | .storeDecimal x => w = 0xF033 + 0x100 * x.val
  | .storeRegisters x => w = 0xF055 + 0x100 * x.val
  | .loadRegisters x => w = 0xF065 + 0x100 * x.val

open Instruction (HasOpcode)

namespace Fields

variable {w : Int}

/-! ### The fields of an opcode as quotients and remainders -/

@[simp] theorem group_ofOpcode (w : Int) : (ofOpcode w).group = w / 0x1000 := rfl

theorem val_x_ofOpcode (w : Int) : ((ofOpcode w).x.val : Int) = w / 0x100 % 0x10 := by
  simp only [ofOpcode, fourBits, bitField]
  omega

theorem val_y_ofOpcode (w : Int) : ((ofOpcode w).y.val : Int) = w / 0x10 % 0x10 := by
  simp only [ofOpcode, fourBits, bitField]
  omega

theorem val_n_ofOpcode (w : Int) : ((ofOpcode w).n.val : Int) = w % 0x10 := by
  simp only [ofOpcode, fourBits, bitField]
  omega

theorem val_nn_ofOpcode (w : Int) : ((ofOpcode w).nn.val : Int) = w % 0x100 := by
  simp only [ofOpcode, fourBits, bitField]
  omega

theorem val_nnn_ofOpcode (w : Int) : ((ofOpcode w).nnn.val : Int) = w % 0x1000 := by
  simp only [ofOpcode, fourBits, bitField]
  omega

/-- A field is the operand that stands in its digits. -/
theorem x_ofOpcode (x : Fin 16) (h : w / 0x100 % 0x10 = x.val) : (ofOpcode w).x = x := by
  have := val_x_ofOpcode w
  omega

theorem y_ofOpcode (y : Fin 16) (h : w / 0x10 % 0x10 = y.val) : (ofOpcode w).y = y := by
  have := val_y_ofOpcode w
  omega

theorem n_ofOpcode (n : Fin 16) (h : w % 0x10 = n.val) : (ofOpcode w).n = n := by
  have := val_n_ofOpcode w
  omega

theorem nn_ofOpcode (nn : Fin 256) (h : w % 0x100 = nn.val) : (ofOpcode w).nn = nn := by
  have := val_nn_ofOpcode w
  omega

theorem nnn_ofOpcode (nnn : Fin 4096) (h : w % 0x1000 = nnn.val) : (ofOpcode w).nnn = nnn := by
  have := val_nnn_ofOpcode w
  omega

/-! ### The selector, by the kind of group -/

theorem selector_whole (hg : w / 0x1000 = 0) : (ofOpcode w).selector = (0, w) := by
  rw [selector, group_ofOpcode, hg, if_pos rfl]
  rfl

theorem selector_digit (g k : Int) (hg : w / 0x1000 = g) (hk : w % 0x10 = k)
    (h : g = 0x5 ∨ g = 0x8 ∨ g = 0x9) : (ofOpcode w).selector = (g, k) := by
  rw [selector, group_ofOpcode, hg, if_neg (by omega), if_pos h, val_n_ofOpcode, hk]

theorem selector_byte (g k : Int) (hg : w / 0x1000 = g) (hk : w % 0x100 = k)
    (h : g = 0xE ∨ g = 0xF) : (ofOpcode w).selector = (g, k) := by
  rw [selector, group_ofOpcode, hg, if_neg (by omega), if_neg (by omega), if_pos h,
    val_nn_ofOpcode, hk]

theorem selector_single (g : Int) (hg : w / 0x1000 = g) (h₀ : g ≠ 0)
    (h₁ : ¬(g = 0x5 ∨ g = 0x8 ∨ g = 0x9)) (h₂ : ¬(g = 0xE ∨ g = 0xF)) :
    (ofOpcode w).selector = (g, 0) := by
  rw [selector, group_ofOpcode, hg, if_neg h₀, if_neg h₁, if_neg h₂]

/-- What the selector says of an opcode, whatever its group. -/
theorem selector_ofOpcode (w : Int) :
    (ofOpcode w).selector.1 = w / 0x1000 ∧
      (ofOpcode w).selector.2 =
        if w / 0x1000 = 0 then w
        else if w / 0x1000 = 0x5 ∨ w / 0x1000 = 0x8 ∨ w / 0x1000 = 0x9 then w % 0x10
        else if w / 0x1000 = 0xE ∨ w / 0x1000 = 0xF then w % 0x100
        else 0 := by
  by_cases h₀ : w / 0x1000 = 0
  · rw [selector_whole h₀, if_pos h₀, h₀]
    exact ⟨rfl, rfl⟩
  · rw [if_neg h₀]
    by_cases h₁ : w / 0x1000 = 0x5 ∨ w / 0x1000 = 0x8 ∨ w / 0x1000 = 0x9
    · rw [selector_digit _ _ rfl rfl h₁, if_pos h₁]
      exact ⟨rfl, rfl⟩
    · rw [if_neg h₁]
      by_cases h₂ : w / 0x1000 = 0xE ∨ w / 0x1000 = 0xF
      · rw [selector_byte _ _ rfl rfl h₂, if_pos h₂]
        exact ⟨rfl, rfl⟩
      · rw [selector_single _ rfl h₀ h₁ h₂, if_neg h₂]
        exact ⟨rfl, rfl⟩

/-! ### Looking an opcode up -/

theorem mem_of_lookup {α : Type} {key : Int} {a : α} {l : List (Int × α)}
    (h : l.lookup key = some a) : (key, a) ∈ l := by
  obtain ⟨before, after, rfl, -⟩ := List.lookup_eq_some_iff.mp h
  simp

/-- An entry of a group's own table is found. -/
theorem resolve_of_groupTable {f : Fields} {g k : Int} {table : Table}
    {instruction : Fields → Instruction} (hs : f.selector = (g, k))
    (hg : groupTables.lookup g = some table) (hk : table.lookup k = some instruction) :
    f.resolve = .instruction (instruction f) := by
  simp only [resolve, hs, hg, hk]

/-- An entry of the main table is found. -/
theorem resolve_of_mainTable {f : Fields} {g : Int} {instruction : Fields → Instruction}
    (hs : f.selector = (g, 0)) (hg : groupTables.lookup g = none)
    (hm : mainTable.lookup g = some instruction) : f.resolve = .instruction (instruction f) := by
  simp only [resolve, hs, hg, hm, if_pos]

/-- Whatever is found is an entry of a table. -/
theorem exists_entry_of_resolve {f : Fields} {i : Instruction} (h : f.resolve = .instruction i) :
    (∃ table instruction, (f.selector.1, table) ∈ groupTables ∧
        (f.selector.2, instruction) ∈ table ∧ i = instruction f) ∨
      (f.selector.2 = 0 ∧ ∃ instruction, (f.selector.1, instruction) ∈ mainTable ∧
        i = instruction f) := by
  unfold resolve at h
  cases hg : groupTables.lookup f.selector.1 with
  | some table =>
    rw [hg] at h
    dsimp only at h
    cases hk : table.lookup f.selector.2 with
    | some instruction =>
      rw [hk] at h
      exact .inl ⟨table, instruction, mem_of_lookup hg, mem_of_lookup hk, by simpa using h.symm⟩
    | none =>
      rw [hk] at h
      cases h
  | none =>
    rw [hg] at h
    dsimp only at h
    by_cases hkey : f.selector.2 = 0
    · rw [if_pos hkey] at h
      cases hm : mainTable.lookup f.selector.1 with
      | some instruction =>
        rw [hm] at h
        exact .inr ⟨hkey, instruction, mem_of_lookup hm, by simpa using h.symm⟩
      | none =>
        rw [hm] at h
        cases h
    · rw [if_neg hkey] at h
      cases h

end Fields

open Fields

/-! ### Tables and printed opcodes

One lemma for each table, because the tables are keyed by different parts of the opcode. -/

theorem hasOpcode_systemTable {w : Int} {instruction : Fields → Instruction}
    (h : (w, instruction) ∈ systemTable) : (instruction (ofOpcode w)).HasOpcode w := by
  simp only [systemTable, List.mem_cons, Prod.mk.injEq, List.not_mem_nil, or_false] at h
  rcases h with ⟨rfl, rfl⟩ | ⟨rfl, rfl⟩ <;> rfl

theorem hasOpcode_arithmeticTable {w : Int} {instruction : Fields → Instruction}
    (hg : w / 0x1000 = 0x8) (h : (w % 0x10, instruction) ∈ arithmeticTable) :
    (instruction (ofOpcode w)).HasOpcode w := by
  have hx := val_x_ofOpcode w
  have hy := val_y_ofOpcode w
  simp only [arithmeticTable, List.mem_cons, Prod.mk.injEq, List.not_mem_nil, or_false] at h
  rcases h with ⟨hk, rfl⟩ | ⟨hk, rfl⟩ | ⟨hk, rfl⟩ | ⟨hk, rfl⟩ | ⟨hk, rfl⟩ | ⟨hk, rfl⟩ |
    ⟨hk, rfl⟩ | ⟨hk, rfl⟩ | ⟨hk, rfl⟩
  case inr.inr.inr.inr.inr.inr.inl | inr.inr.inr.inr.inr.inr.inr.inr =>
    refine ⟨(ofOpcode w).y, ?_⟩
    omega
  all_goals simp only [HasOpcode]; omega

theorem hasOpcode_keyTable {w : Int} {instruction : Fields → Instruction}
    (hg : w / 0x1000 = 0xE) (h : (w % 0x100, instruction) ∈ keyTable) :
    (instruction (ofOpcode w)).HasOpcode w := by
  have hx := val_x_ofOpcode w
  simp only [keyTable, List.mem_cons, Prod.mk.injEq, List.not_mem_nil, or_false] at h
  rcases h with ⟨hk, rfl⟩ | ⟨hk, rfl⟩ <;> simp only [HasOpcode] <;> omega

theorem hasOpcode_miscellaneousTable {w : Int} {instruction : Fields → Instruction}
    (hg : w / 0x1000 = 0xF) (h : (w % 0x100, instruction) ∈ miscellaneousTable) :
    (instruction (ofOpcode w)).HasOpcode w := by
  have hx := val_x_ofOpcode w
  simp only [miscellaneousTable, List.mem_cons, Prod.mk.injEq, List.not_mem_nil, or_false] at h
  rcases h with ⟨hk, rfl⟩ | ⟨hk, rfl⟩ | ⟨hk, rfl⟩ | ⟨hk, rfl⟩ | ⟨hk, rfl⟩ | ⟨hk, rfl⟩ |
    ⟨hk, rfl⟩ | ⟨hk, rfl⟩ | ⟨hk, rfl⟩ <;> simp only [HasOpcode] <;> omega

theorem hasOpcode_mainTable {w : Int} {instruction : Fields → Instruction}
    (h : (w / 0x1000, instruction) ∈ mainTable)
    (hn : w / 0x1000 = 0x5 ∨ w / 0x1000 = 0x9 → w % 0x10 = 0) :
    (instruction (ofOpcode w)).HasOpcode w := by
  have hx := val_x_ofOpcode w
  have hy := val_y_ofOpcode w
  have hd := val_n_ofOpcode w
  have hnn := val_nn_ofOpcode w
  have hnnn := val_nnn_ofOpcode w
  simp only [mainTable, List.mem_cons, Prod.mk.injEq, List.not_mem_nil, or_false] at h
  rcases h with ⟨hg, rfl⟩ | ⟨hg, rfl⟩ | ⟨hg, rfl⟩ | ⟨hg, rfl⟩ | ⟨hg, rfl⟩ | ⟨hg, rfl⟩ |
    ⟨hg, rfl⟩ | ⟨hg, rfl⟩ | ⟨hg, rfl⟩ | ⟨hg, rfl⟩ | ⟨hg, rfl⟩ | ⟨hg, rfl⟩ <;>
    simp only [HasOpcode] <;> omega

/-- What the tables find is printed with the opcode that was looked up. -/
theorem hasOpcode_of_decode {w : Int} {i : Instruction} (h : decode w = .instruction i) :
    i.HasOpcode w := by
  obtain ⟨hgroup, hkey⟩ := selector_ofOpcode w
  rcases exists_entry_of_resolve h with
    ⟨table, instruction, hg, hk, rfl⟩ | ⟨hk, instruction, hm, rfl⟩
  · rw [hgroup] at hg
    rw [hkey] at hk
    simp only [groupTables, List.mem_cons, Prod.mk.injEq, List.not_mem_nil, or_false] at hg
    rcases hg with ⟨hg, rfl⟩ | ⟨hg, rfl⟩ | ⟨hg, rfl⟩ | ⟨hg, rfl⟩
    · rw [if_pos hg] at hk
      exact hasOpcode_systemTable hk
    · rw [if_neg (by omega), if_pos (by omega)] at hk
      exact hasOpcode_arithmeticTable hg hk
    · rw [if_neg (by omega), if_neg (by omega), if_pos (by omega)] at hk
      exact hasOpcode_keyTable hg hk
    · rw [if_neg (by omega), if_neg (by omega), if_pos (by omega)] at hk
      exact hasOpcode_miscellaneousTable hg hk
  · rw [hgroup] at hm
    refine hasOpcode_mainTable hm fun h => ?_
    rwa [hkey, if_neg (by omega), if_pos (by omega)] at hk

/-- An instruction of the arithmetic group is found by its last digit. -/
theorem decode_arithmetic {w : Int} (k : Int) {instruction : Fields → Instruction}
    (hg : w / 0x1000 = 0x8) (hk : w % 0x10 = k) (h : arithmeticTable.lookup k = some instruction) :
    decode w = .instruction (instruction (ofOpcode w)) :=
  resolve_of_groupTable (selector_digit _ k hg hk (by decide)) rfl h

/-- An instruction of the key group is found by its low byte. -/
theorem decode_key {w : Int} (k : Int) {instruction : Fields → Instruction}
    (hg : w / 0x1000 = 0xE) (hk : w % 0x100 = k) (h : keyTable.lookup k = some instruction) :
    decode w = .instruction (instruction (ofOpcode w)) :=
  resolve_of_groupTable (selector_byte _ k hg hk (by decide)) rfl h

/-- An instruction of the miscellaneous group is found by its low byte. -/
theorem decode_miscellaneous {w : Int} (k : Int) {instruction : Fields → Instruction}
    (hg : w / 0x1000 = 0xF) (hk : w % 0x100 = k)
    (h : miscellaneousTable.lookup k = some instruction) :
    decode w = .instruction (instruction (ofOpcode w)) :=
  resolve_of_groupTable (selector_byte _ k hg hk (by decide)) rfl h

/-- A group with a single instruction is found by the group alone. -/
theorem decode_single {w : Int} (g : Int) {instruction : Fields → Instruction}
    (hg : w / 0x1000 = g) (hs : ¬(g = 0 ∨ g = 0x5 ∨ g = 0x8 ∨ g = 0x9 ∨ g = 0xE ∨ g = 0xF))
    (h : mainTable.lookup g = some instruction) (ht : groupTables.lookup g = none) :
    decode w = .instruction (instruction (ofOpcode w)) :=
  resolve_of_mainTable (selector_single g hg (by omega) (by omega) (by omega)) ht h

/-- The two comparisons of registers are found by their group, once their last digit is zero. -/
theorem decode_comparison {w : Int} (g : Int) {instruction : Fields → Instruction}
    (hg : w / 0x1000 = g) (hk : w % 0x10 = 0) (hs : g = 0x5 ∨ g = 0x9)
    (h : mainTable.lookup g = some instruction) (ht : groupTables.lookup g = none) :
    decode w = .instruction (instruction (ofOpcode w)) :=
  resolve_of_mainTable (selector_digit g 0 hg hk (by omega)) ht h

/-- Every printed opcode is found. -/
theorem decode_of_hasOpcode {w : Int} {i : Instruction} (h : i.HasOpcode w) :
    decode w = .instruction i := by
  cases i with
  | clear => rw [show w = 0x00E0 from h]; rfl
  | ret => rw [show w = 0x00EE from h]; rfl
  | jump target =>
    rw [HasOpcode] at h
    refine (decode_single 0x1 (by omega) (by decide) rfl rfl).trans ?_
    rw [nnn_ofOpcode target (by omega)]
  | call target =>
    rw [HasOpcode] at h
    refine (decode_single 0x2 (by omega) (by decide) rfl rfl).trans ?_
    rw [nnn_ofOpcode target (by omega)]
  | skipEqByte x byte =>
    rw [HasOpcode] at h
    refine (decode_single 0x3 (by omega) (by decide) rfl rfl).trans ?_
    rw [x_ofOpcode x (by omega), nn_ofOpcode byte (by omega)]
  | skipNeByte x byte =>
    rw [HasOpcode] at h
    refine (decode_single 0x4 (by omega) (by decide) rfl rfl).trans ?_
    rw [x_ofOpcode x (by omega), nn_ofOpcode byte (by omega)]
  | skipEq x y =>
    rw [HasOpcode] at h
    refine (decode_comparison 0x5 (by omega) (by omega) (by decide) rfl rfl).trans ?_
    rw [x_ofOpcode x (by omega), y_ofOpcode y (by omega)]
  | loadByte x byte =>
    rw [HasOpcode] at h
    refine (decode_single 0x6 (by omega) (by decide) rfl rfl).trans ?_
    rw [x_ofOpcode x (by omega), nn_ofOpcode byte (by omega)]
  | addByte x byte =>
    rw [HasOpcode] at h
    refine (decode_single 0x7 (by omega) (by decide) rfl rfl).trans ?_
    rw [x_ofOpcode x (by omega), nn_ofOpcode byte (by omega)]
  | copy x y =>
    rw [HasOpcode] at h
    refine (decode_arithmetic 0x0 (by omega) (by omega) rfl).trans ?_
    rw [x_ofOpcode x (by omega), y_ofOpcode y (by omega)]
  | or x y =>
    rw [HasOpcode] at h
    refine (decode_arithmetic 0x1 (by omega) (by omega) rfl).trans ?_
    rw [x_ofOpcode x (by omega), y_ofOpcode y (by omega)]
  | and x y =>
    rw [HasOpcode] at h
    refine (decode_arithmetic 0x2 (by omega) (by omega) rfl).trans ?_
    rw [x_ofOpcode x (by omega), y_ofOpcode y (by omega)]
  | xor x y =>
    rw [HasOpcode] at h
    refine (decode_arithmetic 0x3 (by omega) (by omega) rfl).trans ?_
    rw [x_ofOpcode x (by omega), y_ofOpcode y (by omega)]
  | add x y =>
    rw [HasOpcode] at h
    refine (decode_arithmetic 0x4 (by omega) (by omega) rfl).trans ?_
    rw [x_ofOpcode x (by omega), y_ofOpcode y (by omega)]
  | sub x y =>
    rw [HasOpcode] at h
    refine (decode_arithmetic 0x5 (by omega) (by omega) rfl).trans ?_
    rw [x_ofOpcode x (by omega), y_ofOpcode y (by omega)]
  | shiftRight x =>
    obtain ⟨y, h⟩ := h
    refine (decode_arithmetic 0x6 (by omega) (by omega) rfl).trans ?_
    rw [x_ofOpcode x (by omega)]
  | subFrom x y =>
    rw [HasOpcode] at h
    refine (decode_arithmetic 0x7 (by omega) (by omega) rfl).trans ?_
    rw [x_ofOpcode x (by omega), y_ofOpcode y (by omega)]
  | shiftLeft x =>
    obtain ⟨y, h⟩ := h
    refine (decode_arithmetic 0xE (by omega) (by omega) rfl).trans ?_
    rw [x_ofOpcode x (by omega)]
  | skipNe x y =>
    rw [HasOpcode] at h
    refine (decode_comparison 0x9 (by omega) (by omega) (by decide) rfl rfl).trans ?_
    rw [x_ofOpcode x (by omega), y_ofOpcode y (by omega)]
  | loadIndex address =>
    rw [HasOpcode] at h
    refine (decode_single 0xA (by omega) (by decide) rfl rfl).trans ?_
    rw [nnn_ofOpcode address (by omega)]
  | jumpOffset base =>
    rw [HasOpcode] at h
    refine (decode_single 0xB (by omega) (by decide) rfl rfl).trans ?_
    rw [nnn_ofOpcode base (by omega)]
  | random x mask =>
    rw [HasOpcode] at h
    refine (decode_single 0xC (by omega) (by decide) rfl rfl).trans ?_
    rw [x_ofOpcode x (by omega), nn_ofOpcode mask (by omega)]
  | draw x y rows =>
    rw [HasOpcode] at h
    refine (decode_single 0xD (by omega) (by decide) rfl rfl).trans ?_
    rw [x_ofOpcode x (by omega), y_ofOpcode y (by omega), n_ofOpcode rows (by omega)]
  | skipPressed x =>
    rw [HasOpcode] at h
    refine (decode_key 0x9E (by omega) (by omega) rfl).trans ?_
    rw [x_ofOpcode x (by omega)]
  | skipReleased x =>
    rw [HasOpcode] at h
    refine (decode_key 0xA1 (by omega) (by omega) rfl).trans ?_
    rw [x_ofOpcode x (by omega)]
  | readDelay x =>
    rw [HasOpcode] at h
    refine (decode_miscellaneous 0x07 (by omega) (by omega) rfl).trans ?_
    rw [x_ofOpcode x (by omega)]
  | awaitKey x =>
    rw [HasOpcode] at h
    refine (decode_miscellaneous 0x0A (by omega) (by omega) rfl).trans ?_
    rw [x_ofOpcode x (by omega)]
  | setDelay x =>
    rw [HasOpcode] at h
    refine (decode_miscellaneous 0x15 (by omega) (by omega) rfl).trans ?_
    rw [x_ofOpcode x (by omega)]
  | setSound x =>
    rw [HasOpcode] at h
    refine (decode_miscellaneous 0x18 (by omega) (by omega) rfl).trans ?_
    rw [x_ofOpcode x (by omega)]
  | addIndex x =>
    rw [HasOpcode] at h
    refine (decode_miscellaneous 0x1E (by omega) (by omega) rfl).trans ?_
    rw [x_ofOpcode x (by omega)]
  | glyph x =>
    rw [HasOpcode] at h
    refine (decode_miscellaneous 0x29 (by omega) (by omega) rfl).trans ?_
    rw [x_ofOpcode x (by omega)]
  | storeDecimal x =>
    rw [HasOpcode] at h
    refine (decode_miscellaneous 0x33 (by omega) (by omega) rfl).trans ?_
    rw [x_ofOpcode x (by omega)]
  | storeRegisters x =>
    rw [HasOpcode] at h
    refine (decode_miscellaneous 0x55 (by omega) (by omega) rfl).trans ?_
    rw [x_ofOpcode x (by omega)]
  | loadRegisters x =>
    rw [HasOpcode] at h
    refine (decode_miscellaneous 0x65 (by omega) (by omega) rfl).trans ?_
    rw [x_ofOpcode x (by omega)]

/-- **Decoding is the printed instruction set.** The tables find an instruction for an integer
exactly if the integer is printed as one of its opcodes. -/
theorem decode_eq_instruction_iff {w : Int} {i : Instruction} :
    decode w = .instruction i ↔ i.HasOpcode w :=
  ⟨hasOpcode_of_decode, decode_of_hasOpcode⟩

/-! ### Integers that are no instruction -/

theorem lookup_groupTables_eq_none_iff {g : Int} :
    groupTables.lookup g = none ↔ g ≠ 0x0 ∧ g ≠ 0x8 ∧ g ≠ 0xE ∧ g ≠ 0xF := by
  simp [groupTables]

theorem lookup_mainTable_eq_none_iff {g : Int} :
    mainTable.lookup g = none ↔ g ≤ 0x0 ∨ g = 0x8 ∨ 0xE ≤ g := by
  simp only [mainTable, List.lookup_eq_none_iff, List.forall_mem_cons, bne_iff_ne, List.not_mem_nil,
    false_implies, implies_true, and_true]
  omega

/-- An integer has no group exactly if it needs more than sixteen bits. -/
theorem decode_eq_noGroup_iff {w g : Int} :
    decode w = .noGroup g ↔ w / 0x1000 = g ∧ (w < 0 ∨ 0x10000 ≤ w) := by
  constructor
  · intro h
    obtain ⟨hgroup, -⟩ := selector_ofOpcode w
    unfold decode resolve at h
    split at h
    · split at h <;> cases h
    · rename_i hnone
      split at h
      · split at h
        · cases h
        · rename_i hmain
          rw [hgroup] at h hnone hmain
          rw [lookup_groupTables_eq_none_iff] at hnone
          rw [lookup_mainTable_eq_none_iff] at hmain
          cases h
          omega
      · cases h
  · rintro ⟨hg, hw⟩
    have hs : (ofOpcode w).selector = (g, 0) :=
      selector_single g hg (by omega) (by omega) (by omega)
    have hgroup : groupTables.lookup g = none := lookup_groupTables_eq_none_iff.mpr (by omega)
    have hmain : mainTable.lookup g = none := lookup_mainTable_eq_none_iff.mpr (by omega)
    simp only [decode, resolve, hs, hgroup, hmain, if_pos]

/-- A word of sixteen bits is an instruction, or nothing is assigned to it. -/
theorem decode_word {w : Int} (h₀ : 0 ≤ w) (h₁ : w < 0x10000) :
    (∃ i, decode w = .instruction i ∧ i.HasOpcode w) ∨ decode w = .unassigned := by
  cases h : decode w with
  | «instruction» i => exact .inl ⟨i, rfl, hasOpcode_of_decode h⟩
  | unassigned => exact .inr rfl
  | noGroup g =>
    obtain ⟨-, hw⟩ := decode_eq_noGroup_iff.mp h
    omega

end Chip8
