import Chip8.Machine.Notice
import Chip8.Proofs.Footprint

/-!
# Chip8.Proofs.Disassembly

The disassembler and the machine agree on what is an instruction.

The machine finds an instruction in the tables of the decoder, the disassembler a written form in
the table of forms, and neither looks at the other's. `disassemble_eq` lays them side by side: the
two kinds of tables have the same rows (`Agree`), so the disassembler writes down exactly the
instructions that decoding finds, takes every other word of an existing group for a number, and has
no answer where decoding has no group.

What an opcode does to a machine can therefore be read off its text (`writes_what_it_runs`), and
making the text beforehand, as a trace does, cannot stop an instruction that would have run.
-/

namespace Chip8

open Fields (mem_of_lookup)

/-! ### Forms and mnemonics -/

/-- Two tables have the same keys in the same order, each with an instruction in the one and its
written form in the other. -/
def Agree : Table → FormTable → Prop
  | [], [] => True
  | (k, i) :: table, (k', form) :: forms =>
    k' = k ∧ (∀ f, form.fill f = (i f).mnemonic) ∧ Agree table forms
  | _, _ => False

/-- Looking a key up finds a form exactly where it finds an instruction, and its written form. -/
theorem Agree.lookup {table : Table} {forms : FormTable} (h : Agree table forms) (k : Int)
    (f : Fields) :
    (forms.lookup k).map (Form.fill f) = (table.lookup k).map fun i => (i f).mnemonic := by
  fun_induction Agree table forms with
  | case1 => rfl
  | case2 key i table key' form forms ih =>
      obtain ⟨rfl, hform, hrest⟩ := h
      rw [List.lookup_cons, List.lookup_cons]
      cases k == key' with
      | true => simp [hform]
      | false => exact ih hrest
  | case3 => exact absurd h id

theorem agree_system : Agree systemTable systemForms := by
  simp [Agree, systemTable, systemForms, Form.fill, Part.fill, Instruction.mnemonic]

theorem agree_arithmetic : Agree arithmeticTable arithmeticForms := by
  simp [Agree, arithmeticTable, arithmeticForms, Form.fill, Part.fill, Instruction.mnemonic,
    String.append_assoc]

theorem agree_key : Agree keyTable keyForms := by
  simp [Agree, keyTable, keyForms, Form.fill, Part.fill, Instruction.mnemonic]

theorem agree_miscellaneous : Agree miscellaneousTable miscellaneousForms := by
  simp [Agree, miscellaneousTable, miscellaneousForms, Form.fill, Part.fill,
    Instruction.mnemonic, String.append_assoc]

/-- A group with a table of its own has a table of forms that agrees with it. -/
theorem lookup_forms_of_groupTable {g : Int} {table : Table}
    (h : groupTables.lookup g = some table) :
    ∃ forms', forms.lookup g = some forms' ∧ Agree table forms' := by
  have hmem := mem_of_lookup h
  simp only [groupTables, List.mem_cons, Prod.mk.injEq, List.not_mem_nil, or_false] at hmem
  rcases hmem with ⟨rfl, rfl⟩ | ⟨rfl, rfl⟩ | ⟨rfl, rfl⟩ | ⟨rfl, rfl⟩
  · exact ⟨_, rfl, agree_system⟩
  · exact ⟨_, rfl, agree_arithmetic⟩
  · exact ⟨_, rfl, agree_key⟩
  · exact ⟨_, rfl, agree_miscellaneous⟩

/-- A group with a single instruction has a single form, under the key zero. -/
theorem lookup_forms_of_mainTable {g : Int} {i : Fields → Instruction}
    (h : mainTable.lookup g = some i) :
    ∃ form : Form, forms.lookup g = some [(0, form)] ∧ ∀ f, form.fill f = (i f).mnemonic := by
  have hmem := mem_of_lookup h
  simp only [mainTable, List.mem_cons, Prod.mk.injEq, List.not_mem_nil, or_false] at hmem
  rcases hmem with ⟨rfl, rfl⟩ | ⟨rfl, rfl⟩ | ⟨rfl, rfl⟩ | ⟨rfl, rfl⟩ | ⟨rfl, rfl⟩ | ⟨rfl, rfl⟩ |
    ⟨rfl, rfl⟩ | ⟨rfl, rfl⟩ | ⟨rfl, rfl⟩ | ⟨rfl, rfl⟩ | ⟨rfl, rfl⟩ | ⟨rfl, rfl⟩ <;>
    exact ⟨_, rfl, fun f => by
      simp [Form.fill, Part.fill, Instruction.mnemonic, String.append_assoc]⟩

theorem lookup_forms_eq_none_iff {g : Int} : forms.lookup g = none ↔ g < 0 ∨ 15 < g := by
  simp only [forms, List.lookup_eq_none_iff, List.forall_mem_cons, bne_iff_ne, List.not_mem_nil,
    false_implies, implies_true, and_true]
  omega

/-- **Writing down is decoding.** The disassembler writes what decoding finds. -/
theorem disassemble_eq (w : Int) :
    disassemble w =
      match decode w with
      | .instruction i => .ok i.mnemonic
      | .unassigned => .ok (numberText w)
      | .noGroup group => .error group := by
  unfold disassemble decode Fields.resolve
  cases hgroup : groupTables.lookup (Fields.ofOpcode w).selector.1 with
  | some table =>
      obtain ⟨forms', hforms, hagree⟩ := lookup_forms_of_groupTable hgroup
      have hlookup := hagree.lookup (Fields.ofOpcode w).selector.2 (Fields.ofOpcode w)
      simp only [hforms]
      cases hi : table.lookup (Fields.ofOpcode w).selector.2 with
      | some i =>
          rw [hi, Option.map_some, Option.map_eq_some_iff] at hlookup
          obtain ⟨form, hform, hfill⟩ := hlookup
          simp only [hform, hfill]
      | none =>
          rw [hi, Option.map_none, Option.map_eq_none_iff] at hlookup
          simp only [hlookup]
  | none =>
      cases hi : mainTable.lookup (Fields.ofOpcode w).selector.1 with
      | some i =>
          obtain ⟨form, hforms, hfill⟩ := lookup_forms_of_mainTable hi
          by_cases hkey : (Fields.ofOpcode w).selector.2 = 0
          · simp [hforms, hkey, hfill]
          · have hbeq : ((Fields.ofOpcode w).selector.2 == 0) = false := beq_false_of_ne hkey
            simp [hforms, hkey, hbeq, List.lookup_cons]
      | none =>
          rw [lookup_groupTables_eq_none_iff] at hgroup
          rw [lookup_mainTable_eq_none_iff] at hi
          have hforms := lookup_forms_eq_none_iff.mpr
            (show _ < 0 ∨ 15 < (Fields.ofOpcode w).selector.1 by omega)
          -- Only groups that exist are told apart by anything but zero.
          have hkey : (Fields.ofOpcode w).selector.2 = 0 := by
            obtain ⟨hg, hk⟩ := Fields.selector_ofOpcode w
            rw [hk, if_neg (by omega), if_neg (by omega), if_neg (by omega)]
          simp only [hforms, hkey, if_pos]

/-- A word of sixteen bits can be written down. -/
theorem exists_disassemble_eq_ok {w : Int} (h₀ : 0 ≤ w) (h₁ : w < 0x10000) :
    ∃ text, disassemble w = .ok text := by
  rw [disassemble_eq]
  rcases decode_word h₀ h₁ with ⟨i, hi, -⟩ | hnone
  · rw [hi]
    exact ⟨_, rfl⟩
  · rw [hnone]
    exact ⟨_, rfl⟩

/-- Every program has a listing, since its words have sixteen bits. -/
theorem exists_listing_eq_ok (address : Int) (program : List UInt8) :
    ∃ lines, listing address program = .ok lines := by
  fun_induction listing address program with
  | case1 address high low rest group herror =>
      obtain ⟨text, htext⟩ := exists_disassemble_eq_ok (wordOf_nonneg high low) (wordOf_lt high low)
      cases htext.symm.trans herror
  | case2 address high low rest text htext group herror ih =>
      obtain ⟨lines, hlines⟩ := ih
      cases hlines.symm.trans herror
  | case3 => exact ⟨_, rfl⟩
  | case4 => exact ⟨_, rfl⟩
  | case5 => exact ⟨_, rfl⟩

/-- A written form begins with a word for the operation and not like a number. -/
theorem Instruction.mnemonic_not_unknown (i : Instruction) :
    ¬"???".toList <+: i.mnemonic.toList := by
  cases i <;> simp [mnemonic, String.toList_append]

/-- No instruction leaves a note of an unknown opcode. -/
theorem Instruction.lastUnknown_notMem_footprint (i : Instruction) :
    .lastUnknown ∉ i.footprint := by
  cases i <;> simp [footprint]

/-- A number is not written like an instruction. -/
theorem unknown_isPrefix_numberText (w : Int) : "???".toList <+: (numberText w).toList := by
  simp [numberText, String.toList_append]

namespace Machine

/-! ### The text of an opcode and what it does -/

variable {ρ : Type} [RandomSource ρ]

/-- There is no group for the opcode: it cannot be written down, and the machine stops on it as it
was. -/
structure MissesGroup (m : Machine ρ) (w : Int) : Prop where
  group : ¬(0 ≤ w / 0x1000 ∧ w / 0x1000 ≤ 15)
  text : disassemble w = .error (w / 0x1000)
  outcome : m.execute w = .stopped (.noGroup (w / 0x1000)) m

/-- The opcode is written down as a number, in upper-case digits and behind question marks, and the
machine notes it and does nothing else. -/
structure TakesNote (m : Machine ρ) (w : Int) : Prop where
  text : disassemble w = .ok ("??? $" ++ Hex.text 4 w)
  outcome : m.execute w = .done { m with lastUnknown := some ⟨w, m.pc⟩ }

/-- The opcode is written down as an instruction, and the machine carries that instruction out. Done
or stopped, it takes no note. -/
structure RunsInstruction (m : Machine ρ) (w : Int) : Prop where
  handler : ∃ i : Instruction, i.HasOpcode w ∧ disassemble w = .ok i.mnemonic ∧
    ¬"???".toList <+: i.mnemonic.toList ∧ m.execute w = m.perform i
  silent : (m.execute w).state.lastUnknown = m.lastUnknown

variable {m : Machine ρ} {w : Int}

theorem MissesGroup.not_takesNote (h : m.MissesGroup w) : ¬m.TakesNote w := by
  intro h'
  cases h.text.symm.trans h'.text

theorem MissesGroup.not_runsInstruction (h : m.MissesGroup w) : ¬m.RunsInstruction w := by
  intro h'
  obtain ⟨i, -, htext, -, -⟩ := h'.handler
  cases h.text.symm.trans htext

theorem TakesNote.not_runsInstruction (h : m.TakesNote w) : ¬m.RunsInstruction w := by
  intro h'
  obtain ⟨i, -, htext, hunknown, -⟩ := h'.handler
  have heq : numberText w = i.mnemonic := Except.ok.inj (h.text.symm.trans htext)
  rw [← heq] at hunknown
  exact hunknown (unknown_isPrefix_numberText w)

theorem missesGroup_of_decode {g : Int} (h : decode w = .noGroup g) : m.MissesGroup w := by
  obtain ⟨rfl, hw⟩ := decode_eq_noGroup_iff.mp h
  exact ⟨by omega, by rw [disassemble_eq, h], by rw [execute, h]⟩

theorem takesNote_of_decode (h : decode w = .unassigned) : m.TakesNote w :=
  ⟨by rw [disassemble_eq, h, numberText], by rw [execute, h]⟩

theorem runsInstruction_of_decode {i : Instruction} (h : decode w = .instruction i) :
    m.RunsInstruction w := by
  have hexecute : m.execute w = m.perform i := by rw [execute, h]
  refine ⟨⟨i, decode_eq_instruction_iff.mp h, ?_, i.mnemonic_not_unknown, hexecute⟩, ?_⟩
  · rw [disassemble_eq, h]
  · rw [hexecute]
    exact changesOnly_perform m i .lastUnknown i.lastUnknown_notMem_footprint

/-- A trace stops nothing: what runs can be written down. -/
theorem executeTraced_eq (m : Machine ρ) (w : Int) : m.executeTraced w = m.execute w := by
  unfold executeTraced execute
  cases h : decode w with
  | «instruction» i => simp only [disassemble_eq, h]
  | unassigned => rfl
  | noGroup g => rfl

/-- **The disassembler and the machine agree on every integer.** There is no group for it on either
side, or it is no instruction on either side, or it is one on both, and with the trace on each of
them ends as it does without. -/
theorem writes_what_it_runs (m : Machine ρ) (w : Int) :
    (m.MissesGroup w ∧ ¬m.TakesNote w ∧ ¬m.RunsInstruction w ∨
      ¬m.MissesGroup w ∧ m.TakesNote w ∧ ¬m.RunsInstruction w ∨
      ¬m.MissesGroup w ∧ ¬m.TakesNote w ∧ m.RunsInstruction w) ∧
      m.executeTraced w = m.execute w := by
  refine ⟨?_, executeTraced_eq m w⟩
  cases h : decode w with
  | noGroup g =>
      have hmisses : m.MissesGroup w := missesGroup_of_decode h
      exact .inl ⟨hmisses, hmisses.not_takesNote, hmisses.not_runsInstruction⟩
  | unassigned =>
      have hnote : m.TakesNote w := takesNote_of_decode h
      exact .inr (.inl ⟨fun h' => h'.not_takesNote hnote, hnote, hnote.not_runsInstruction⟩)
  | «instruction» i =>
      have hruns : m.RunsInstruction w := runsInstruction_of_decode h
      exact .inr (.inr ⟨fun h' => h'.not_runsInstruction hruns,
        fun h' => h'.not_runsInstruction hruns, hruns⟩)

end Machine

end Chip8
