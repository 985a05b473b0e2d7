import Chip8.Proofs.Manual

/-!
# Chip8.Proofs.Arithmetic

Sums, differences and shifts as equations over the integers.

Five instructions leave a flag beside their result, and the two together tell what the result alone
has lost: the carry of a sum, the borrow of a difference, the bit that a shift drops.
`Arithmetic.Exact` says so without remainders or comparisons. The equations have one solution
(`Exact.unique`), so they describe the flag also where the result is overwritten by it, in the flag
register itself.

What follows from the equations needs no further look at the instructions: a sum is undone by a
difference and a difference by a sum, and a difference taken the other way round undoes itself
(`arithmetic_flags_exact`).
-/

namespace Chip8

/-- The operations on registers that leave a flag. -/
inductive Arithmetic
  | add
  | sub
  | shiftRight
  /-- A difference taken the other way round. -/
  | subFrom
  | shiftLeft

namespace Arithmetic

/-- The instruction for an operation on two registers. A shift has no use for the second one. -/
def onRegisters (x y : Fin 16) : Arithmetic → Instruction
  | add => .add x y
  | sub => .sub x y
  | shiftRight => .shiftRight x
  | subFrom => .subFrom x y
  | shiftLeft => .shiftLeft x

/-- The last digit of the opcodes of an operation. -/
def digit : Arithmetic → Int
  | add => 0x4
  | sub => 0x5
  | shiftRight => 0x6
  | subFrom => 0x7
  | shiftLeft => 0xE

/-- The opcode of an operation with its two registers. -/
def opcode (op : Arithmetic) (x y : Fin 16) : Int :=
  0x8000 + 0x100 * x.val + 0x10 * y.val + op.digit

theorem hasOpcode_onRegisters (op : Arithmetic) (x y : Fin 16) :
    (op.onRegisters x y).HasOpcode (op.opcode x y) := by
  cases op with
  | add | sub | subFrom =>
      simp only [onRegisters, Instruction.HasOpcode, opcode, digit]
      omega
  | shiftRight | shiftLeft =>
      refine ⟨y, ?_⟩
      simp only [opcode, digit]
      omega

/-- Of `a` and `b`, an operation makes the result `r` and the flag `f`. The flag of a difference is
the complement of the borrow, and the left shift leaves the bit that it drops in its place. -/
def Exact (a b r f : Int) : Arithmetic → Prop
  | add => (f = 0 ∨ f = 1) ∧ r + 256 * f = a + b
  | sub => (f = 0 ∨ f = 1) ∧ r + b = a + 256 * (1 - f)
  | shiftRight => (f = 0 ∨ f = 1) ∧ 2 * r + f = a
  | subFrom => (f = 0 ∨ f = 1) ∧ r + a = b + 256 * (1 - f)
  | shiftLeft => (f = 0 ∨ f = 128) ∧ r + 2 * f = 2 * a

variable {op : Arithmetic} {a b r f r' f' : Int}

/-- The equations have at most one solution in bytes. -/
theorem Exact.unique (h : op.Exact a b r f) (h' : op.Exact a b r' f') (hr : IsByte r)
    (hr' : IsByte r') : r = r' ∧ f = f' := by
  obtain ⟨hlow, hhigh⟩ := hr
  obtain ⟨hlow', hhigh'⟩ := hr'
  cases op with
  | add | sub | shiftRight | subFrom | shiftLeft =>
      obtain ⟨hf, heq⟩ := h
      obtain ⟨hf', heq'⟩ := h'
      omega

theorem Exact.isByte (h : op.Exact a b r f) : IsByte f := by
  cases op with
  | add | sub | shiftRight | subFrom | shiftLeft =>
      obtain ⟨hf, -⟩ := h
      exact ⟨by omega, by omega⟩

/-- A difference undoes a sum, and its flag is the other one. -/
theorem Exact.add_sub (h : add.Exact a b r f) (h' : sub.Exact r b r' f') (ha : IsByte a)
    (hr' : IsByte r') : r' = a ∧ f' = 1 - f := by
  obtain ⟨hf, heq⟩ := h
  obtain ⟨hf', heq'⟩ := h'
  obtain ⟨hlow, hhigh⟩ := ha
  obtain ⟨hlow', hhigh'⟩ := hr'
  omega

/-- A sum undoes a difference, and its flag is the other one. -/
theorem Exact.sub_add (h : sub.Exact a b r f) (h' : add.Exact r b r' f') (ha : IsByte a)
    (hr' : IsByte r') : r' = a ∧ f' = 1 - f := by
  obtain ⟨hf, heq⟩ := h
  obtain ⟨hf', heq'⟩ := h'
  obtain ⟨hlow, hhigh⟩ := ha
  obtain ⟨hlow', hhigh'⟩ := hr'
  omega

/-- A difference taken the other way round undoes itself, and has the same flag again. -/
theorem Exact.subFrom_subFrom (h : subFrom.Exact a b r f) (h' : subFrom.Exact r b r' f')
    (ha : IsByte a) (hr' : IsByte r') : r' = a ∧ f' = f := by
  obtain ⟨hf, heq⟩ := h
  obtain ⟨hf', heq'⟩ := h'
  obtain ⟨hlow, hhigh⟩ := ha
  obtain ⟨hlow', hhigh'⟩ := hr'
  omega

end Arithmetic

namespace Machine

variable {ρ : Type} {m m' : Machine ρ} {x y : Fin 16} {r f : Int}

/-! ### One instruction -/

/-- From `m` to `m'`, the flag is set to `f`, the destination to `r` unless it is the flag itself,
and the other registers are as they were. -/
structure Yields (m : Machine ρ) (x : Fin 16) (r f : Int) (m' : Machine ρ) : Prop where
  flag : m'.v[(15 : Fin 16)] = f
  result (hx : x ≠ 15) : m'.v[x] = r
  kept (k : Fin 16) (hk : k ≠ x) (hflag : k ≠ 15) : m'.v[k] = m.v[k]

/-- The flag is written last. -/
theorem yields_setFlag_setV (m : Machine ρ) (x : Fin 16) (r f : Int) :
    m.Yields x r f ((m.setV x r).setFlag f).next := by
  rw [next_setFlag_setV]
  constructor
  case flag => rw [putWithFlag, getElem_ofFn, if_pos rfl]
  case result =>
    intro hx
    rw [putWithFlag, getElem_ofFn, if_neg hx, if_pos rfl]
  case kept =>
    intro k hk hflag
    rw [putWithFlag, getElem_ofFn, if_neg hflag, if_neg hk]

theorem Yields.isByte (h : m.Yields x r f m') (hv : ∀ k : Fin 16, IsByte m.v[k]) (hr : IsByte r)
    (hf : IsByte f) (k : Fin 16) : IsByte m'.v[k] := by
  by_cases hflag : k = 15
  · rw [hflag, h.flag]
    exact hf
  · by_cases hk : k = x
    · subst hk
      rw [h.result hflag]
      exact hr
    · rw [h.kept k hk hflag]
      exact hv k

variable [RandomSource ρ]

/-- **An operation leaves what its equations say,** for any two registers. -/
theorem exists_execute_arithmetic (hv : ∀ k : Fin 16, IsByte m.v[k]) (op : Arithmetic)
    (x y : Fin 16) :
    ∃ r f m', m.execute (op.opcode x y) = .done m' ∧ m.Yields x r f m' ∧ IsByte r ∧
      op.Exact m.v[x] m.v[y] r f := by
  obtain ⟨hlow, hhigh⟩ := hv x
  obtain ⟨hlow', hhigh'⟩ := hv y
  rw [execute_of_hasOpcode (op.hasOpcode_onRegisters x y)]
  cases op with
  | add | sub | subFrom =>
      refine ⟨_, _, _, rfl, yields_setFlag_setV m x _ _, isByte_emod _, ?_⟩
      rw [bit_decide]
      constructor <;> split <;> omega
  | shiftRight =>
      refine ⟨_, _, _, rfl, yields_setFlag_setV m x _ _, ⟨?_, ?_⟩, ?_, ?_⟩
      all_goals omega
  | shiftLeft =>
      refine ⟨_, _, _, rfl, yields_setFlag_setV m x _ _, isByte_emod _, ?_, ?_⟩
      all_goals omega

/-! ### Two instructions -/

/-- Two operations on the same registers, neither of them the flag: the second finds the result of
the first and the same second operand. -/
theorem exists_execute_arithmetic_twice (hv : ∀ k : Fin 16, IsByte m.v[k]) (hxy : x ≠ y)
    (hx : x ≠ 15) (hy : y ≠ 15) (op back : Arithmetic) :
    ∃ m₁ m₂, m.execute (op.opcode x y) = .done m₁ ∧ m₁.execute (back.opcode x y) = .done m₂ ∧
      op.Exact m.v[x] m.v[y] m₁.v[x] m₁.v[(15 : Fin 16)] ∧
      back.Exact m₁.v[x] m.v[y] m₂.v[x] m₂.v[(15 : Fin 16)] ∧ IsByte m₂.v[x] := by
  obtain ⟨r, f, m₁, hexecute, hyields, hr, hexact⟩ := exists_execute_arithmetic hv op x y
  have hv₁ := hyields.isByte hv hr hexact.isByte
  obtain ⟨r', f', m₂, hexecute', hyields', hr', hexact'⟩ := exists_execute_arithmetic hv₁ back x y
  rw [hyields.kept y hxy.symm hy] at hexact'
  refine ⟨m₁, m₂, hexecute, hexecute', ?_, ?_, hyields'.isByte hv₁ hr' hexact'.isByte x⟩
  · rw [hyields.result hx, hyields.flag]
    exact hexact
  · rw [hyields'.result hx, hyields'.flag]
    exact hexact'

/-- **Arithmetic flags are exact.** The equations of an operation have exactly one solution in
bytes. The flag register gets the flag of it, computed from the old operands also where it is one of
them, and the destination gets the result, unless the destination is the flag register. Where
neither register is the flag, a sum and a difference undo each other and the second flag is the
other one, and a difference taken the other way round twice is undone. -/
theorem arithmetic_flags_exact (hv : ∀ k : Fin 16, IsByte m.v[k]) (x y : Fin 16) :
    (∀ op : Arithmetic, ∃ r m', m.execute (op.opcode x y) = .done m' ∧ (x ≠ 15 → m'.v[x] = r) ∧
      ∀ r' f, IsByte r' ∧ op.Exact m.v[x] m.v[y] r' f ↔ r' = r ∧ f = m'.v[(15 : Fin 16)]) ∧
    (x ≠ y → x ≠ 15 → y ≠ 15 →
      (∃ m₁ m₂, m.execute (Arithmetic.add.opcode x y) = .done m₁ ∧
        m₁.execute (Arithmetic.sub.opcode x y) = .done m₂ ∧ m₂.v[x] = m.v[x] ∧
        m₂.v[(15 : Fin 16)] = 1 - m₁.v[(15 : Fin 16)]) ∧
      (∃ m₁ m₂, m.execute (Arithmetic.sub.opcode x y) = .done m₁ ∧
        m₁.execute (Arithmetic.add.opcode x y) = .done m₂ ∧ m₂.v[x] = m.v[x] ∧
        m₂.v[(15 : Fin 16)] = 1 - m₁.v[(15 : Fin 16)]) ∧
      ∃ m₁ m₂, m.execute (Arithmetic.subFrom.opcode x y) = .done m₁ ∧
        m₁.execute (Arithmetic.subFrom.opcode x y) = .done m₂ ∧ m₂.v[x] = m.v[x]) := by
  constructor
  · intro op
    obtain ⟨r, f, m', hexecute, hyields, hr, hexact⟩ := exists_execute_arithmetic hv op x y
    refine ⟨r, m', hexecute, hyields.result, fun r' f' => ?_⟩
    rw [hyields.flag]
    constructor
    · intro hsolution
      exact hsolution.2.unique hexact hsolution.1 hr
    · intro heq
      rw [heq.1, heq.2]
      exact ⟨hr, hexact⟩
  · intro hxy hx hy
    have htwice := exists_execute_arithmetic_twice hv hxy hx hy
    refine ⟨?_, ?_, ?_⟩
    · obtain ⟨m₁, m₂, hfirst, hsecond, hsum, hdifference, hbyte⟩ := htwice .add .sub
      obtain ⟨hback, hflag⟩ := hsum.add_sub hdifference (hv x) hbyte
      exact ⟨m₁, m₂, hfirst, hsecond, hback, hflag⟩
    · obtain ⟨m₁, m₂, hfirst, hsecond, hdifference, hsum, hbyte⟩ := htwice .sub .add
      obtain ⟨hback, hflag⟩ := hdifference.sub_add hsum (hv x) hbyte
      exact ⟨m₁, m₂, hfirst, hsecond, hback, hflag⟩
    · obtain ⟨m₁, m₂, hfirst, hsecond, honce, htwice, hbyte⟩ := htwice .subFrom .subFrom
      exact ⟨m₁, m₂, hfirst, hsecond, (honce.subFrom_subFrom htwice (hv x) hbyte).1⟩

/-- A machine with operands whose sums do not fit into bytes, one of them in the flag register. -/
def largeOperands : Machine CyclicNumbers where
  source := ⟨[0], [0]⟩
  v := Vector.ofFn fun k => if k = 3 then 200 else if k = 15 then 250 else 100

/-- A sum in the flag register is lost to its carry; one in another register is undone. -/
theorem largeOperands_exact :
    (∀ k : Fin 16, IsByte largeOperands.v[k]) ∧
      (∃ m', largeOperands.execute 0x8F74 = .done m' ∧ m'.v[(15 : Fin 16)] = 1) ∧
      ∃ m₁ m₂, largeOperands.execute 0x8374 = .done m₁ ∧ m₁.execute 0x8375 = .done m₂ ∧
        m₂.v[(3 : Fin 16)] = 200 ∧ m₂.v[(15 : Fin 16)] = 1 - m₁.v[(15 : Fin 16)] := by
  have hentry (k : Fin 16) :
      largeOperands.v[k] = if k = 3 then 200 else if k = 15 then 250 else 100 := getElem_ofFn _ k
  have hv (k : Fin 16) : IsByte largeOperands.v[k] := by
    rw [hentry k]
    split
    · exact ⟨by decide, by decide⟩
    · split <;> exact ⟨by decide, by decide⟩
  obtain ⟨r, m', hexecute, -, hsolution⟩ := (arithmetic_flags_exact hv 15 7).1 .add
  obtain ⟨m₁, m₂, hfirst, hsecond, hback, hflag⟩ :=
    ((arithmetic_flags_exact hv 3 7).2 (by decide) (by decide) (by decide)).1
  refine ⟨hv, ⟨m', hexecute, ?_⟩, m₁, m₂, hfirst, hsecond, ?_, hflag⟩
  · -- 250 and 100 make 94 and a carry.
    have hsum : Arithmetic.Exact largeOperands.v[(15 : Fin 16)] largeOperands.v[(7 : Fin 16)] 94 1
        .add := by
      rw [hentry, hentry]
      exact ⟨.inr rfl, by decide⟩
    exact ((hsolution 94 1).mp ⟨⟨by decide, by decide⟩, hsum⟩).2.symm
  · rw [hback, hentry]
    rfl

end Machine

end Chip8
