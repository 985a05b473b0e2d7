import Chip8.Proofs.Invariant
import Chip8.Proofs.Pixels

/-!
# Chip8.Proofs.Manual

The instruction set as its manual has it, and that `Machine.execute` follows it.

The manual is a table. `Instruction.ofDigits?` matches the four digits of an opcode against the
patterns of the rows, and `Machine.effect` applies a row: in plain arithmetic, one expression for
each component that the row names. Operands are those of the machine before the instruction, and the
flag comes last, so that it wins over the destination where they are the same register. A row that
cannot be carried out has no effect to speak of (`none`).

`execute` goes another way, through tables of operations on the machine that change it in steps. The
two agree on every opcode (`execute_eq_done_iff`), also where operands, destination and flag are one
register.
-/

namespace Chip8

/-! ### Rows -/

/-- The row of the manual for the digits of an opcode. -/
def Instruction.ofDigits? (a b c d : Fin 16) : Option Instruction :=
  let byte : Fin 256 := ⟨0x10 * c + d, by omega⟩
  let address : Fin 4096 := ⟨0x100 * b + 0x10 * c + d, by omega⟩
  match a, b, c, d with
  | 0x0, 0x0, 0xE, 0x0 => some .clear
  | 0x0, 0x0, 0xE, 0xE => some .ret
  | 0x1, _, _, _ => some (.jump address)
  | 0x2, _, _, _ => some (.call address)
  | 0x3, x, _, _ => some (.skipEqByte x byte)
  | 0x4, x, _, _ => some (.skipNeByte x byte)
  | 0x5, x, y, 0x0 => some (.skipEq x y)
  | 0x6, x, _, _ => some (.loadByte x byte)
  | 0x7, x, _, _ => some (.addByte x byte)
  | 0x8, x, y, 0x0 => some (.copy x y)
  | 0x8, x, y, 0x1 => some (.or x y)
  | 0x8, x, y, 0x2 => some (.and x y)
  | 0x8, x, y, 0x3 => some (.xor x y)
  | 0x8, x, y, 0x4 => some (.add x y)
  | 0x8, x, y, 0x5 => some (.sub x y)
  | 0x8, x, _, 0x6 => some (.shiftRight x)
  | 0x8, x, y, 0x7 => some (.subFrom x y)
  | 0x8, x, _, 0xE => some (.shiftLeft x)
  | 0x9, x, y, 0x0 => some (.skipNe x y)
  | 0xA, _, _, _ => some (.loadIndex address)
  | 0xB, _, _, _ => some (.jumpOffset address)
  | 0xC, x, _, _ => some (.random x byte)
  | 0xD, x, y, n => some (.draw x y n)
  | 0xE, x, 0x9, 0xE => some (.skipPressed x)
  | 0xE, x, 0xA, 0x1 => some (.skipReleased x)
  | 0xF, x, 0x0, 0x7 => some (.readDelay x)
  | 0xF, x, 0x0, 0xA => some (.awaitKey x)
  | 0xF, x, 0x1, 0x5 => some (.setDelay x)
  | 0xF, x, 0x1, 0x8 => some (.setSound x)
  | 0xF, x, 0x1, 0xE => some (.addIndex x)
  | 0xF, x, 0x2, 0x9 => some (.glyph x)
  | 0xF, x, 0x3, 0x3 => some (.storeDecimal x)
  | 0xF, x, 0x5, 0x5 => some (.storeRegisters x)
  | 0xF, x, 0x6, 0x5 => some (.loadRegisters x)
  | _, _, _, _ => none

/-- The row of the manual for an opcode. -/
def Instruction.ofWord? (w : Fin 0x10000) : Option Instruction :=
  ofDigits? ⟨w / 0x1000, by omega⟩ ⟨w / 0x100 % 0x10, by omega⟩ ⟨w / 0x10 % 0x10, by omega⟩
    ⟨w % 0x10, by omega⟩

/-- The row that the digits match has the opcode. -/
theorem Instruction.hasOpcode_of_ofDigits? {a b c d : Fin 16} {i : Instruction}
    (h : ofDigits? a b c d = some i) :
    i.HasOpcode (0x1000 * a.val + 0x100 * b.val + 0x10 * c.val + d.val) := by
  unfold ofDigits? at h
  dsimp only at h
  split at h
  all_goals cases h
  case h_16 | h_18 =>
      refine ⟨c, ?_⟩
      omega
  all_goals
    simp only [HasOpcode]
    omega

/-- The digits of an opcode match the row that has it. -/
theorem Instruction.ofDigits?_of_hasOpcode {a b c d : Fin 16} {i : Instruction}
    (h : i.HasOpcode (0x1000 * a.val + 0x100 * b.val + 0x10 * c.val + d.val)) :
    ofDigits? a b c d = some i := by
  cases i <;> simp only [HasOpcode] at h
  case clear =>
      obtain ⟨rfl, rfl, rfl, rfl⟩ : a = 0x0 ∧ b = 0x0 ∧ c = 0xE ∧ d = 0x0 := by omega
      rfl
  case ret =>
      obtain ⟨rfl, rfl, rfl, rfl⟩ : a = 0x0 ∧ b = 0x0 ∧ c = 0xE ∧ d = 0xE := by omega
      rfl
  case jump address =>
      obtain rfl : a = 0x1 := by omega
      exact congrArg (some <| jump ·) (Fin.ext (by dsimp only; omega))
  case call address =>
      obtain rfl : a = 0x2 := by omega
      exact congrArg (some <| call ·) (Fin.ext (by dsimp only; omega))
  case skipEqByte x byte =>
      obtain ⟨rfl, rfl⟩ : a = 0x3 ∧ b = x := by omega
      exact congrArg (some <| skipEqByte b ·) (Fin.ext (by dsimp only; omega))
  case skipNeByte x byte =>
      obtain ⟨rfl, rfl⟩ : a = 0x4 ∧ b = x := by omega
      exact congrArg (some <| skipNeByte b ·) (Fin.ext (by dsimp only; omega))
  case skipEq x y =>
      obtain ⟨rfl, rfl, rfl, rfl⟩ : a = 0x5 ∧ b = x ∧ c = y ∧ d = 0x0 := by omega
      rfl
  case loadByte x byte =>
      obtain ⟨rfl, rfl⟩ : a = 0x6 ∧ b = x := by omega
      exact congrArg (some <| loadByte b ·) (Fin.ext (by dsimp only; omega))
  case addByte x byte =>
      obtain ⟨rfl, rfl⟩ : a = 0x7 ∧ b = x := by omega
      exact congrArg (some <| addByte b ·) (Fin.ext (by dsimp only; omega))
  case copy x y =>
      obtain ⟨rfl, rfl, rfl, rfl⟩ : a = 0x8 ∧ b = x ∧ c = y ∧ d = 0x0 := by omega
      rfl
  case or x y =>
      obtain ⟨rfl, rfl, rfl, rfl⟩ : a = 0x8 ∧ b = x ∧ c = y ∧ d = 0x1 := by omega
      rfl
  case and x y =>
      obtain ⟨rfl, rfl, rfl, rfl⟩ : a = 0x8 ∧ b = x ∧ c = y ∧ d = 0x2 := by omega
      rfl
  case xor x y =>
      obtain ⟨rfl, rfl, rfl, rfl⟩ : a = 0x8 ∧ b = x ∧ c = y ∧ d = 0x3 := by omega
      rfl
  case add x y =>
      obtain ⟨rfl, rfl, rfl, rfl⟩ : a = 0x8 ∧ b = x ∧ c = y ∧ d = 0x4 := by omega
      rfl
  case sub x y =>
      obtain ⟨rfl, rfl, rfl, rfl⟩ : a = 0x8 ∧ b = x ∧ c = y ∧ d = 0x5 := by omega
      rfl
  case shiftRight x =>
      obtain ⟨y, h⟩ := h
      obtain ⟨rfl, rfl, rfl⟩ : a = 0x8 ∧ b = x ∧ d = 0x6 := by omega
      rfl
  case subFrom x y =>
      obtain ⟨rfl, rfl, rfl, rfl⟩ : a = 0x8 ∧ b = x ∧ c = y ∧ d = 0x7 := by omega
      rfl
  case shiftLeft x =>
      obtain ⟨y, h⟩ := h
      obtain ⟨rfl, rfl, rfl⟩ : a = 0x8 ∧ b = x ∧ d = 0xE := by omega
      rfl
  case skipNe x y =>
      obtain ⟨rfl, rfl, rfl, rfl⟩ : a = 0x9 ∧ b = x ∧ c = y ∧ d = 0x0 := by omega
      rfl
  case loadIndex address =>
      obtain rfl : a = 0xA := by omega
      exact congrArg (some <| loadIndex ·) (Fin.ext (by dsimp only; omega))
  case jumpOffset address =>
      obtain rfl : a = 0xB := by omega
      exact congrArg (some <| jumpOffset ·) (Fin.ext (by dsimp only; omega))
  case random x byte =>
      obtain ⟨rfl, rfl⟩ : a = 0xC ∧ b = x := by omega
      exact congrArg (some <| random b ·) (Fin.ext (by dsimp only; omega))
  case draw x y rows =>
      obtain ⟨rfl, rfl, rfl, rfl⟩ : a = 0xD ∧ b = x ∧ c = y ∧ d = rows := by omega
      rfl
  case skipPressed x =>
      obtain ⟨rfl, rfl, rfl, rfl⟩ : a = 0xE ∧ b = x ∧ c = 0x9 ∧ d = 0xE := by omega
      rfl
  case skipReleased x =>
      obtain ⟨rfl, rfl, rfl, rfl⟩ : a = 0xE ∧ b = x ∧ c = 0xA ∧ d = 0x1 := by omega
      rfl
  case readDelay x =>
      obtain ⟨rfl, rfl, rfl, rfl⟩ : a = 0xF ∧ b = x ∧ c = 0x0 ∧ d = 0x7 := by omega
      rfl
  case awaitKey x =>
      obtain ⟨rfl, rfl, rfl, rfl⟩ : a = 0xF ∧ b = x ∧ c = 0x0 ∧ d = 0xA := by omega
      rfl
  case setDelay x =>
      obtain ⟨rfl, rfl, rfl, rfl⟩ : a = 0xF ∧ b = x ∧ c = 0x1 ∧ d = 0x5 := by omega
      rfl
  case setSound x =>
      obtain ⟨rfl, rfl, rfl, rfl⟩ : a = 0xF ∧ b = x ∧ c = 0x1 ∧ d = 0x8 := by omega
      rfl
  case addIndex x =>
      obtain ⟨rfl, rfl, rfl, rfl⟩ : a = 0xF ∧ b = x ∧ c = 0x1 ∧ d = 0xE := by omega
      rfl
  case glyph x =>
      obtain ⟨rfl, rfl, rfl, rfl⟩ : a = 0xF ∧ b = x ∧ c = 0x2 ∧ d = 0x9 := by omega
      rfl
  case storeDecimal x =>
      obtain ⟨rfl, rfl, rfl, rfl⟩ : a = 0xF ∧ b = x ∧ c = 0x3 ∧ d = 0x3 := by omega
      rfl
  case storeRegisters x =>
      obtain ⟨rfl, rfl, rfl, rfl⟩ : a = 0xF ∧ b = x ∧ c = 0x5 ∧ d = 0x5 := by omega
      rfl
  case loadRegisters x =>
      obtain ⟨rfl, rfl, rfl, rfl⟩ : a = 0xF ∧ b = x ∧ c = 0x6 ∧ d = 0x5 := by omega
      rfl

/-- An opcode is in the row that is printed for it, and in no other. -/
theorem Instruction.ofWord?_eq_some_iff {w : Fin 0x10000} {i : Instruction} :
    ofWord? w = some i ↔ i.HasOpcode w.val := by
  have hdigits : (0x1000 : Int) * (w.val / 0x1000 : Nat) + 0x100 * (w.val / 0x100 % 0x10 : Nat) +
      0x10 * (w.val / 0x10 % 0x10 : Nat) + (w.val % 0x10 : Nat) = w.val := by omega
  rw [← hdigits]
  exact ⟨hasOpcode_of_ofDigits?, ofDigits?_of_hasOpcode (a := ⟨w / 0x1000, by omega⟩)
    (b := ⟨w / 0x100 % 0x10, by omega⟩) (c := ⟨w / 0x10 % 0x10, by omega⟩)
    (d := ⟨w % 0x10, by omega⟩)⟩

namespace Machine

open Memory (Spans)

variable {ρ : Type}

/-- One register is written, and the machine goes on behind the opcode. -/
def put (m : Machine ρ) (x : Fin 16) (value : Int) : Machine ρ :=
  { m with
    v := Vector.ofFn fun k => if k = x then value else m.v[k]
    pc := m.pc + 2 }

/-- One register is written and then the flag, and the machine goes on behind the opcode. -/
def putWithFlag (m : Machine ρ) (x : Fin 16) (value flag : Int) : Machine ρ :=
  { m with
    v := Vector.ofFn fun k => if k = 15 then flag else if k = x then value else m.v[k]
    pc := m.pc + 2 }

/-- The next opcode is skipped under a condition. -/
def skipWhen (m : Machine ρ) (c : Prop) [Decidable c] : Machine ρ :=
  { m with pc := if c then m.pc + 4 else m.pc + 2 }

/-- The key for a number. Numbers go round the pad. -/
def keyOf (n : Int) : Fin 16 := Fin.ofNat 16 (n % 16).toNat

/-- The effect of a row of the manual; `none` where it cannot be carried out. -/
def effect [RandomSource ρ] (m : Machine ρ) : Instruction → Option (Machine ρ)
  | .clear =>
    some { m with
      screen := .blank m.screen.width m.screen.height, drawFlag := true, pc := m.pc + 2 }
  | .ret =>
    if m.sp = 0 then none else some { m with sp := m.sp - 1, pc := m.slot (m.sp - 1) + 2 }
  | .jump target => some { m with pc := target.val }
  | .call target =>
    if m.sp = 16 then none
    else some { m with stack := m.pushed, sp := m.sp + 1, pc := target.val }
  | .skipEqByte x byte => some (m.skipWhen (m.v[x] = byte.val))
  | .skipNeByte x byte => some (m.skipWhen (m.v[x] ≠ byte.val))
  | .skipEq x y => some (m.skipWhen (m.v[x] = m.v[y]))
  | .loadByte x byte => some (m.put x byte.val)
  | .addByte x byte => some (m.put x ((m.v[x] + byte.val) % 256))
  | .copy x y => some (m.put x m.v[y])
  | .or x y => some (m.put x (m.v[x].toNat ||| m.v[y].toNat : Nat))
  | .and x y => some (m.put x (m.v[x].toNat &&& m.v[y].toNat : Nat))
  | .xor x y => some (m.put x (m.v[x].toNat ^^^ m.v[y].toNat : Nat))
  | .add x y =>
    some (m.putWithFlag x ((m.v[x] + m.v[y]) % 256) (if 255 < m.v[x] + m.v[y] then 1 else 0))
  | .sub x y =>
    some (m.putWithFlag x ((m.v[x] - m.v[y]) % 256) (if m.v[x] < m.v[y] then 0 else 1))
  | .shiftRight x => some (m.putWithFlag x (m.v[x] / 2) (m.v[x] % 2))
  | .subFrom x y =>
    some (m.putWithFlag x ((m.v[y] - m.v[x]) % 256) (if m.v[y] < m.v[x] then 0 else 1))
  | .shiftLeft x =>
    some (m.putWithFlag x (m.v[x] * 2 % 256) (if 128 ≤ m.v[x] then 128 else 0))
  | .skipNe x y => some (m.skipWhen (m.v[x] ≠ m.v[y]))
  | .loadIndex address => some { m with i := address.val, pc := m.pc + 2 }
  | .jumpOffset base => some { m with pc := base.val + m.v[(0 : Fin 16)] }
  | .random x mask =>
    let (n, source) := RandomSource.draw m.source
    some ({ m with source }.put x ((n % 256).toNat &&& mask.val : Nat))
  | .draw x y rows =>
    if Spans m.i rows ∧ m.screen.Admits (m.spriteAt rows) then
      some ({ m with
        screen := m.screen.drawn m.v[x] m.v[y] (m.spriteAt rows), drawFlag := true }.put 15
          (if m.screen.Collides m.v[x] m.v[y] (m.spriteAt rows) then 1 else 0))
    else none
  | .skipPressed x => some (m.skipWhen (m.keypad.held[keyOf m.v[x]] = true))
  | .skipReleased x => some (m.skipWhen (m.keypad.held[keyOf m.v[x]] = false))
  | .readDelay x => some (m.put x m.delay)
  | .awaitKey x =>
    some { m with
      mode := .awaitingKey, keyRegister := x, keysAtWait := m.keypad.held, pc := m.pc + 2 }
  | .setDelay x => some { m with delay := m.v[x], pc := m.pc + 2 }
  | .setSound x => some { m with sound := m.v[x], pc := m.pc + 2 }
  | .addIndex x =>
    some ({ m with i := (m.i + m.v[x]) % 65536 }.put 15
      (if 0xFFF < (m.i + m.v[x]) % 65536 then 1 else 0))
  | .glyph x => some { m with i := m.v[x] * 5, pc := m.pc + 2 }
  | .storeDecimal x =>
    if m.i + 2 ≤ 4095 then
      some { m with
        memory := m.memory.withBytes m.i
          ([m.v[x] / 100, m.v[x] / 10 % 10, m.v[x] % 10].map lowByte)
        pc := m.pc + 2 }
    else none
  | .storeRegisters x =>
    if m.i + x.val ≤ 4095 then
      some { m with
        memory := m.memory.withBytes m.i ((m.v.toList.take (x.val + 1)).map lowByte)
        pc := m.pc + 2 }
    else none
  | .loadRegisters x =>
    if m.i + x.val ≤ 4095 then
      some { m with
        v := Vector.ofFn fun k => if k ≤ x then (m.memory.byteAt (m.i + k.val)).toNat else m.v[k]
        pc := m.pc + 2 }
    else none

/-- What the manual has a machine do with an opcode: the effect of its row, or, if it has none, a
note of it. -/
def follow [RandomSource ρ] (m : Machine ρ) (w : Fin 0x10000) : Option (Machine ρ) :=
  match Instruction.ofWord? w with
  | some i => m.effect i
  | none => some { m with lastUnknown := some ⟨w.val, m.pc⟩ }

/-! ### The operations of the machine in the terms of the manual -/

variable {m : Machine ρ}

theorem next_setV (m : Machine ρ) (x : Fin 16) (value : Int) :
    (m.setV x value).next = m.put x value := by
  have hv : setAt m.v x value = Vector.ofFn fun k => if k = x then value else m.v[k] := by
    refine ext_entries fun k => ?_
    simp only [getElem_setAt, getElem_ofFn, eq_comm]
  unfold setV put
  rw [hv]
  rfl

theorem next_setFlag (m : Machine ρ) (flag : Int) : (m.setFlag flag).next = m.put 15 flag :=
  next_setV m 15 flag

/-- The flag is written last. -/
theorem next_setFlag_setV (m : Machine ρ) (x : Fin 16) (value flag : Int) :
    ((m.setV x value).setFlag flag).next = m.putWithFlag x value flag := by
  have hv : setAt (setAt m.v x value) 15 flag =
      Vector.ofFn fun k => if k = 15 then flag else if k = x then value else m.v[k] := by
    refine ext_entries fun k => ?_
    simp only [getElem_setAt, getElem_ofFn, eq_comm]
  unfold setFlag setV putWithFlag
  dsimp only
  rw [hv]
  rfl

theorem next_withMemory (m : Machine ρ) (memory : Memory) :
    next { m with memory } = { m with memory, pc := m.pc + 2 } := rfl

theorem next_storing (m : Machine ρ) (bytes : List UInt8) :
    (m.storing bytes).next =
      { m with memory := m.memory.withBytes m.i bytes, pc := m.pc + 2 } :=
  next_withMemory m (m.memory.withBytes m.i bytes)

theorem next_loading (m : Machine ρ) (x : Fin 16) (h : m.i + x.val ≤ 4095) :
    (m.loading (x.val + 1)).next =
      { m with
        v := Vector.ofFn fun k => if k ≤ x then (m.memory.byteAt (m.i + k.val)).toNat else m.v[k]
        pc := m.pc + 2 } := by
  have hv : m.loadedRegisters (x.val + 1) = Vector.ofFn fun (k : Fin 16) =>
      if k ≤ x then ((m.memory.byteAt (m.i + k.val)).toNat : Int) else m.v[k] := by
    refine ext_entries fun k => ?_
    rw [getElem_loadedRegisters, getElem_ofFn]
    have hlt : (k.val < x.val + 1 ∧ m.i + k.val < memorySize) ↔ k ≤ x := by
      rw [Fin.le_def]
      unfold memorySize
      omega
    simp only [hlt]
  rw [loading, hv]
  rfl

theorem skipIf_eq_skipWhen (m : Machine ρ) (c : Prop) [Decidable c] :
    m.skipIf (decide c) = m.skipWhen c := by
  unfold skipIf skipWhen
  by_cases h : c
  · rw [if_pos (decide_eq_true h), if_pos h]
    rfl
  · rw [if_neg (by simpa using h), if_neg h]
    rfl

theorem bit_decide (c : Prop) [Decidable c] : bit (decide c) = if c then 1 else 0 := by
  unfold bit
  by_cases h : c <;> simp [h]

theorem isPressed_eq (pad : Keypad) (n : Int) : pad.isPressed n = pad.held[keyOf n] := by
  have hkey : Keypad.lowKey n = keyOf n := by
    refine Fin.ext ?_
    simp only [Keypad.lowKey, keyOf, fourBits, bitField, Fin.ofNat]
    omega
  simp only [Keypad.isPressed, hkey]

/-! ### Bits of bytes -/

theorem or_toNat {a b : Int} (ha : IsByte a) (hb : IsByte b) :
    Bitwise.or a b = (a.toNat ||| b.toNat : Nat) := by
  obtain ⟨j, rfl, -⟩ := ha.exists_nat
  obtain ⟨k, rfl, -⟩ := hb.exists_nat
  rfl

theorem and_toNat {a b : Int} (ha : IsByte a) (hb : IsByte b) :
    Bitwise.and a b = (a.toNat &&& b.toNat : Nat) := by
  obtain ⟨j, rfl, -⟩ := ha.exists_nat
  obtain ⟨k, rfl, -⟩ := hb.exists_nat
  rfl

theorem xor_toNat {a b : Int} (ha : IsByte a) (hb : IsByte b) :
    Bitwise.xor a b = (a.toNat ^^^ b.toNat : Nat) := by
  obtain ⟨j, rfl, -⟩ := ha.exists_nat
  obtain ⟨k, rfl, -⟩ := hb.exists_nat
  rfl

/-- A mask that is a byte sees the low byte only, of negative numbers too. -/
theorem and_mask (n : Int) (mask : Fin 256) :
    Bitwise.and n mask.val = ((n % 256).toNat &&& mask.val : Nat) := by
  have hmask {j : Nat} (h : 8 ≤ j) : mask.val.testBit j = false :=
    Nat.testBit_lt_two_pow (Nat.lt_of_lt_of_le (show mask.val < 2 ^ 8 from mask.isLt)
      (Nat.pow_le_pow_right Nat.two_pos h))
  cases n with
  | ofNat k =>
      have hk : (Int.ofNat k % 256).toNat = k % 2 ^ 8 := by
        simp only [Int.ofNat_eq_natCast]
        omega
      rw [hk]
      refine congrArg Int.ofNat (Nat.eq_of_testBit_eq fun j => ?_)
      rw [Nat.testBit_and, Nat.testBit_and, Nat.testBit_mod_two_pow]
      by_cases h : j < 8
      · simp [h]
      · simp [hmask (Nat.le_of_not_lt h)]
  | negSucc k =>
      have hk : (Int.negSucc k % 256).toNat = 2 ^ 8 - (k % 2 ^ 8 + 1) := by
        omega
      -- The bits of the mask that are not bits of the complement.
      have hbits : mask.val ^^^ (mask.val &&& k) = (2 ^ 8 - (k % 2 ^ 8 + 1)) &&& mask.val := by
        refine Nat.eq_of_testBit_eq fun j => ?_
        rw [Nat.testBit_xor, Nat.testBit_and, Nat.testBit_and,
          Nat.testBit_two_pow_sub_succ (Nat.mod_lt _ (by decide)), Nat.testBit_mod_two_pow]
        by_cases h : j < 8
        · cases mask.val.testBit j <;> simp [h]
        · simp [hmask (Nat.le_of_not_lt h)]
      rw [hk, ← hbits]
      rfl

/-! ### Effects -/

theorem done_iff {a b m' : Machine ρ} (h : a = b) :
    (.done a : Outcome (Machine ρ)) = .done m' ↔ some b = some m' := by
  rw [h, Outcome.done.injEq, Option.some.injEq]

theorem done_or_stopped_eq_done_iff {c d : Prop} [Decidable c] [Decidable d] {fault : Fault}
    {a b s m' : Machine ρ} (hc : c ↔ d) (h : a = b) :
    (if c then .done a else .stopped fault s : Outcome (Machine ρ)) = .done m' ↔
      (if d then some b else none) = some m' := by
  by_cases hd : d
  · rw [if_pos (hc.mpr hd), if_pos hd, done_iff h]
  · rw [if_neg fun hc' => hd (hc.mp hc'), if_neg hd]
    simp

theorem stopped_or_done_eq_done_iff {c : Prop} [Decidable c] {fault : Fault}
    {a b s m' : Machine ρ} (h : a = b) :
    (if c then .stopped fault s else .done a : Outcome (Machine ρ)) = .done m' ↔
      (if c then none else some b) = some m' := by
  by_cases hc : c
  · rw [if_pos hc, if_pos hc]
    simp
  · rw [if_neg hc, if_neg hc, done_iff h]

/-- **Every instruction has the effect of its row,** and is carried out exactly where the row can
be. -/
theorem perform_eq_done_iff [RandomSource ρ] (h : m.Bounded) {i : Instruction} {m' : Machine ρ} :
    m.perform i = .done m' ↔ m.effect i = some m' := by
  have hv := h.v
  cases i with
  | clear => exact done_iff rfl
  | ret =>
      rw [perform_ret h.sp.1 h.sp.2]
      exact stopped_or_done_eq_done_iff rfl
  | jump target => exact done_iff rfl
  | call target =>
      rw [perform_call h.sp.1 h.sp.2]
      exact stopped_or_done_eq_done_iff rfl
  | skipEqByte x byte => exact done_iff (skipIf_eq_skipWhen m _)
  | skipNeByte x byte => exact done_iff (skipIf_eq_skipWhen m _)
  | skipEq x y => exact done_iff (skipIf_eq_skipWhen m _)
  | loadByte x byte => exact done_iff (next_setV m x _)
  | addByte x byte => exact done_iff (next_setV m x _)
  | copy x y => exact done_iff (next_setV m x _)
  | or x y =>
      refine done_iff ?_
      rw [next_setV, or_toNat (hv x) (hv y)]
  | and x y =>
      refine done_iff ?_
      rw [next_setV, and_toNat (hv x) (hv y)]
  | xor x y =>
      refine done_iff ?_
      rw [next_setV, xor_toNat (hv x) (hv y)]
  | add x y =>
      refine done_iff ?_
      rw [next_setFlag_setV, bit_decide]
  | sub x y =>
      refine done_iff ?_
      rw [next_setFlag_setV, bit_decide]
      congr 1
      split <;> split <;> omega
  | shiftRight x => exact done_iff (next_setFlag_setV m x _ _)
  | subFrom x y =>
      refine done_iff ?_
      rw [next_setFlag_setV, bit_decide]
      congr 1
      split <;> split <;> omega
  | shiftLeft x =>
      obtain ⟨hlow, hhigh⟩ := hv x
      refine done_iff ?_
      rw [next_setFlag_setV, Int.mul_comm 2]
      congr 1
      split <;> omega
  | skipNe x y => exact done_iff (skipIf_eq_skipWhen m _)
  | loadIndex address => exact done_iff rfl
  | jumpOffset base => exact done_iff rfl
  | random x mask =>
      refine done_iff ?_
      rw [next_setV, and_mask]
  | draw x y rows =>
      rw [perform_draw h.i.1, effect]
      by_cases hspans : Spans m.i rows
      · rw [if_pos hspans, Screen.draw?_eq]
        by_cases hadmits : m.screen.Admits (m.spriteAt rows)
        · rw [if_pos hadmits, if_pos ⟨hspans, hadmits⟩]
          refine done_iff ?_
          rw [next_setFlag, bit_decide]
        · rw [if_neg hadmits, if_neg fun hc => hadmits hc.2]
          simp
      · rw [if_neg hspans, if_neg fun hc => hspans hc.1]
        simp
  | skipPressed x =>
      refine done_iff ?_
      rw [isPressed_eq, ← skipIf_eq_skipWhen, Bool.decide_eq_true]
  | skipReleased x =>
      refine done_iff ?_
      rw [isPressed_eq, ← skipIf_eq_skipWhen, Bool.decide_eq_false]
  | readDelay x => exact done_iff (next_setV m x _)
  | awaitKey x => exact done_iff rfl
  | setDelay x => exact done_iff rfl
  | setSound x => exact done_iff rfl
  | addIndex x =>
      refine done_iff ?_
      rw [next_setFlag, bit_decide]
  | glyph x => exact done_iff rfl
  | storeDecimal x =>
      rw [perform_storeDecimal h.i.1]
      exact done_or_stopped_eq_done_iff (Memory.spans_iff m.i 2) (next_storing m _)
  | storeRegisters x =>
      rw [perform_storeRegisters h.i.1]
      refine done_or_stopped_eq_done_iff (Memory.spans_iff m.i x.val) ?_
      rw [← map_registersTo, List.map_map]
      exact next_storing m _
  | loadRegisters x =>
      rw [perform_loadRegisters h.i.1]
      by_cases hi : m.i + x.val ≤ 4095
      · rw [if_pos ((Memory.spans_iff _ _).mpr hi), effect, if_pos hi]
        exact done_iff (next_loading m x hi)
      · rw [if_neg (mt (Memory.spans_iff _ _).mp hi), effect, if_neg hi]
        simp

/-- **Execution follows the manual.** In a machine whose registers are bytes and whose pointers are
in range, every opcode is carried out exactly where the manual can carry it out, and leaves exactly
the machine that the manual has. -/
theorem execute_eq_done_iff [RandomSource ρ] (h : m.Bounded) (w : Fin 0x10000)
    (m' : Machine ρ) : m.execute w.val = .done m' ↔ m.follow w = some m' := by
  have h₁ : (w.val : Int) < 0x10000 := by omega
  rcases m.execute_cases (Int.natCast_nonneg w.val) h₁ with ⟨i, hi, hexec⟩ | ⟨hnone, hexec⟩
  · rw [hexec, follow, Instruction.ofWord?_eq_some_iff.mpr hi]
    exact perform_eq_done_iff h
  · have hrow : Instruction.ofWord? w = none :=
      Option.eq_none_iff_forall_ne_some.mpr fun i hi =>
        hnone i (Instruction.ofWord?_eq_some_iff.mp hi)
    rw [hexec, follow, hrow]
    exact done_iff rfl

/-- Where both operands are the flag register, their sum is lost to the carry. -/
theorem execute_add_flag :
    let m : Machine CyclicNumbers := { source := ⟨[0], [0]⟩, v := Vector.replicate 16 200 }
    m.Bounded ∧ m.execute 0x8FF4 = .done (m.putWithFlag 15 144 1) := by
  intro m
  have hbounded : m.Bounded :=
    { v := fun x => by simp [m, IsByte]
      sp := by decide
      i := by decide }
  have hrow : Instruction.ofWord? 0x8FF4 = some (.add 15 15) :=
    Instruction.ofWord?_eq_some_iff.mpr rfl
  have hfollow : m.follow 0x8FF4 = some (m.putWithFlag 15 144 1) := by
    rw [follow, hrow]
    rfl
  exact ⟨hbounded, (execute_eq_done_iff hbounded 0x8FF4 _).mpr hfollow⟩

end Machine

end Chip8
