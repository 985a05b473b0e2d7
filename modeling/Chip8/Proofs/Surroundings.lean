import Chip8.Proofs.Flags
import Chip8.Proofs.Footprint

/-!
# Chip8.Proofs.Surroundings

What a machine meets from outside: the numbers it draws and the keys of its pad.

One instruction draws a number, and three look at keys, two of them at a single one. To all others
the source of numbers and the keypad might be any others (`Machine.within`), and they would do the
same to the rest of the machine (`within_perform`). So a statement about machines that differ in
their keys, or in their numbers, has to look at those instructions only.
-/

namespace Chip8

/-- The instruction looks at the key. -/
def Instruction.LooksAt {ρ : Type} (m : Machine ρ) (k : Fin 16) : Instruction → Prop
  | .skipPressed x | .skipReleased x => Keypad.lowKey m.v[x] = k
  | .awaitKey _ => True
  | _ => False

/-- Numbers are drawn by one instruction. -/
theorem Instruction.source_mem_footprint {i : Instruction} :
    .source ∈ i.footprint ↔ ∃ x mask, i = .random x mask := by
  cases i <;> simp [footprint]

namespace Machine

variable {ρ σ : Type} {m : Machine ρ}

/-- The machine with another source of numbers and another keypad. The numbers may come from a
source of another kind. -/
def within (m : Machine ρ) (source : σ) (keypad : Keypad) : Machine σ := { m with source, keypad }

section

variable (m : Machine ρ) (source : σ) (pad : Keypad)

@[simp] theorem sp_within : (m.within source pad).sp = m.sp := rfl
@[simp] theorem v_within : (m.within source pad).v = m.v := rfl
@[simp] theorem i_within : (m.within source pad).i = m.i := rfl
@[simp] theorem memory_within : (m.within source pad).memory = m.memory := rfl
@[simp] theorem screen_within : (m.within source pad).screen = m.screen := rfl
@[simp] theorem keypad_within : (m.within source pad).keypad = pad := rfl

theorem within_next : m.next.within source pad = (m.within source pad).next := rfl

theorem within_skipIf (c : Bool) :
    (m.within source pad).skipIf c = (m.skipIf c).within source pad := by
  cases c <;> rfl

theorem within_store (bytes : List UInt8) :
    (m.within source pad).store bytes = (m.store bytes).map (·.within source pad) := by
  simp only [store, memory_within, i_within]
  cases m.memory.writeBlock m.i bytes with
  | mk memory missing? => cases missing? <;> rfl

theorem within_fill (xs : List (Fin 16)) :
    (m.within source pad).fill xs = (m.fill xs).map (·.within source pad) := by
  induction xs generalizing m with
  | nil => rfl
  | cons x xs ih =>
      simp only [fill, memory_within, i_within]
      cases m.memory.read? (m.i + x.val) with
      | none => rfl
      | some b => exact ih (m.setV x b.toNat)

end

variable [RandomSource ρ] [RandomSource σ]

/-- **An instruction does not depend on numbers that it does not draw,** nor on keys that it does
not look at. -/
theorem within_perform {source : σ} {pad : Keypad} {i : Instruction}
    (hsource : .source ∉ i.footprint)
    (hpad : ∀ k, i.LooksAt m k → pad.held[k] = m.keypad.held[k]) :
    (m.within source pad).perform i = (m.perform i).map (·.within source pad) := by
  cases i with
  | random x mask => exact absurd (Instruction.source_mem_footprint.mpr ⟨x, mask, rfl⟩) hsource
  | ret =>
      rw [perform, perform]
      by_cases hempty : m.sp = 0
      · rw [if_pos hempty, if_pos (by exact hempty)]
        rfl
      · rw [if_neg hempty, if_neg (by exact hempty)]
        simp only [sp_within]
        cases slot? (m.sp - 1) <;> rfl
  | call target =>
      rw [perform, perform]
      by_cases hfull : 16 ≤ m.sp
      · rw [if_pos hfull, if_pos (by exact hfull)]
        rfl
      · rw [if_neg hfull, if_neg (by exact hfull)]
        simp only [sp_within]
        cases slot? m.sp <;> rfl
  | draw x y rows =>
      simp only [perform, memory_within, i_within, screen_within, v_within]
      cases m.memory.readBlock m.i rows.val with
      | error address => rfl
      | ok sprite =>
          dsimp only
          cases m.screen.draw? m.v[x] m.v[y] (sprite.map fun b => (b.toNat : Int)) <;> rfl
  | skipPressed x =>
      have hkey : pad.isPressed m.v[x] = m.keypad.isPressed m.v[x] := hpad _ rfl
      simp only [perform, keypad_within, v_within, hkey]
      exact congrArg Outcome.done (within_skipIf m source pad _)
  | skipReleased x =>
      have hkey : pad.isPressed m.v[x] = m.keypad.isPressed m.v[x] := hpad _ rfl
      simp only [perform, keypad_within, v_within, hkey]
      exact congrArg Outcome.done (within_skipIf m source pad _)
  | awaitKey x =>
      have hheld : pad.held = m.keypad.held := ext_entries fun k => hpad k trivial
      simp only [perform, keypad_within, hheld]
      rfl
  | skipEqByte | skipNeByte | skipEq | skipNe =>
      exact congrArg Outcome.done (within_skipIf m source pad _)
  | storeDecimal | storeRegisters => exact within_store m source pad _
  | loadRegisters x =>
      have hnext (s : Machine ρ) := within_next s source pad
      rw [perform, perform, Outcome.map_andThen hnext, within_fill]
  | _ => rfl

/-! ### Cycles -/

omit [RandomSource ρ] [RandomSource σ] in
theorem within_scan (m : Machine ρ) (source : σ) (keys : List (Fin 16)) :
    (m.within source m.keypad).scan keys = (m.scan keys).within source m.keypad := by
  induction keys generalizing m with
  | nil => rfl
  | cons k keys ih =>
      rw [scan, scan]
      by_cases hfresh : (m.keypad.held[k] && !m.keysAtWait[k]) = true
      · rw [if_pos hfresh, if_pos (by exact hfresh)]
        rfl
      · rw [if_neg hfresh, if_neg (by exact hfresh)]
        by_cases hheld : m.keypad.held[k] = true
        · rw [if_pos hheld, if_pos (by exact hheld)]
          exact ih m
        · rw [if_neg hheld, if_neg (by exact hheld)]
          exact ih { m with keysAtWait := setAt m.keysAtWait k false }

/-- What makes no difference to the instruction of a cycle, nor to a look at the keypad, makes none
to the cycle. -/
theorem map_cycle {f : Machine ρ → Machine σ} (hmode : (f m).mode = m.mode)
    (hfetch : (f m).fetch = m.fetch)
    (hnote : ∀ w, f { m with lastUnknown := some ⟨w, m.pc⟩ } =
      { f m with lastUnknown := some ⟨w, (f m).pc⟩ })
    (htick : ∀ s, f s.tick = (f s).tick)
    (hpoll : m.mode = .awaitingKey → (f m).poll = f m.poll)
    (hperform : ∀ i, m.instruction? = some i → (f m).perform i = (m.perform i).map f) :
    (f m).cycle = m.cycle.map f := by
  have hact : (f m).act = m.act.map f := by
    rcases m.act_cases with ⟨hwait, hact⟩ | ⟨hrun, address, hword, hact⟩ |
      ⟨hrun, w, i, hword, hi, hact⟩ | ⟨hrun, w, hword, hnone, hact⟩
    · rw [hact, act_of_awaitingKey (hmode.trans hwait), hpoll hwait]
      rfl
    · rw [hact, act_of_fetch_eq_error (hmode.trans hrun) (hfetch.trans hword)]
      rfl
    · rw [hact, act_of_fetch_eq_ok (hmode.trans hrun) (hfetch.trans hword),
        execute_of_hasOpcode hi, hperform i (instruction?_of_fetch hrun hword hi)]
    · obtain ⟨-, h₀, h₁⟩ := fetch_eq_ok hword
      rw [hact, act_of_fetch_eq_ok (hmode.trans hrun) (hfetch.trans hword),
        execute_of_unassigned h₀ h₁ hnone]
      exact congrArg Outcome.done (hnote w).symm
  rw [cycle, cycle, hact, Outcome.map_andThen htick]

end Machine

end Chip8
