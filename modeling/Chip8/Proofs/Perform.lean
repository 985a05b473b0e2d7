import Chip8.Machine.Perform
import Chip8.Proofs.Blocks

/-!
# Chip8.Proofs.Perform

The instructions that can stop, each as one equation.

A call and a return stop at the ends of the stack. The four instructions that access memory at the
index register reach some number of cells: if the cells exist the instruction is done, and if not it
stops with the same fault (`Machine.overrun`) whichever of the four it is. The stores and the
register load have by then done what they would have done to the cells that exist, so what they
leave is one expression for both endings, and only the draw, which reads before it does anything,
leaves nothing.
-/

namespace Chip8.Machine

open Memory (Spans firstMissing)

variable {ρ : Type} {m : Machine ρ}

/-! ### The stack -/

/-- The address in a slot of the stack; zero if there is no such slot. -/
def slot (m : Machine ρ) (index : Int) : Int := m.stack[index.toNat]?.getD 0

/-- The stack with the program counter in the slot that the stack pointer names. -/
def pushed (m : Machine ρ) : Vector Int 16 := m.stack.setIfInBounds m.sp.toNat m.pc

/-- A slot within the stack exists. -/
theorem slot?_of_mem {index : Int} (h₀ : 0 ≤ index) (h₁ : index < 16) :
    slot? index = some ⟨index.toNat, by omega⟩ := by
  simp only [slot?, if_pos (show -16 ≤ index ∧ index < 16 by omega),
    Int.emod_eq_of_lt h₀ h₁]

theorem slot_eq {index : Int} (h₀ : 0 ≤ index) (h₁ : index < 16) :
    m.slot index = m.stack[(⟨index.toNat, by omega⟩ : Fin 16)] := by
  have hlt : index.toNat < 16 := by omega
  rw [slot, Vector.getElem?_eq_getElem hlt]
  rfl

theorem pushed_eq (h₀ : 0 ≤ m.sp) (h₁ : m.sp < 16) :
    m.pushed = setAt m.stack ⟨m.sp.toNat, by omega⟩ m.pc := by
  refine Vector.ext fun k hk => ?_
  rw [pushed, setAt, Vector.getElem_setIfInBounds, Vector.getElem_set]

/-- A return from the empty stack stops. -/
theorem perform_ret [RandomSource ρ] (h₀ : 0 ≤ m.sp) (h₁ : m.sp ≤ 16) :
    m.perform .ret =
      if m.sp = 0 then .stopped (.returnWithoutCall m.pc) m
      else .done ({ m with sp := m.sp - 1 }.goto (m.slot (m.sp - 1) + 2)) := by
  by_cases hempty : m.sp = 0
  · rw [perform, if_pos hempty, if_pos hempty]
  · rw [perform, if_neg hempty, if_neg hempty, slot_eq (by omega) (by omega)]
    dsimp only
    rw [slot?_of_mem (by omega) (by omega)]

/-- A call on the full stack stops. -/
theorem perform_call [RandomSource ρ] (h₀ : 0 ≤ m.sp) (h₁ : m.sp ≤ 16) (target : Fin 4096) :
    m.perform (.call target) =
      if m.sp = 16 then .stopped (.callTooDeep target m.pc) m
      else .done ({ m with stack := m.pushed, sp := m.sp + 1 }.goto target.val) := by
  by_cases hfull : m.sp = 16
  · rw [perform, if_pos (by omega), if_pos hfull]
  · rw [perform, if_neg (by omega), if_neg hfull, pushed_eq h₀ (by omega),
      slot?_of_mem h₀ (by omega)]

/-! ### Access at the index register -/

/-- The fault of an access at the index register that leaves memory. -/
def overrun (m : Machine ρ) : Fault := .outOfMemory (firstMissing m.i)

/-- Memory with bytes from the index register on. -/
def storing (m : Machine ρ) (bytes : List UInt8) : Machine ρ :=
  { m with memory := m.memory.withBytes m.i bytes }

/-- The registers, the first `n` loaded from the index register on, as far as memory reaches. -/
def loadedRegisters (m : Machine ρ) (n : Nat) : Vector Int 16 :=
  Vector.ofFn fun k =>
    if k < n ∧ m.i + k < memorySize then (m.memory.byteAt (m.i + k)).toNat else m.v[k]

theorem getElem_loadedRegisters (m : Machine ρ) (n : Nat) (k : Fin 16) :
    (m.loadedRegisters n)[k] =
      if k < n ∧ m.i + k < memorySize then ((m.memory.byteAt (m.i + k)).toNat : Int)
      else m.v[k] := by
  rw [loadedRegisters, getElem_ofFn]

-- Like `withBytes`: known by its entries from here on.
attribute [irreducible] loadedRegisters

/-- The machine with its first `n` registers loaded. -/
def loading (m : Machine ρ) (n : Nat) : Machine ρ := { m with v := m.loadedRegisters n }

@[simp] theorem memory_loading (m : Machine ρ) (n : Nat) : (m.loading n).memory = m.memory := rfl
@[simp] theorem i_loading (m : Machine ρ) (n : Nat) : (m.loading n).i = m.i := rfl

/-! ### Storing -/

theorem store_eq (h₀ : 0 ≤ m.i) (bytes : List UInt8) :
    m.store bytes =
      if Spans m.i bytes.length then .done (m.storing bytes).next
      else .stopped m.overrun (m.storing bytes) := by
  by_cases h : Spans m.i bytes.length
  · simp only [store, Memory.writeBlock_eq m.memory h₀, if_pos h]
    rfl
  · simp only [store, Memory.writeBlock_eq m.memory h₀, if_neg h]
    rfl

theorem length_registersTo (x : Fin 16) : (registersTo x).length = x.val + 1 := by
  rw [registersTo, List.length_take, List.length_finRange]
  omega

/-- The registers up to one are those at the front of the register file. -/
theorem map_registersTo (m : Machine ρ) (x : Fin 16) :
    (registersTo x).map (fun k => m.v[k]) = m.v.toList.take (x.val + 1) := by
  rw [registersTo, List.map_take]
  congr 1
  refine List.ext_getElem (by simp) fun k hk hk' => ?_
  rw [List.getElem_map, List.getElem_finRange, Vector.getElem_toList]
  rfl

theorem perform_storeDecimal [RandomSource ρ] (h₀ : 0 ≤ m.i) (x : Fin 16) :
    m.perform (.storeDecimal x) =
      if Spans m.i 3 then .done (m.storing ((decimalDigits m.v[x]).map lowByte)).next
      else .stopped m.overrun (m.storing ((decimalDigits m.v[x]).map lowByte)) :=
  store_eq h₀ _

theorem perform_storeRegisters [RandomSource ρ] (h₀ : 0 ≤ m.i) (x : Fin 16) :
    m.perform (.storeRegisters x) =
      if Spans m.i (x.val + 1) then
        .done (m.storing ((registersTo x).map fun k => lowByte m.v[k])).next
      else .stopped m.overrun (m.storing ((registersTo x).map fun k => lowByte m.v[k])) := by
  refine (store_eq h₀ _).trans ?_
  rw [List.length_map, length_registersTo]

/-! ### Loading -/

theorem fill_append (m : Machine ρ) (xs ys : List (Fin 16)) :
    m.fill (xs ++ ys) =
      match m.fill xs with
      | .done m' => m'.fill ys
      | .stopped fault m' => .stopped fault m' := by
  induction xs generalizing m with
  | nil => rfl
  | cons x xs ih =>
      rw [List.cons_append, fill, fill]
      cases m.memory.read? (m.i + x.val) with
      | none => rfl
      | some b => exact ih _

theorem loading_zero (m : Machine ρ) : m.loading 0 = m := by
  have hv : m.loadedRegisters 0 = m.v := by
    refine ext_entries fun k => ?_
    rw [getElem_loadedRegisters, if_neg (by omega)]
  rw [loading, hv]

/-- The register after the loaded ones is loaded from the next cell, if there is one. -/
theorem loading_succ_of_lt {n : Nat} (hn : n < 16) (h : m.i + n < memorySize) :
    (m.loading n).setV ⟨n, hn⟩ (m.memory.byteAt (m.i + n)).toNat = m.loading (n + 1) := by
  have hv : setAt (m.loadedRegisters n) ⟨n, hn⟩ (m.memory.byteAt (m.i + n)).toNat =
      m.loadedRegisters (n + 1) := by
    refine ext_entries fun k => ?_
    rw [getElem_setAt, getElem_loadedRegisters, getElem_loadedRegisters]
    by_cases hkn : ⟨n, hn⟩ = k
    · subst hkn
      rw [if_pos rfl, if_pos ⟨Nat.lt_succ_self n, h⟩]
    · have hne : n ≠ k.val := fun heq => hkn (Fin.ext heq)
      have hk : k.val < n + 1 ↔ k.val < n := by omega
      simp only [if_neg hkn, hk]
  simp only [loading, setV, hv]

theorem loading_succ_of_le {n : Nat} (h : memorySize ≤ m.i + n) :
    m.loading (n + 1) = m.loading n := by
  have hv : m.loadedRegisters (n + 1) = m.loadedRegisters n := by
    refine ext_entries fun k => ?_
    rw [getElem_loadedRegisters, getElem_loadedRegisters]
    have hk : (k.val < n + 1 ∧ m.i + (k.val : Int) < memorySize) ↔
        (k.val < n ∧ m.i + (k.val : Int) < memorySize) := by omega
    simp only [hk]
  rw [loading, hv, loading]

theorem take_succ_finRange {n : Nat} (hn : n < 16) :
    (List.finRange 16).take (n + 1) = (List.finRange 16).take n ++ [⟨n, hn⟩] := by
  have hlen : n < (List.finRange 16).length := by
    rw [List.length_finRange]
    exact hn
  have hget : (List.finRange 16)[n] = ⟨n, hn⟩ := List.getElem_finRange hlen
  rw [List.take_succ_eq_append_getElem hlen, hget]

/-- Registers are loaded in order, so what was loaded is always a run of the first ones. -/
theorem fill_take (h₀ : 0 ≤ m.i) (n : Nat) (hn : n ≤ 16) :
    m.fill ((List.finRange 16).take n) =
      if Spans m.i n then .done (m.loading n) else .stopped m.overrun (m.loading n) := by
  induction n with
  | zero => rw [List.take_zero, fill, if_pos (.inl rfl), loading_zero]
  | succ n ih =>
      rw [take_succ_finRange hn, fill_append, ih (by omega)]
      by_cases h : Spans m.i n
      · rw [if_pos h]
        dsimp only
        rw [fill, memory_loading, i_loading]
        dsimp only
        by_cases h' : m.i + n < memorySize
        · rw [Memory.read?_of_mem (by omega) h']
          dsimp only
          rw [fill, loading_succ_of_lt hn h', if_pos (.inr (by omega))]
        · have hend : m.i + n = firstMissing m.i := by
            unfold Spans at h
            unfold firstMissing
            omega
          rw [Memory.read?_of_le (by omega), loading_succ_of_le (by omega),
            if_neg (by unfold Spans; omega), overrun, ← hend]
      · have hend : memorySize ≤ m.i + n := by
          unfold Spans at h
          omega
        rw [if_neg h, loading_succ_of_le hend, if_neg (by unfold Spans; omega)]

theorem perform_loadRegisters [RandomSource ρ] (h₀ : 0 ≤ m.i) (x : Fin 16) :
    m.perform (.loadRegisters x) =
      if Spans m.i (x.val + 1) then .done (m.loading (x.val + 1)).next
      else .stopped m.overrun (m.loading (x.val + 1)) := by
  rw [perform, registersTo, fill_take h₀ _ (by omega)]
  split <;> rfl

/-! ### Drawing -/

/-- The rows of a sprite at the index register. -/
def spriteAt (m : Machine ρ) (rows : Nat) : List Int :=
  (m.memory.bytesAt m.i rows).map fun b => (b.toNat : Int)

theorem perform_draw [RandomSource ρ] (h₀ : 0 ≤ m.i) (x y rows : Fin 16) :
    m.perform (.draw x y rows) =
      if Spans m.i rows then
        match m.screen.draw? m.v[x] m.v[y] (m.spriteAt rows) with
        | none => .stopped .emptyScreen m
        | some (screen, hit) =>
          .done ({ m with screen, drawFlag := true }.setFlag (bit hit)).next
      else .stopped m.overrun m := by
  by_cases h : Spans m.i rows
  · simp only [perform, Memory.readBlock_eq m.memory h₀, if_pos h]
    rfl
  · simp only [perform, Memory.readBlock_eq m.memory h₀, if_neg h]
    rfl

end Chip8.Machine
