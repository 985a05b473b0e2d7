import Chip8.Proofs.Stores

/-!
# Chip8.Proofs.Transfer

Registers go to memory and come back.

A store and a load that begin at the same address reach the same cells in the same order, so each is
described by what it leaves (`Stored`, `Loaded`) and the two are put together without another look
at either loop. A load behind a store gives the numbers of the store, whatever list that was
(`exists_load_of_stored`), which covers the digits of a number as well as the registers; a store
behind a load writes back what it found (`memory_of_loaded_of_stored`).
-/

namespace Chip8.Machine

variable {ρ : Type} {m stored loaded : Machine ρ}

/-! ### One instruction -/

section Execute

variable [RandomSource ρ]

theorem exists_execute_storeRegisters (h₀ : 0 ≤ m.i) (hv : ∀ k : Fin 16, IsByte m.v[k])
    (y : Fin 16) (hend : m.i + y.val ≤ 4095) :
    ∃ stored, m.execute (0xF055 + 0x100 * y.val) = .done stored.next ∧
      m.Stored (m.v.toList.take (y.val + 1)) stored := by
  refine ⟨_, ?_, stored_registers h₀ hv y⟩
  rw [execute_of_hasOpcode (i := .storeRegisters y) rfl, perform_storeRegisters h₀,
    if_pos ((Memory.spans_iff _ _).mpr hend)]

theorem exists_execute_storeDecimal (h₀ : 0 ≤ m.i) {x : Fin 16} (hx : IsByte m.v[x])
    (hend : m.i + 2 ≤ 4095) :
    ∃ stored, m.execute (0xF033 + 0x100 * x.val) = .done stored.next ∧
      m.Stored [m.v[x] / 100, m.v[x] / 10 % 10, m.v[x] % 10] stored := by
  refine ⟨_, ?_, stored_digits h₀ hx⟩
  rw [execute_of_hasOpcode (i := .storeDecimal x) rfl, perform_storeDecimal h₀,
    if_pos ((Memory.spans_iff _ 2).mpr hend)]

theorem exists_execute_loadRegisters (h₀ : 0 ≤ m.i) (x : Fin 16) (hend : m.i + x.val ≤ 4095) :
    ∃ loaded, m.execute (0xF065 + 0x100 * x.val) = .done loaded.next ∧
      m.Loaded (x.val + 1) loaded := by
  refine ⟨_, ?_, loaded_loading h₀ _⟩
  rw [execute_of_hasOpcode (i := .loadRegisters x) rfl, perform_loadRegisters h₀,
    if_pos ((Memory.spans_iff _ _).mpr hend)]

end Execute

/-! ### Store, then load -/

theorem Stored.i_eq {values : List Int} (h : m.Stored values stored) : stored.i = m.i := by
  rw [h.frame]

theorem Loaded.i_eq {n : Nat} (h : m.Loaded n loaded) : loaded.i = m.i := by
  rw [h.frame]

theorem Loaded.memory_eq {n : Nat} (h : m.Loaded n loaded) : loaded.memory = m.memory := by
  rw [h.frame]

/-- Among the registers up to one, each is at its own index. -/
theorem getElem?_take_registers (m : Machine ρ) {x k : Fin 16} (hk : k ≤ x) :
    (m.v.toList.take (x.val + 1))[k.val]? = some m.v[k] := by
  have hlt : k.val < m.v.toList.length := by
    rw [Vector.length_toList]
    exact k.isLt
  rw [List.getElem?_take_of_lt (Nat.lt_succ_of_le hk), List.getElem?_eq_getElem hlt,
    Vector.getElem_toList]
  rfl

/-- **A load gives back what was stored.** After a store the registers may change as they like: a
load from the same address gives the numbers of the store, and leaves the other registers, memory
and the index register alone. -/
theorem exists_load_of_stored [RandomSource ρ] (h₀ : 0 ≤ m.i) {values : List Int}
    (hstored : m.Stored values stored) (v : Vector Int 16) {x : Fin 16}
    (hx : x.val < values.length) (hend : m.i + x.val ≤ 4095) :
    ∃ loaded, execute { stored.next with v } (0xF065 + 0x100 * x.val) = .done loaded ∧
      (∀ k ≤ x, values[k.val]? = some loaded.v[k]) ∧ (∀ k : Fin 16, x < k → loaded.v[k] = v[k]) ∧
      loaded.memory = stored.memory ∧ loaded.i = stored.i := by
  have hfrom : stored.i = m.i := hstored.i_eq
  have h₀' : 0 ≤ stored.i := by omega
  have hend' : stored.i + x.val ≤ 4095 := by omega
  obtain ⟨loaded, hexecute, hloaded⟩ :=
    exists_execute_loadRegisters (m := { stored.next with v }) h₀' x hend'
  refine ⟨loaded.next, hexecute, fun k hk => ?_, fun k hk => ?_, hloaded.memory_eq, hloaded.i_eq⟩
  · have hkx : k.val ≤ x.val := hk
    have hreach : stored.i + k.val ≤ 4095 := by omega
    have hcell := hstored.stored k.val (by omega) (by omega)
    have hregister : (stored.memory.read? (stored.i + k.val)).map (fun b => (b.toNat : Int)) =
        some loaded.v[k] := hloaded.loaded k (by omega) hreach
    rw [hfrom, hcell] at hregister
    rw [List.getElem?_eq_getElem (by omega)]
    exact hregister
  · have hkx : x.val < k.val := hk
    exact hloaded.kept k fun hin => by omega

/-! ### Load, then store -/

/-- The registers are bytes after a load if they were bytes before. -/
theorem Loaded.isByte {n : Nat} (h : m.Loaded n loaded) (hv : ∀ k : Fin 16, IsByte m.v[k])
    (k : Fin 16) : IsByte loaded.v[k] := by
  by_cases hin : k < n ∧ m.i + k ≤ 4095
  · obtain ⟨b, -, hb⟩ := Option.map_eq_some_iff.mp (h.loaded k hin.1 hin.2)
    rw [← hb]
    exact isByte_toNat b
  · rw [h.kept k hin]
    exact hv k

/-- **A store after a load writes back what was there.** -/
theorem memory_of_loaded_of_stored {x : Fin 16} (hend : m.i + x.val ≤ 4095)
    (hloaded : m.Loaded (x.val + 1) loaded)
    (hstored : loaded.next.Stored (loaded.v.toList.take (x.val + 1)) stored) :
    stored.memory = m.memory := by
  refine Memory.ext_cells fun a => ?_
  have hcell : (stored.memory.cells[a].toNat : Int) =
      (if loaded.i ≤ a.val then (loaded.v.toList.take (x.val + 1))[(a.val - loaded.i).toNat]?
        else none).getD loaded.memory.cells[a].toNat := hstored.cell a
  rw [hloaded.memory_eq, hloaded.i_eq] at hcell
  refine UInt8.toNat_inj.mp (Int.ofNat_inj.mp (hcell.trans ?_))
  by_cases hfrom : m.i ≤ a.val
  · rw [if_pos hfrom]
    by_cases hlt : (a.val - m.i).toNat ≤ x.val
    · -- The cell belongs to a register, which has been loaded from it.
      obtain ⟨k, hk⟩ : ∃ k : Fin 16, k.val = (a.val - m.i).toNat :=
        ⟨⟨(a.val - m.i).toNat, by omega⟩, rfl⟩
      have hkx : k ≤ x := Fin.le_def.mpr (by omega)
      have hregister := hloaded.loaded k (by omega) (by omega)
      rw [show m.i + (k.val : Int) = a.val by omega, Memory.read?_val, Option.map_some,
        Option.some.injEq] at hregister
      rw [← hk, loaded.getElem?_take_registers hkx, Option.getD_some, hregister]
    · have hfar : (loaded.v.toList.take (x.val + 1)).length ≤ (a.val - m.i).toNat := by
        rw [List.length_take]
        omega
      rw [List.getElem?_eq_none hfar, Option.getD_none]
  · rw [if_neg hfrom, Option.getD_none]

/-! ### There and back -/

variable [RandomSource ρ]

/-- Registers come back, whatever has become of them since they were stored. -/
theorem exists_storeRegisters_load (hv : ∀ k : Fin 16, IsByte m.v[k]) (h₀ : 0 ≤ m.i) {x y : Fin 16}
    (hxy : x ≤ y) (hend : m.i + y.val ≤ 4095) :
    ∃ stored, m.execute (0xF055 + 0x100 * y.val) = .done stored ∧
      ∀ v : Vector Int 16, ∃ loaded,
        execute { stored with v } (0xF065 + 0x100 * x.val) = .done loaded ∧
        (∀ k ≤ x, loaded.v[k] = m.v[k]) ∧ (∀ k : Fin 16, x < k → loaded.v[k] = v[k]) ∧
        loaded.memory = stored.memory ∧ loaded.i = stored.i := by
  have hle : x.val ≤ y.val := hxy
  have hlen : x.val < (m.v.toList.take (y.val + 1)).length := by
    rw [List.length_take, Vector.length_toList]
    omega
  obtain ⟨stored, hstore, hstored⟩ := exists_execute_storeRegisters h₀ hv y hend
  refine ⟨stored.next, hstore, fun v => ?_⟩
  obtain ⟨loaded, hload, hregisters, hrest⟩ := exists_load_of_stored h₀ hstored v hlen (by omega)
  refine ⟨loaded, hload, fun k hk => ?_, hrest⟩
  have hsome := hregisters k hk
  rw [m.getElem?_take_registers (Fin.le_trans hk hxy), Option.some.injEq] at hsome
  exact hsome.symm

/-- Memory is the same after registers have been loaded and stored. -/
theorem exists_load_storeRegisters (hv : ∀ k : Fin 16, IsByte m.v[k]) (h₀ : 0 ≤ m.i) {x : Fin 16}
    (hend : m.i + x.val ≤ 4095) :
    ∃ loaded stored, m.execute (0xF065 + 0x100 * x.val) = .done loaded ∧
      loaded.execute (0xF055 + 0x100 * x.val) = .done stored ∧ stored.memory = m.memory := by
  obtain ⟨loaded, hload, hloaded⟩ := exists_execute_loadRegisters h₀ x hend
  have hfrom : loaded.i = m.i := hloaded.i_eq
  obtain ⟨stored, hstore, hstored⟩ :=
    exists_execute_storeRegisters (m := loaded.next) (hfrom ▸ h₀) (hloaded.isByte hv) x
      (hfrom ▸ hend)
  have hmemory : stored.memory = m.memory := memory_of_loaded_of_stored hend hloaded hstored
  exact ⟨loaded.next, stored.next, hload, hstore, hmemory⟩

/-- The digits of a number come back as three digits that make up the number. -/
theorem exists_storeDecimal_load (h₀ : 0 ≤ m.i) {x : Fin 16} (hx : IsByte m.v[x])
    (hend : m.i + 2 ≤ 4095) :
    ∃ stored loaded, m.execute (0xF033 + 0x100 * x.val) = .done stored ∧
      stored.execute 0xF265 = .done loaded ∧
      (∀ k : Fin 16, k ≤ 2 → 0 ≤ loaded.v[k] ∧ loaded.v[k] ≤ 9) ∧
      100 * loaded.v[(0 : Fin 16)] + 10 * loaded.v[(1 : Fin 16)] + loaded.v[(2 : Fin 16)] =
        m.v[x] := by
  obtain ⟨stored, hstore, hstored⟩ := exists_execute_storeDecimal h₀ hx hend
  obtain ⟨loaded, hload, hregisters, -⟩ :=
    exists_load_of_stored h₀ hstored stored.v (x := 2) (Nat.lt_succ_self 2) hend
  have hhundreds : m.v[x] / 100 = loaded.v[(0 : Fin 16)] :=
    Option.some.inj (hregisters 0 (by decide))
  have htens : m.v[x] / 10 % 10 = loaded.v[(1 : Fin 16)] :=
    Option.some.inj (hregisters 1 (by decide))
  have hones : m.v[x] % 10 = loaded.v[(2 : Fin 16)] :=
    Option.some.inj (hregisters 2 (by decide))
  obtain ⟨hlow, hhigh⟩ := hx
  refine ⟨stored.next, loaded, hstore, hload, fun k hk => ?_, by omega⟩
  match k with
  | 0 => omega
  | 1 => omega
  | 2 => omega

/-- **Store and load undo each other.** Registers that have been stored come back with a load from
the same address, whatever has become of them, and the load touches nothing else; a store right
after a load leaves all of memory as it was; and the digits of a number, stored and loaded, are
three digits that make up the number. All of it works up to the last cell of memory. -/
theorem store_load_inverse (hv : ∀ k : Fin 16, IsByte m.v[k]) (h₀ : 0 ≤ m.i) (x : Fin 16) :
    (∀ y : Fin 16, x ≤ y → m.i + y.val ≤ 4095 →
      ∃ stored, m.execute (0xF055 + 0x100 * y.val) = .done stored ∧
        ∀ v : Vector Int 16, ∃ loaded,
          execute { stored with v } (0xF065 + 0x100 * x.val) = .done loaded ∧
          (∀ k ≤ x, loaded.v[k] = m.v[k]) ∧ (∀ k : Fin 16, x < k → loaded.v[k] = v[k]) ∧
          loaded.memory = stored.memory ∧ loaded.i = stored.i) ∧
    (m.i + x.val ≤ 4095 →
      ∃ loaded stored, m.execute (0xF065 + 0x100 * x.val) = .done loaded ∧
        loaded.execute (0xF055 + 0x100 * x.val) = .done stored ∧ stored.memory = m.memory) ∧
    (m.i + 2 ≤ 4095 →
      ∃ stored loaded, m.execute (0xF033 + 0x100 * x.val) = .done stored ∧
        stored.execute 0xF265 = .done loaded ∧
        (∀ k : Fin 16, k ≤ 2 → 0 ≤ loaded.v[k] ∧ loaded.v[k] ≤ 9) ∧
        100 * loaded.v[(0 : Fin 16)] + 10 * loaded.v[(1 : Fin 16)] + loaded.v[(2 : Fin 16)] =
          m.v[x]) := by
  refine ⟨fun y hxy hend => ?_, fun hend => ?_, fun hend => ?_⟩
  · exact exists_storeRegisters_load hv h₀ hxy hend
  · exact exists_load_storeRegisters hv h₀ hend
  · exact exists_storeDecimal_load h₀ (hv x) hend

/-- A machine with a number in each register, and just enough memory ahead for all of them. -/
def fullRegisters : Machine CyclicNumbers :=
  { source := ⟨[0], [0]⟩, v := Vector.ofFn fun k => 17 * k.val, i := 0xFF0 }

/-- The registers come back from the end of memory after they have been cleared. -/
theorem fullRegisters_come_back :
    (∀ k : Fin 16, IsByte fullRegisters.v[k]) ∧ fullRegisters.i = 0xFF0 ∧
      ∃ stored loaded, fullRegisters.execute 0xFF55 = .done stored ∧
        execute { stored with v := .replicate 16 0 } 0xFF65 = .done loaded ∧
        ∀ k : Fin 16, loaded.v[k] = 17 * k.val := by
  have hentry (k : Fin 16) : fullRegisters.v[k] = 17 * k.val := getElem_ofFn _ k
  have hv (k : Fin 16) : IsByte fullRegisters.v[k] := by
    rw [hentry k]
    exact ⟨by omega, by omega⟩
  have hi : fullRegisters.i = 0xFF0 := rfl
  obtain ⟨stored, hstore, hback⟩ :=
    (store_load_inverse hv (by decide) 15).1 15 (by decide) (by decide)
  obtain ⟨loaded, hload, hregisters, -⟩ := hback (.replicate 16 0)
  refine ⟨hv, hi, stored, loaded, hstore, hload, fun k => ?_⟩
  rw [hregisters k (Fin.le_last k), hentry k]

end Chip8.Machine
