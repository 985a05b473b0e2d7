import Chip8.Proofs.Surroundings

/-!
# Chip8.Proofs.KeyEvents

Key events and cycles that do not look at the key.

Three instructions look at the keypad: the two that skip on a key, each at one key, and the wait, at
all of them (`Instruction.LooksAt`). No other part of a running machine does, so the keys that are
not looked at may be in any position, before, during and after the cycle (`withKeypad_cycle`). For
the machine of a user this means that a press or a release of such a key may as well come after the
cycle (`operate_cycle_comm`). A number that is no key of the pad names nothing to look at: its
events do nothing, and commute with every cycle.
-/

namespace Chip8

/-- The number of the key that is looked at. -/
theorem Keypad.val_lowKey (n : Int) : ((lowKey n).val : Int) = n % 16 := by
  simp only [lowKey, fourBits, bitField]
  omega

namespace Machine

variable {ρ : Type} {m : Machine ρ}

/-- The machine with its keys in other positions. -/
def withKeypad (m : Machine ρ) (keypad : Keypad) : Machine ρ := { m with keypad }

/-! ### Instructions -/

/-- **An instruction does not depend on keys that it does not look at.** -/
theorem withKeypad_perform [RandomSource ρ] {pad : Keypad} {i : Instruction}
    (h : ∀ k, i.LooksAt m k → pad.held[k] = m.keypad.held[k]) :
    (m.withKeypad pad).perform i = (m.perform i).map (·.withKeypad pad) := by
  by_cases hsource : .source ∈ i.footprint
  · obtain ⟨x, mask, rfl⟩ := Instruction.source_mem_footprint.mp hsource
    rfl
  · have hframe : (m.perform i).state.source = m.source := changesOnly_perform m i .source hsource
    have hwithin : (m.withKeypad pad).perform i = (m.perform i).map (·.within m.source pad) :=
      within_perform hsource h
    rw [hwithin]
    refine Outcome.map_congr ?_
    rw [← hframe]
    rfl

/-! ### Cycles -/

/-- The next cycle runs an instruction that looks at a key with this number. -/
inductive LooksAt (m : Machine ρ) (key : Int) : Prop
  | awaitKey (x : Fin 16) (hw : m.fetch = .ok (0xF00A + 0x100 * x.val))
  | skipPressed (x : Fin 16) (hw : m.fetch = .ok (0xE09E + 0x100 * x.val))
    (hkey : m.v[x] % 16 = key)
  | skipReleased (x : Fin 16) (hw : m.fetch = .ok (0xE0A1 + 0x100 * x.val))
    (hkey : m.v[x] % 16 = key)

theorem looksAt_of_instruction? {i : Instruction} {k : Fin 16} (hi : m.instruction? = some i)
    (h : i.LooksAt m k) : m.LooksAt k.val := by
  obtain ⟨-, w, hfetch, hw⟩ := instruction?_eq_some_iff.mp hi
  cases i with
  | awaitKey x =>
      obtain rfl := hw
      exact .awaitKey x hfetch
  | skipPressed x =>
      obtain rfl := hw
      obtain rfl := h
      exact .skipPressed x hfetch (Keypad.val_lowKey _).symm
  | skipReleased x =>
      obtain rfl := hw
      obtain rfl := h
      exact .skipReleased x hfetch (Keypad.val_lowKey _).symm
  | _ => cases h

variable [RandomSource ρ]

/-- **A cycle does not depend on keys that its instruction does not look at.** -/
theorem withKeypad_cycle {pad : Keypad} (hmode : m.mode = .running)
    (h : ∀ i k, m.instruction? = some i → i.LooksAt m k → pad.held[k] = m.keypad.held[k]) :
    (m.withKeypad pad).cycle = m.cycle.map (·.withKeypad pad) := by
  refine map_cycle (f := (·.withKeypad pad)) rfl rfl (fun _ => rfl) (fun _ => rfl)
    (fun hwait => ?_) fun i hi => ?_
  · rw [hmode] at hwait
    cases hwait
  · exact withKeypad_perform fun k => h i k hi

/-! ### Key events -/

/-- Moving a key commutes with a cycle that does not look at it. -/
theorem cycle_set_comm (hmode : m.mode = .running) {key : Int} (hlooks : ¬m.LooksAt key)
    (down : Bool) :
    (m.withKeypad (m.keypad.set key down)).cycle =
      m.cycle.map fun s => s.withKeypad (s.keypad.set key down) := by
  have hcycle : (m.withKeypad (m.keypad.set key down)).cycle =
      m.cycle.map (·.withKeypad (m.keypad.set key down)) := by
    refine withKeypad_cycle hmode fun i k hi hk => ?_
    have hne : key ≠ k.val := by
      intro heq
      rw [heq] at hlooks
      exact hlooks (looksAt_of_instruction? hi hk)
    rw [Keypad.held_set, if_neg hne]
  rw [hcycle]
  refine Outcome.map_congr ?_
  rw [keypad_cycle]

/-- **A key event may as well come after the cycle** if the cycle does not look at the key: the
cycle then ends the same way, with the same fault if any, and leaves the same machine. Events of
numbers that are no keys of the pad commute with every cycle, those of a wait included. -/
theorem operate_cycle_comm {op : Operation} {key : Int}
    (hop : op = .keyDown key ∨ op = .keyUp key)
    (h : (m.mode = .running ∧ ¬m.LooksAt key) ∨ key < 0 ∨ 16 ≤ key) :
    (m.operate op).cycle = m.cycle.map (·.operate op) := by
  obtain ⟨down, hset⟩ :
      ∃ down, ∀ s : Machine ρ, s.operate op = s.withKeypad (s.keypad.set key down) := by
    cases hop with
    | inl hdown => exact ⟨true, fun s => by rw [hdown]; rfl⟩
    | inr hup => exact ⟨false, fun s => by rw [hup]; rfl⟩
  simp only [hset]
  cases h with
  | inl hrunning => exact cycle_set_comm hrunning.1 hrunning.2 down
  | inr hout =>
      have hkey : Keypad.key? key = none := by
        rw [Keypad.key?, dif_neg (by omega)]
      have hsame (s : Machine ρ) : s.withKeypad (s.keypad.set key down) = s := by
        rw [Keypad.set_of_key?_eq_none hkey]
        rfl
      simp only [hsame]
      cases m.cycle <;> rfl

/-- The machine that is about to skip on the key that `0x13` names, which is the key 3. -/
def beforeSkip : Machine CyclicNumbers where
  source := ⟨[0], [0]⟩
  memory := Memory.initial.overlay programStart #[0xE0, 0x9E]
  v := setAt (Vector.replicate 16 0) 0 0x13

/-- A press of the key 5 may come after the cycle, and so may one of the number `0x13`. -/
theorem beforeSkip_comm :
    ¬beforeSkip.LooksAt 5 ∧
      (beforeSkip.operate (.keyDown 5)).cycle = beforeSkip.cycle.map (·.operate (.keyDown 5)) ∧
      (beforeSkip.operate (.keyDown 0x13)).cycle =
        beforeSkip.cycle.map (·.operate (.keyDown 0x13)) := by
  have hfetch : beforeSkip.fetch = .ok 0xE09E :=
    fetch_of_program (k := 0) rfl rfl (by decide) (by decide) (by decide)
  have hlooks : ¬beforeSkip.LooksAt 5 := by
    intro hlooks
    cases hlooks with
    | awaitKey x hw =>
        have hw := Except.ok.inj (hfetch.symm.trans hw)
        omega
    | skipPressed x hw hkey =>
        have hw := Except.ok.inj (hfetch.symm.trans hw)
        obtain rfl : x = 0 := by omega
        exact absurd hkey (by decide)
    | skipReleased x hw =>
        have hw := Except.ok.inj (hfetch.symm.trans hw)
        omega
  exact ⟨hlooks, operate_cycle_comm (.inl rfl) (.inl ⟨rfl, hlooks⟩),
    operate_cycle_comm (.inl rfl) (.inr (.inr (by decide)))⟩

end Machine

end Chip8
