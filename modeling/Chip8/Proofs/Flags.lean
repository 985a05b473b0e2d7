import Chip8.Proofs.Invariant

/-!
# Chip8.Proofs.Flags

No part of a cycle looks at the two flags.

The draw flag and the cue flag are there for whoever shows the screen and sounds the cue. The
machine raises them and never asks for them, so machines that differ in nothing else
(`Machine.unflagged`) run alike: `unflagged_cycle` says that a cycle ends the same way with the
flags as without them.
-/

namespace Chip8

namespace Outcome

variable {σ τ : Type}

/-- The same ending with another state. -/
def map (f : σ → τ) : Outcome σ → Outcome τ
  | done s => done (f s)
  | stopped fault s => stopped fault (f s)

@[simp] theorem map_done (f : σ → τ) (s : σ) : (done s).map f = done (f s) := rfl
@[simp] theorem map_stopped (f : σ → τ) (fault : Fault) (s : σ) :
    (stopped fault s).map f = stopped fault (f s) := rfl

theorem map_andThen {f : σ → τ} {g : σ → σ} {k : τ → τ} (h : ∀ s, f (g s) = k (f s))
    (o : Outcome σ) : (o.andThen g).map f = (o.map f).andThen k := by
  cases o with
  | done s => simp only [andThen_done, map_done, h]
  | stopped fault s => rfl

theorem map_congr {f g : σ → τ} {o : Outcome σ} (h : f o.state = g o.state) :
    o.map f = o.map g := by
  cases o with
  | done s => exact congrArg done h
  | stopped fault s => exact congrArg (stopped fault) h

end Outcome

namespace Machine

variable {ρ : Type} {m m' : Machine ρ}

/-- The machine with both flags down. -/
def unflagged (m : Machine ρ) : Machine ρ := { m with drawFlag := false, cueFlag := false }

@[simp] theorem sp_unflagged (m : Machine ρ) : m.unflagged.sp = m.sp := rfl
@[simp] theorem mode_unflagged (m : Machine ρ) : m.unflagged.mode = m.mode := rfl
@[simp] theorem v_unflagged (m : Machine ρ) : m.unflagged.v = m.v := rfl
@[simp] theorem i_unflagged (m : Machine ρ) : m.unflagged.i = m.i := rfl
@[simp] theorem memory_unflagged (m : Machine ρ) : m.unflagged.memory = m.memory := rfl
@[simp] theorem screen_unflagged (m : Machine ρ) : m.unflagged.screen = m.screen := rfl
@[simp] theorem fetch_unflagged (m : Machine ρ) : m.unflagged.fetch = m.fetch := rfl

/-! ### Instructions -/

theorem unflagged_next (m : Machine ρ) : m.next.unflagged = m.unflagged.next := rfl

theorem unflagged_skipIf (m : Machine ρ) (c : Bool) :
    (m.unflagged.skipIf c).unflagged = (m.skipIf c).unflagged := by
  cases c <;> rfl

theorem unflagged_store (m : Machine ρ) (bytes : List UInt8) :
    (m.unflagged.store bytes).map unflagged = (m.store bytes).map unflagged := by
  simp only [store, memory_unflagged, i_unflagged]
  cases m.memory.writeBlock m.i bytes with
  | mk memory missing? => cases missing? <;> rfl

theorem unflagged_fill (m : Machine ρ) (xs : List (Fin 16)) :
    (m.unflagged.fill xs).map unflagged = (m.fill xs).map unflagged := by
  induction xs generalizing m with
  | nil => rfl
  | cons x xs ih =>
      simp only [fill, memory_unflagged, i_unflagged]
      cases m.memory.read? (m.i + x.val) with
      | none => rfl
      | some b => exact ih (m.setV x b.toNat)

/-- **An instruction does not look at the flags.** -/
theorem unflagged_perform [RandomSource ρ] (m : Machine ρ) (i : Instruction) :
    (m.unflagged.perform i).map unflagged = (m.perform i).map unflagged := by
  cases i with
  | ret =>
      rw [perform, perform]
      by_cases hempty : m.sp = 0
      · rw [if_pos hempty, if_pos (by exact hempty)]
        rfl
      · rw [if_neg hempty, if_neg (by exact hempty)]
        simp only [sp_unflagged]
        cases slot? (m.sp - 1) <;> rfl
  | call target =>
      rw [perform, perform]
      by_cases hfull : 16 ≤ m.sp
      · rw [if_pos hfull, if_pos (by exact hfull)]
        rfl
      · rw [if_neg hfull, if_neg (by exact hfull)]
        simp only [sp_unflagged]
        cases slot? m.sp <;> rfl
  | draw x y rows =>
      simp only [perform, memory_unflagged, i_unflagged, screen_unflagged, v_unflagged]
      cases m.memory.readBlock m.i rows.val with
      | error address => rfl
      | ok sprite =>
          dsimp only
          cases m.screen.draw? m.v[x] m.v[y] (sprite.map fun b => (b.toNat : Int)) <;> rfl
  | skipEqByte | skipNeByte | skipEq | skipNe | skipPressed | skipReleased =>
      exact congrArg Outcome.done (unflagged_skipIf m _)
  | storeDecimal | storeRegisters => exact unflagged_store m _
  | loadRegisters x =>
      rw [perform, perform, Outcome.map_andThen unflagged_next, unflagged_fill,
        Outcome.map_andThen unflagged_next]
  | _ => rfl

/-! ### Cycles -/

theorem unflagged_scan (m : Machine ρ) (keys : List (Fin 16)) :
    (m.unflagged.scan keys).unflagged = (m.scan keys).unflagged := by
  induction keys generalizing m with
  | nil => rfl
  | cons k keys ih =>
      rw [scan, scan]
      by_cases hfresh : (m.keypad.held[k] && !m.keysAtWait[k]) = true
      · rw [if_pos hfresh, if_pos (by exact hfresh)]
        rfl
      · rw [if_neg hfresh, if_neg (by exact hfresh)]
        by_cases hheld : m.keypad.held[k] = true
        · rw [if_pos hheld, if_pos (by exact hheld)]
          exact ih m
        · rw [if_neg hheld, if_neg (by exact hheld)]
          exact ih { m with keysAtWait := setAt m.keysAtWait k false }

/-- The tick raises a flag, but whether it does is a matter of the sound timer. -/
theorem unflagged_tick (m : Machine ρ) : m.tick.unflagged = m.unflagged.tick.unflagged := rfl

variable [RandomSource ρ]

theorem unflagged_execute (m : Machine ρ) (w : Int) :
    (m.unflagged.execute w).map unflagged = (m.execute w).map unflagged := by
  unfold execute
  cases decode w with
  | «instruction» i => exact unflagged_perform m i
  | unassigned => rfl
  | noGroup g => rfl

theorem unflagged_act (m : Machine ρ) :
    m.unflagged.act.map unflagged = m.act.map unflagged := by
  simp only [act, mode_unflagged, fetch_unflagged]
  cases m.mode with
  | awaitingKey => exact congrArg Outcome.done (unflagged_scan m _)
  | running =>
      cases m.fetch with
      | error address => rfl
      | ok w => exact unflagged_execute m w

/-- **A cycle does not look at the flags.** It ends the same way whether they are up or down, and
leaves the same machine but for them. -/
theorem unflagged_cycle (m : Machine ρ) :
    m.unflagged.cycle.map unflagged = m.cycle.map unflagged := by
  unfold cycle
  rw [Outcome.map_andThen (k := fun m => m.tick.unflagged) unflagged_tick,
    Outcome.map_andThen (k := fun m => m.tick.unflagged) unflagged_tick, unflagged_act]

/-- Machines that differ in their flags alone end a cycle alike. -/
theorem cycle_congr_unflagged (h : m.unflagged = m'.unflagged) :
    m.cycle.map unflagged = m'.cycle.map unflagged := by
  rw [← unflagged_cycle m, h, unflagged_cycle]

end Machine

end Chip8
