import Chip8.Proofs.Faults
import Chip8.Proofs.Footprint

/-!
# Chip8.Proofs.Timers

Both timers over whole runs, and when the cue sounds.

A timer shows what was last stored in it, less one for each completed cycle since, and never less
than zero. The tick belongs to the cycle that stores: a timer set to one runs out in the same cycle,
and one set to zero never does. What the machine does meanwhile makes no difference: cycles that
wait for a key or meet an unknown opcode count, cycles that fault do not.

The arithmetic is done on what a timer shows in a cycle just before the tick (`value_act_lastSet`).
The tick, the cue and a read of the timer are then one step away.
-/

namespace Chip8

/-- The two timers. -/
inductive Timer
  | delay
  | sound

namespace Timer

open Machine

variable {ρ : Type} {timer : Timer} {m m' : Machine ρ}

/-- What a timer shows. -/
def value (timer : Timer) (m : Machine ρ) : Int :=
  match timer with
  | delay => m.delay
  | sound => m.sound

/-- The instruction that sets a timer from a register. -/
def setter (timer : Timer) (x : Fin 16) : Instruction :=
  match timer with
  | delay => .setDelay x
  | sound => .setSound x

/-- The next cycle sets the timer to `v`. -/
def Sets (timer : Timer) (m : Machine ρ) (v : Int) : Prop :=
  ∃ x, m.instruction? = some (timer.setter x) ∧ m.v[x] = v

/-- No cycle of a history up to cycle `t` sets the timer. -/
def NeverSet (timer : Timer) (history : List (Machine ρ)) (t : Nat) : Prop :=
  ∀ u a, u ≤ t → history[u]? = some a → ∀ v, ¬timer.Sets a v

/-- Of the cycles of a history up to cycle `t`, cycle `s` is the last that sets the timer, and it
sets it to `v`. -/
structure LastSet (timer : Timer) (history : List (Machine ρ)) (t s : Nat) (v : Int) : Prop where
  le : s ≤ t
  sets : ∃ a, history[s]? = some a ∧ timer.Sets a v
  last : ∀ u a, s < u → u ≤ t → history[u]? = some a → ∀ v', ¬timer.Sets a v'

/-- A timer that has been set was set last at some point. -/
theorem neverSet_or_lastSet (timer : Timer) (history : List (Machine ρ)) (t : Nat) :
    timer.NeverSet history t ∨ ∃ s v, timer.LastSet history t s v := by
  induction t with
  | zero =>
      by_cases hnow : ∃ a v, history[0]? = some a ∧ timer.Sets a v
      · obtain ⟨a, v, ha, hv⟩ := hnow
        exact .inr ⟨0, v, Nat.le_refl 0, ⟨a, ha, hv⟩, fun u _ hlt hle => by omega⟩
      · refine .inl fun u a hu ha v hv => ?_
        obtain rfl := Nat.le_zero.mp hu
        exact hnow ⟨a, v, ha, hv⟩
  | succ t ih =>
      by_cases hnow : ∃ a v, history[t + 1]? = some a ∧ timer.Sets a v
      · obtain ⟨a, v, ha, hv⟩ := hnow
        exact .inr ⟨t + 1, v, Nat.le_refl _, ⟨a, ha, hv⟩, fun u _ hlt hle => by omega⟩
      · rcases ih with hnever | ⟨s, v, hle, hsets, hlast⟩
        · refine .inl fun u a hu ha v hv => ?_
          rcases Nat.le_succ_iff.mp hu with hu' | rfl
          · exact hnever u a hu' ha v hv
          · exact hnow ⟨a, v, ha, hv⟩
        · refine .inr ⟨s, v, Nat.le_succ_of_le hle, hsets, fun u a hlt hu ha v' hv => ?_⟩
          rcases Nat.le_succ_iff.mp hu with hu' | rfl
          · exact hlast u a hlt hu' ha v' hv
          · exact hnow ⟨a, v', ha, hv⟩

/-! ### One cycle -/

theorem value_nonneg (timer : Timer) (h : m.Sound) : 0 ≤ timer.value m := by
  cases timer with
  | delay => exact h.delay.1
  | sound => exact h.sound.1

theorem value_tick (timer : Timer) (h : 0 ≤ timer.value m) :
    timer.value m.tick = max 0 (timer.value m - 1) := by
  have hvalue : timer.value m.tick =
      if 0 < timer.value m then timer.value m - 1 else timer.value m := by
    cases timer <;> rfl
  rw [hvalue]
  split <;> omega

variable [RandomSource ρ]

theorem value_act_of_sets {v : Int} (h : timer.Sets m v) : timer.value m.act.state = v := by
  obtain ⟨x, hi, rfl⟩ := h
  rw [(act_of_instruction? hi).1]
  cases timer <;> rfl

theorem value_act_of_not_sets (h : ∀ v, ¬timer.Sets m v) :
    timer.value m.act.state = timer.value m := by
  cases timer with
  | delay =>
      refine keeps_act m (c := .delay) (by decide) fun i hi hmem => ?_
      obtain ⟨x, rfl⟩ := Instruction.delay_mem_footprint.mp hmem
      exact h _ ⟨x, hi, rfl⟩
  | sound =>
      refine keeps_act m (c := .sound) (by decide) fun i hi hmem => ?_
      obtain ⟨x, rfl⟩ := Instruction.sound_mem_footprint.mp hmem
      exact h _ ⟨x, hi, rfl⟩

theorem value_cycle (timer : Timer) (h : m.Sound) (hcycle : m.cycle = .done m') :
    timer.value m' = max 0 (timer.value m.act.state - 1) := by
  obtain ⟨acted, hact, rfl⟩ := cycle_eq_done_iff.mp hcycle
  have hsound := h.act
  rw [hact] at hsound ⊢
  exact timer.value_tick (timer.value_nonneg hsound)

/-! ### Histories -/

theorem value_history_zero (timer : Timer) (h : m.Sound) {run : List Operation} {a : Machine ρ}
    (ha : (m.history run)[0]? = some a) : timer.value a = timer.value m := by
  have hkept := changesOnly_history_zero h ha
  cases timer with
  | delay => exact hkept .delay (by decide)
  | sound => exact hkept .sound (by decide)

/-- From one completed cycle to the next, a timer goes down by one. -/
theorem value_history_succ (timer : Timer) (h : m.Sound) {run : List Operation} {u : Nat}
    {a b : Machine ρ} (ha : (m.history run)[u]? = some a) (hb : (m.history run)[u + 1]? = some b) :
    timer.value b = max 0 (timer.value a.act.state - 1) := by
  obtain ⟨hsound, a', hcycle⟩ := sound_of_mem_history h (List.mem_of_getElem? ha)
  have hkept := changesOnly_history_succ h ha hb
  rw [hcycle] at hkept
  rw [← timer.value_cycle hsound hcycle]
  cases timer with
  | delay => exact hkept .delay (by decide)
  | sound => exact hkept .sound (by decide)

/-- While it is not set, a timer counts the cycles. -/
theorem value_act_add (h : m.Sound) {run : List Operation} {s n : Nat} {a b : Machine ρ}
    (ha : (m.history run)[s]? = some a) (hb : (m.history run)[s + n]? = some b)
    (hunset : ∀ u c, s < u → u ≤ s + n → (m.history run)[u]? = some c → ∀ v, ¬timer.Sets c v) :
    timer.value b.act.state = max 0 (timer.value a.act.state - n) := by
  induction n generalizing b with
  | zero =>
      obtain rfl : a = b := by
        rw [Nat.add_zero, ha] at hb
        exact Option.some.inj hb
      have hsound := (sound_of_mem_history h (List.mem_of_getElem? ha)).1
      have := timer.value_nonneg hsound.act
      omega
  | succ n ih =>
      obtain ⟨c, hc⟩ : ∃ c, (m.history run)[s + n]? = some c := by
        have hlt := (List.getElem?_eq_some_iff.mp hb).1
        exact ⟨_, List.getElem?_eq_getElem (by omega)⟩
      have hprev := ih hc fun u c' hlt hle => hunset u c' hlt (by omega)
      have hstep := timer.value_history_succ h hc hb
      have hskip := value_act_of_not_sets (hunset (s + n + 1) b (by omega) (by omega) hb)
      omega

/-- What a timer shows before the tick of cycle `t`, if it was last set in cycle `s`. -/
theorem value_act_lastSet (h : m.Sound) {run : List Operation} {t s : Nat} {v : Int}
    {a : Machine ρ} (ha : (m.history run)[t]? = some a)
    (hset : timer.LastSet (m.history run) t s v) :
    timer.value a.act.state = max 0 (v - (t - s)) := by
  obtain ⟨hle, ⟨b, hb, hsets⟩, hlast⟩ := hset
  obtain ⟨n, rfl⟩ := Nat.exists_eq_add_of_le hle
  rw [value_act_add h hb ha hlast, value_act_of_sets hsets]
  omega

/-- What a timer shows before the tick of cycle `t`, if it was never set. -/
theorem value_act_neverSet (h : m.Sound) {run : List Operation} {t : Nat} {a : Machine ρ}
    (ha : (m.history run)[t]? = some a) (hnever : timer.NeverSet (m.history run) t) :
    timer.value a.act.state = max 0 (timer.value m - t) := by
  obtain ⟨b, hb⟩ : ∃ b, (m.history run)[0]? = some b := by
    have hlt := (List.getElem?_eq_some_iff.mp ha).1
    exact ⟨_, List.getElem?_eq_getElem (by omega)⟩
  have hadd : timer.value a.act.state = max 0 (timer.value b.act.state - t) :=
    value_act_add h hb (by rwa [Nat.zero_add]) fun u c _ hle => hnever u c (by omega)
  rw [hadd, value_act_of_not_sets (hnever 0 b (Nat.zero_le t) hb), timer.value_history_zero h hb]

end Timer

/-! ### The cue -/

def Notice.isCue : Notice → Bool
  | .cue _ _ _ _ => true
  | _ => false

namespace Machine

variable {ρ : Type} {m m' : Machine ρ}

theorem countP_actNotices (m : Machine ρ) : m.actNotices.countP Notice.isCue = 0 := by
  rw [List.countP_eq_zero]
  intro notice hmem hcue
  cases notice with
  | cue pc delay sound flag => exact m.cue_notMem_actNotices pc delay sound flag hmem
  | _ => cases hcue

variable [RandomSource ρ]

/-- How often the cue sounds in the next cycle. -/
def cueCount (m : Machine ρ) : Nat := m.observe.1.countP Notice.isCue

/-- In the cycle from `m` to `m'` the cue sounds once and its flag goes up, if the condition holds,
and otherwise it is silent and the flag stays as it was. -/
structure CueIff (m m' : Machine ρ) (c : Prop) : Prop where
  sounds : c → m.cueCount = 1 ∧ m'.cueFlag = true
  silent : ¬c → m.cueCount = 0 ∧ m'.cueFlag = m.cueFlag

theorem CueIff.congr {c d : Prop} (h : m.CueIff m' c) (hcd : c ↔ d) : m.CueIff m' d :=
  ⟨fun hd => h.sounds (hcd.mpr hd), fun hd => h.silent (mt hcd.mp hd)⟩

/-- The cue sounds in the cycle whose tick takes the sound timer from one to zero. -/
theorem cueIff_cycle (hcycle : m.cycle = .done m') : m.CueIff m' (m.act.state.sound = 1) := by
  obtain ⟨acted, hact, rfl⟩ := cycle_eq_done_iff.mp hcycle
  have hflag : acted.cueFlag = m.cueFlag := by
    have hkept : m.Keeps m.act.state .cueFlag :=
      keeps_act m (by decide) fun i _ => i.cueFlag_notMem_footprint
    rwa [hact] at hkept
  have hcount : m.cueCount = acted.tickNotices.countP Notice.isCue := by
    rw [cueCount, observe, hact]
    simp only [List.countP_append, countP_actNotices, Nat.zero_add]
  rw [hact, Outcome.state_done]
  constructor
  · intro hone
    have hdue : acted.cueDue = true := by simp [cueDue, hone]
    exact ⟨by rw [hcount, tickNotices, if_pos hdue]; rfl, by simp [tick, hdue]⟩
  · intro hother
    have hdue : acted.cueDue = false := by simp [cueDue, hother]
    exact ⟨by rw [hcount, tickNotices, hdue]; rfl, by simp [tick, hdue, hflag]⟩

/-- A register that reads the delay timer gets what the timer shows before the tick. -/
theorem getElem_of_readDelay {x : Fin 16} (hi : m.instruction? = some (.readDelay x))
    (hcycle : m.cycle = .done m') : m'.v[x] = m.act.state.delay := by
  obtain ⟨acted, hact, rfl⟩ := cycle_eq_done_iff.mp hcycle
  rw [(act_of_instruction? hi).1] at hact ⊢
  cases hact
  simp [perform, tick, next, goto, setV]

/-! ### Runs -/

/-- The law of the timers for cycle `t` of a history, which leads from `m` to `m'`. -/
structure TimerLaw (history : List (Machine ρ)) (t : Nat) (m m' : Machine ρ) : Prop where
  /-- A timer shows what was stored last, less the cycles since, the storing one included. -/
  shows (timer : Timer) (s : Nat) (v : Int) (h : timer.LastSet history t s v) :
    timer.value m' = max 0 (v - (t - s + 1))
  shows_zero (timer : Timer) (h : timer.NeverSet history t) : timer.value m' = 0
  /-- The cue sounds in the cycle in which the sound timer runs out. -/
  cue (s : Nat) (v : Int) (h : Timer.sound.LastSet history t s v) : m.CueIff m' (v = t - s + 1)
  no_cue (h : Timer.sound.NeverSet history t) : m.CueIff m' False
  /-- A cue that sounds is due to the last value stored; one that was overwritten never sounds. -/
  cue_last (h : m.cueCount ≠ 0) : ∃ s v, Timer.sound.LastSet history t s v ∧ v = t - s + 1
  /-- A register that reads the delay timer gets what it showed after the cycle before. -/
  reads (x : Fin 16) (hx : m.instruction? = some (.readDelay x)) (s : Nat) (v : Int)
    (h : Timer.delay.LastSet history t s v) : s < t ∧ m'.v[x] = max 0 (v - (t - s))
  reads_zero (x : Fin 16) (hx : m.instruction? = some (.readDelay x))
    (h : Timer.delay.NeverSet history t) : m'.v[x] = 0

/-- Runs that begin with both timers at rest obey the law of the timers. -/
theorem timerLaw_of_atRest {start : Machine ρ} (hstart : start.Sound)
    (hrest : ∀ timer : Timer, timer.value start = 0) {run : List Operation} {t : Nat}
    (hm : (start.history run)[t]? = some m) (hcycle : m.cycle = .done m') :
    TimerLaw (start.history run) t m m' := by
  have hsound := (sound_of_mem_history hstart (List.mem_of_getElem? hm)).1
  have hlast (timer : Timer) {s : Nat} {v : Int} (h : timer.LastSet (start.history run) t s v) :
      timer.value m.act.state = max 0 (v - (t - s)) := Timer.value_act_lastSet hstart hm h
  have hnever (timer : Timer) (h : timer.NeverSet (start.history run) t) :
      timer.value m.act.state = 0 := by
    rw [Timer.value_act_neverSet hstart hm h, hrest timer]
    omega
  have hcue (s : Nat) (v : Int) (h : Timer.sound.LastSet (start.history run) t s v) :
      m.CueIff m' (v = t - s + 1) := by
    refine (cueIff_cycle hcycle).congr ?_
    have hvalue : m.act.state.sound = max 0 (v - (t - s)) := hlast .sound h
    omega
  have hsilent (h : Timer.sound.NeverSet (start.history run) t) : m.CueIff m' False := by
    refine (cueIff_cycle hcycle).congr ?_
    have hvalue : m.act.state.sound = 0 := hnever .sound h
    simp [hvalue]
  constructor
  case shows =>
    intro timer s v h
    rw [timer.value_cycle hsound hcycle, hlast timer h]
    omega
  case shows_zero =>
    intro timer h
    rw [timer.value_cycle hsound hcycle, hnever timer h]
    rfl
  case cue => exact hcue
  case no_cue => exact hsilent
  case cue_last =>
    intro hheard
    rcases Timer.neverSet_or_lastSet .sound (start.history run) t with h | ⟨s, v, h⟩
    · exact absurd ((hsilent h).silent id).1 hheard
    · refine ⟨s, v, h, Decidable.not_not.mp fun hne => ?_⟩
      exact hheard ((hcue s v h).silent hne).1
  case reads =>
    intro x hx s v h
    rw [getElem_of_readDelay hx hcycle]
    refine ⟨Nat.lt_of_le_of_ne h.le ?_, hlast .delay h⟩
    -- The cycle that reads the timer does not set it.
    rintro rfl
    obtain ⟨a, ha, y, hy, -⟩ := h.sets
    rw [hm, Option.some.injEq] at ha
    rw [← ha, hx] at hy
    cases hy
  case reads_zero =>
    intro x hx h
    rw [getElem_of_readDelay hx hcycle]
    exact hnever .delay h

/-- **The timers over a whole run.** In every run of a new machine, with any programs, waits,
unknown opcodes, faults and key events on the way, completed cycles obey the law of the timers. -/
theorem timerLaw_of_history (source : ρ) (keypad : Keypad) (screen : Screen)
    (run : List Operation) {t : Nat} {m : Machine ρ}
    (hm : ((new source keypad screen).history run)[t]? = some m) :
    ∃ m', m.cycle = .done m' ∧ TimerLaw ((new source keypad screen).history run) t m m' := by
  have hnew := sound_new source keypad screen
  obtain ⟨-, m', hcycle⟩ := sound_of_mem_history hnew (List.mem_of_getElem? hm)
  have hrest (timer : Timer) : timer.value (new source keypad screen) = 0 := by
    cases timer <;> rfl
  exact ⟨m', hcycle, timerLaw_of_atRest hnew hrest hm hcycle⟩

/-- The program `6002`, `F018`, `1204`: it stores two in the sound timer and goes round. -/
def beepOnce : Array UInt8 := #[0x60, 0x02, 0xF0, 0x18, 0x12, 0x04]

/-- The machine that has the program in memory. -/
def beforeBeep : Machine CyclicNumbers :=
  { source := ⟨[0], [0]⟩, memory := Memory.initial.overlay programStart beepOnce }

/-- The machine that is about to store two in the sound timer. -/
def beforeSet : Machine CyclicNumbers := (beforeBeep.setV 0 2).next.tick

/-- The machine that goes round with one left. -/
def afterSet : Machine CyclicNumbers := (Machine.next { beforeSet with sound := 2 }).tick

/-- Two in the sound timer: the cue sounds in the cycle after the one that stored it. -/
theorem cue_afterSet :
    let run : List Operation := [.load beepOnce, .cycle, .cycle, .cycle]
    let history := (new (⟨[0], [0]⟩ : CyclicNumbers) .released .standard).history run
    history[2]? = some afterSet ∧ Timer.sound.LastSet history 2 1 2 ∧ afterSet.cueCount = 1 ∧
      afterSet.cycle.state.sound = 0 := by
  intro run history
  have hload : (new (⟨[0], [0]⟩ : CyclicNumbers) .released .standard).operate (.load beepOnce) =
      beforeBeep := by
    rw [operate_load, if_neg (by decide)]
    rfl
  have hfirst : beforeBeep.instruction? = some (.loadByte 0 2) :=
    instruction?_of_program (k := 0) rfl rfl rfl (by decide) (by decide) rfl
  have hsecond : beforeSet.instruction? = some (.setSound 0) :=
    instruction?_of_program (k := 2) rfl rfl rfl (by decide) (by decide) rfl
  have hthird : afterSet.instruction? = some (.jump 0x204) :=
    instruction?_of_program (k := 4) rfl rfl rfl (by decide) (by decide) rfl
  have hcycle₁ : beforeBeep.cycle = .done beforeSet := cycle_of_instruction? hfirst rfl
  have hcycle₂ : beforeSet.cycle = .done afterSet := cycle_of_instruction? hsecond rfl
  have hcycle₃ : afterSet.cycle = .done (afterSet.goto 0x204).tick :=
    cycle_of_instruction? hthird rfl
  have hhistory : history = [beforeBeep, beforeSet, afterSet] := by
    rw [show history = _ from history_cons_of_ne _ (by simp) _, hload,
      history_cons_of_done hcycle₁, history_cons_of_done hcycle₂, history_cons_of_done hcycle₃,
      history_nil]
  have hset : Timer.sound.LastSet history 2 1 2 := by
    rw [hhistory]
    refine ⟨by decide, ⟨beforeSet, rfl, 0, hsecond, rfl⟩, ?_⟩
    rintro u a hlt hle ha v ⟨x, hx, -⟩
    obtain rfl : u = 2 := by omega
    obtain rfl : afterSet = a := Option.some.inj ha
    rw [hthird] at hx
    cases hx
  have hentry : history[2]? = some afterSet := by
    rw [hhistory]
    rfl
  obtain ⟨m', hcycle, hlaw⟩ := timerLaw_of_history _ _ _ run hentry
  have hshows : m'.sound = max 0 (2 - (2 - 1 + 1)) := hlaw.shows .sound 1 2 hset
  refine ⟨hentry, hset, ((hlaw.cue 1 2 hset).sounds rfl).1, ?_⟩
  rw [hcycle, Outcome.state_done, hshows]
  rfl

end Machine

end Chip8
