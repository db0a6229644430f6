import Mathlib.Algebra.Order.Floor.Div
import Mathlib.GroupTheory.GroupAction.Ring
import SpriteBytecode.Proofs.Playback.Session

/-!
How many ticks waits take. A delay shrinks by the same amount in every tick, so a wait takes its
time divided by that amount, rounded up: until then ticks only count the delay down
(`ticks_of_pending`), and the tick in which it is over goes on with the next command
(`takesTicks_of_pending`). The waits of playback that never stalls add up, and it ends in the first
tick behind all of them (`findIdx?_ended`).
-/

set_option autoImplicit false
set_option relaxedAutoImplicit false

namespace SpriteBytecode

namespace Player

/-- How much a pending delay shrinks in one tick. -/
def decrement (player : Player) : Nat := (max 1 player.config.ticksPerStep.toInt).toNat

/-- How many ticks the waits among these commands take. -/
def waitTicks (player : Player) (executed : List Execution) : Nat :=
  ((executed.filterMap fun execution ↦ execution.command.effectiveWait?).map
    fun wait ↦ wait.toNat ⌈/⌉ player.decrement).sum

/-- How many ticks the pending delay takes. -/
def ticksLeft (player : Player) (state : AnimationState) : Nat :=
  state.delay.toNat ⌈/⌉ player.decrement

/-- The state after `count` ticks that do nothing but count its delay down. -/
def countedDown (player : Player) (count : Nat) (state : AnimationState) : AnimationState :=
  { state with delay := state.delay - count * player.decrement }

variable (player : Player)

theorem decrement_pos : 0 < player.decrement := by
  unfold decrement
  omega

theorem cast_decrement : (player.decrement : Int) = max 1 player.config.ticksPerStep.toInt := by
  unfold decrement
  omega

theorem waitTicks_nil : player.waitTicks [] = 0 := rfl

theorem waitTicks_append (first second : List Execution) :
    player.waitTicks (first ++ second) = player.waitTicks first + player.waitTicks second := by
  simp [waitTicks]

theorem ticksLeft_of_delay_le {state : AnimationState} (h : state.delay ≤ 0) :
    player.ticksLeft state = 0 := by
  rw [ticksLeft, Int.toNat_of_nonpos h, zero_ceilDiv]

/-! ### Counting down -/

/-- Rounding up, the delay takes more than `count` ticks if `count` ticks leave some of it. -/
theorem lt_ticksLeft_iff (count : Nat) (state : AnimationState) :
    count < player.ticksLeft state ↔ 0 < (player.countedDown count state).delay := by
  rw [← Nat.not_le, ticksLeft, ceilDiv_le_iff_le_mul player.decrement_pos, Nat.mul_comm]
  have hcast := Int.natCast_mul count player.decrement
  show _ ↔ 0 < state.delay - count * player.decrement
  omega

theorem ticksLeft_pos {state : AnimationState} (h : 0 < state.delay) :
    0 < player.ticksLeft state := by
  rw [lt_ticksLeft_iff, countedDown]
  simpa using h

theorem countedDown_one (state : AnimationState) :
    player.countedDown 1 state =
      { state with delay := state.delay - max 1 player.config.ticksPerStep.toInt } := by
  rw [countedDown, Int.natCast_one, Int.one_mul, cast_decrement]

theorem countedDown_add (first second : Nat) (state : AnimationState) :
    player.countedDown (first + second) state =
      player.countedDown second (player.countedDown first state) := by
  simp only [countedDown, AnimationState.mk.injEq, true_and, and_true]
  rw [Int.natCast_add, Int.add_mul, Int.sub_sub]

theorem ticksLeft_countedDown (count : Nat) (state : AnimationState) :
    player.ticksLeft (player.countedDown count state) = player.ticksLeft state - count := by
  apply eq_of_forall_lt_iff
  intro more
  rw [lt_ticksLeft_iff, ← countedDown_add, ← lt_ticksLeft_iff]
  omega

theorem step_of_lt_ticksLeft {state : AnimationState} (h : 1 < player.ticksLeft state) :
    player.step state = ⟨.waiting, player.countedDown 1 state, []⟩ := by
  rw [lt_ticksLeft_iff, countedDown_one] at h
  rw [player.step_of_waiting h, countedDown_one]

/-- In the last tick of a delay, or without one, commands run. -/
theorem step_of_ticksLeft_le {state : AnimationState} (h : player.ticksLeft state ≤ 1) :
    player.step state =
        player.runCommands player.config.maxIterations (player.resume state) [] ∧
      (player.resume state).delay ≤ 0 ∧ (player.step state).outcome ≠ .waiting := by
  have hover := mt (player.lt_ticksLeft_iff 1 state).mpr (Nat.not_lt.mpr h)
  rw [countedDown_one] at hover
  obtain ⟨hstep, hdelay, -⟩ := player.step_of_not_waiting hover
  refine ⟨hstep, hdelay, fun hwaiting ↦ ?_⟩
  have hends := (player.course_runCommands player.config.maxIterations hdelay).2.2
  rw [← hstep, EndsAs, hwaiting] at hends
  exact hends

/-- As long as the delay is not over, ticks do nothing but count it down. -/
theorem ticks_of_pending {count : Nat} {state : AnimationState}
    (h : count < player.ticksLeft state) :
    player.ticks count state =
        (List.range count).map
          (fun passed ↦ ⟨.waiting, player.countedDown (passed + 1) state, []⟩) ∧
      player.after count state = player.countedDown count state := by
  induction count generalizing state with
  | zero => exact ⟨rfl, by simp [after, countedDown]⟩
  | succ count ih =>
    have hstep := player.step_of_lt_ticksLeft (by omega : 1 < player.ticksLeft state)
    have hleft : count < player.ticksLeft (player.countedDown 1 state) := by
      rw [ticksLeft_countedDown]
      omega
    obtain ⟨hticks, hafter⟩ := ih hleft
    constructor
    · rw [ticks, hstep, hticks, List.range_succ_eq_map, List.map_cons, List.map_map]
      refine congrArg (_ :: ·) (List.map_congr_left fun passed _ ↦ ?_)
      rw [Function.comp_apply, ← countedDown_add, Nat.succ_eq_one_add, Nat.add_assoc]
    · rw [after, hstep, hafter, ← countedDown_add, Nat.add_comm]

/-! ### When a wait is over -/

/-- The state in which commands run again after so many ticks of the wait at the cursor. -/
def pastWait (player : Player) (count : Nat) (pending : AnimationState) : AnimationState :=
  { player.countedDown count pending with cursor := pending.cursor + 1 }.resetPulse

/-- The wait at the cursor takes so many ticks: all but the last one only count its delay down, and
the last one goes on with the command behind it, or ends if none stands there. -/
structure TakesTicks (player : Player) (pending : AnimationState) (count : Nat) : Prop where
  pos : 0 < count
  waits : player.ticks (count - 1) pending =
    (List.range (count - 1)).map
      fun passed ↦ ⟨.waiting, player.countedDown (passed + 1) pending, []⟩
  resumes : (player.step (player.after (count - 1) pending)).outcome ≠ .waiting
  next : (player.step (player.after (count - 1) pending)).executed.head? =
    (player.list.get? (pending.cursor + 1)).map
      fun command ↦ player.execute command (player.pastWait count pending)
  ends : player.list.get? (pending.cursor + 1) = none →
    player.step (player.after (count - 1) pending) = ⟨.ended, player.pastWait count pending, []⟩

theorem head?_runCommands (cap : Nat) (state : AnimationState) :
    (player.runCommands (cap + 1) state []).executed.head? =
      (player.list.get? state.cursor).map fun command ↦ player.execute command state := by
  rcases hget : player.list.get? state.cursor with - | command
  · rw [player.runCommands_of_get?_eq_none cap hget]
    rfl
  · rcases hblocks : (player.effect command state).blocks with - | -
    · rw [player.runCommands_of_not_blocks cap hget hblocks]
      rfl
    · rw [player.runCommands_of_blocks cap hget hblocks]
      rfl

theorem resume_countedDown {count : Nat} {pending : AnimationState}
    (h : count < player.ticksLeft pending) :
    player.resume (player.countedDown count pending) = player.pastWait (count + 1) pending := by
  have hpending := (player.lt_ticksLeft_iff count pending).mp h
  rw [resume, if_pos hpending, if_pos hpending, pastWait, countedDown_add, countedDown_one]
  rfl

theorem takesTicks_of_pending {pending : AnimationState} (hpending : 0 < pending.delay)
    (hpos : 0 < player.config.maxIterations) :
    player.TakesTicks pending (player.ticksLeft pending) := by
  obtain ⟨waits, hwaits⟩ := Nat.exists_eq_add_of_le' (player.ticksLeft_pos hpending)
  obtain ⟨cap, hcap⟩ := Nat.exists_eq_add_of_le' hpos
  have hlast : waits < player.ticksLeft pending := by omega
  obtain ⟨hticks, hafter⟩ := player.ticks_of_pending hlast
  obtain ⟨hstep, -, hover⟩ := player.step_of_ticksLeft_le
    (by rw [ticksLeft_countedDown]; omega :
      player.ticksLeft (player.countedDown waits pending) ≤ 1)
  rw [player.resume_countedDown hlast] at hstep
  rw [← hafter] at hstep hover
  rw [hwaits]
  refine ⟨Nat.succ_pos waits, hticks, hover, ?_, fun hend ↦ ?_⟩
  · rw [Nat.add_sub_cancel, hstep, hcap]
    exact player.head?_runCommands cap _
  · rw [Nat.add_sub_cancel, hstep, hcap]
    exact player.runCommands_of_get?_eq_none cap hend

/-! ### The waits of playback -/

theorem effectiveWait?_of_not_blocks {command : Command} {state : AnimationState}
    (h : (player.effect command state).blocks = false) : command.effectiveWait? = none := by
  cases command with
  | wait count => exact absurd h (by simp [effect_wait])
  | _ => rfl

/-- The waits of a tick that runs commands take as many ticks as it leaves pending: only its last
command can be one. -/
theorem waitTicks_step {state : AnimationState} (h : player.ticksLeft state ≤ 1) :
    player.waitTicks (player.step state).executed = player.ticksLeft (player.step state).state := by
  obtain ⟨hstep, hdelay, -⟩ := player.step_of_ticksLeft_le h
  rw [hstep]
  refine @runCommands_keeps player
    (fun state executed ↦ player.waitTicks executed = player.ticksLeft state) ?_
    player.config.maxIterations _ [] hdelay (player.ticksLeft_of_delay_le hdelay).symm
  intro state executed command hdelay _ hkept
  rw [waitTicks_append, hkept, player.ticksLeft_of_delay_le hdelay, Nat.zero_add]
  rcases player.wait_or_not_blocks command state with ⟨count, rfl⟩ | ⟨hblocks, hsame, -⟩
  · simp [waitTicks, execute, Instruction.effectiveWait?, ticksLeft, effect_wait, waitTime]
  · have hnone := player.effectiveWait?_of_not_blocks hblocks
    rw [player.ticksLeft_of_delay_le (le_of_eq_of_le hsame hdelay)]
    simp [waitTicks, execute, hnone]

/-- Nothing runs any more once playback has ended. -/
theorem executions_of_ended {state : AnimationState} (h : (player.step state).outcome = .ended)
    (count : Nat) : player.executions count (player.step state).state = [] := by
  refine List.flatMap_eq_nil_iff.mpr fun tick htick ↦ ?_
  rw [(leaves_step state).ended h count tick htick]

/-- Playback that does not stall comes to its end as many ticks after the pending delay as the waits
take that it runs. -/
theorem findIdx?_ended (count : Nat) :
    ∀ {state : AnimationState}, (∃ tick ∈ player.ticks count state, tick.outcome = .ended) →
      (∀ tick ∈ player.ticks count state, tick.outcome ≠ .stalled) →
      (player.ticks count state).findIdx? (·.outcome = .ended) =
        some (player.ticksLeft state - 1 + player.waitTicks (player.executions count state)) := by
  induction count with
  | zero => exact fun ⟨_, htick, _⟩ ↦ absurd htick List.not_mem_nil
  | succ count ih =>
    intro state hended hstalled
    have hlater (hfirst : (player.step state).outcome ≠ .ended) :
        (player.ticks (count + 1) state).findIdx? (·.outcome = .ended) =
          some (player.ticksLeft (player.step state).state - 1 +
            player.waitTicks (player.executions count (player.step state).state) + 1) := by
      rw [ticks, List.findIdx?_cons, decide_eq_false hfirst, ih]
      · rfl
      · obtain ⟨tick, htick, hlast⟩ := hended
        rcases List.mem_cons.mp htick with rfl | hmem
        · exact absurd hlast hfirst
        · exact ⟨tick, hmem, hlast⟩
      · exact fun tick htick ↦ hstalled tick (List.mem_cons_of_mem _ htick)
    rw [executions_succ, waitTicks_append]
    -- A tick that waits takes one tick off those left, and one that blocks has put them there.
    by_cases hwaiting : 1 < player.ticksLeft state
    · have hstep := player.step_of_lt_ticksLeft hwaiting
      rw [hlater (by simp [hstep]), hstep, ticksLeft_countedDown, waitTicks_nil]
      exact congrArg some (by omega)
    have hruns := Nat.not_lt.mp hwaiting
    rw [Nat.sub_eq_zero_of_le hruns, Nat.zero_add, player.waitTicks_step hruns]
    rcases houtcome : (player.step state).outcome with - | - | - | -
    · exact absurd houtcome (player.step_of_ticksLeft_le hruns).2.2
    · have hleft := player.ticksLeft_pos (delay_pos_of_pending (Or.inr houtcome))
      rw [hlater (by rw [houtcome]; decide)]
      exact congrArg some (by omega)
    · rw [ticks, List.findIdx?_cons, houtcome, player.executions_of_ended houtcome,
        player.ticksLeft_of_delay_le (delay_le_of_over (Or.inl houtcome))]
      rfl
    · exact absurd houtcome (hstalled _ List.mem_cons_self)

end Player

/-- A tick that blocks has come to a wait, which takes its time divided by the decrement of a tick,
rounded up. If playback from the start ends and never stalls, it ends in the first tick behind those
that the waits it has run take. -/
theorem waits_take_ticks (player : Player) :
    (∀ calls, (player.step (player.session calls).state).outcome = .blocked →
      ∃ command wait,
        player.list.get? (player.step (player.session calls).state).state.cursor = some command ∧
        command.effectiveWait? = some wait ∧
        player.TakesTicks (player.step (player.session calls).state).state
          (wait.toNat ⌈/⌉ player.decrement)) ∧
    ∀ count, (∃ tick ∈ player.ticks count .initial, tick.outcome = .ended) →
      (∀ tick ∈ player.ticks count .initial, tick.outcome ≠ .stalled) →
      (player.ticks count .initial).findIdx? (·.outcome = .ended) =
        some (player.waitTicks (player.executions count .initial)) := by
  refine ⟨fun calls hblocked ↦ ?_, fun count hended hstalled ↦ ?_⟩
  · obtain ⟨count, hget, hdelay⟩ := Player.wait_of_blocked hblocked
    have hcap : 0 < player.config.maxIterations :=
      Player.maxIterations_pos (ne_of_eq_of_ne hblocked (by decide))
        (ne_of_eq_of_ne hblocked (by decide))
    have htakes :=
      player.takesTicks_of_pending (Player.delay_pos_of_pending (Or.inr hblocked)) hcap
    rw [Player.ticksLeft, hdelay] at htakes
    exact ⟨_, waitTime count, hget, rfl, htakes⟩
  · rw [player.findIdx?_ended count hended hstalled,
      player.ticksLeft_of_delay_le (Int.le_refl 0), Nat.zero_sub, Nat.zero_add]

/-- A wait of three in a loop that is run twice. -/
def loopingPlayer : Player :=
  ⟨(CommandList.mk [.label ⟨0⟩, .wait 3, .loop ⟨0⟩ 1] ["A"]).program, .anonymous 0 0 0, {}⟩

/-- The wait takes two ticks, and running twice it takes four. -/
theorem waits_take_ticks_in_loop :
    (∃ command wait,
      loopingPlayer.list.get? (loopingPlayer.step .initial).state.cursor = some command ∧
      command.effectiveWait? = some wait ∧
      loopingPlayer.TakesTicks (loopingPlayer.step .initial).state (wait.toNat ⌈/⌉ 2)) ∧
    (loopingPlayer.ticks 5 .initial).findIdx? (·.outcome = .ended) = some 4 := by
  have hplays := waits_take_ticks loopingPlayer
  exact ⟨hplays.1 [] (by decide), (hplays.2 5 (by decide) (by decide)).trans (by decide)⟩

end SpriteBytecode
