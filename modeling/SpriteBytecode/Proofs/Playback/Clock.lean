import SpriteBytecode.Proofs.Playback.Course

/-!
Elapsed time against ticks. When a delay shrinks by one in each tick and no tick stalls, the elapsed
time of a command is the number of ticks in front of its own, up to the bound of elapsed time
(`onTime_step`): playback stays on time (`onTime_ticks`), or has come to the end of the list.
-/

set_option autoImplicit false
set_option relaxedAutoImplicit false

namespace SpriteBytecode

/-- The next command is due once the delay is over, and its elapsed time is the number of ticks
until then; `count` is the number of ticks so far. -/
def OnTime (count : Nat) (state : AnimationState) : Prop :=
  state.waited = min (count + (state.delay - 1).toNat) maxElapsed

theorem onTime_initial : OnTime 0 .initial := rfl

namespace Player

variable {player : Player}

theorem onTime_runCommands (count cap : Nat) :
    ∀ {state : AnimationState}, state.delay ≤ 0 → state.waited = min count maxElapsed →
      (∀ execution ∈ (player.runCommands cap state []).executed,
        execution.before.waited = min count maxElapsed) ∧
      ((player.runCommands cap state []).outcome = .blocked →
        OnTime (count + 1) (player.runCommands cap state []).state) := by
  induction cap with
  | zero =>
    intro state _ _
    exact ⟨fun _ h ↦ absurd h List.not_mem_nil, fun h ↦ absurd h (by simp [runCommands])⟩
  | succ cap ih =>
    intro state hdelay hwaited
    rcases hget : player.list.get? state.cursor with - | command
    · rw [player.runCommands_of_get?_eq_none cap hget]
      exact ⟨fun _ h ↦ absurd h List.not_mem_nil, fun h ↦ absurd h (by simp)⟩
    rcases player.wait_or_not_blocks command state with ⟨wait, rfl⟩ | ⟨hblocks, hsame, hkept⟩
    · rw [player.runCommands_of_blocks cap hget rfl]
      constructor
      · intro execution hexecution
        obtain rfl := List.mem_singleton.mp hexecution
        exact hwaited
      · intro _
        have hpos := waitTime_pos wait
        rw [effect_wait]
        show elapse state.waited (waitTime wait) =
          min (count + 1 + (((waitTime wait).toNat : Int) - 1).toNat) maxElapsed
        rw [elapse, hwaited]
        omega
    · rw [player.runCommands_of_not_blocks cap hget hblocks]
      obtain ⟨hexecuted, hblocked⟩ := ih (le_of_eq_of_le hsame hdelay) (hkept.trans hwaited)
      refine ⟨?_, hblocked⟩
      intro execution hexecution
      rcases List.mem_cons.mp hexecution with rfl | hlater
      · exact hwaited
      · exact hexecuted execution hlater

section OneByOne

variable (hone : player.config.ticksPerStep.toInt ≤ 1)

include hone

theorem onTime_step {count : Nat} {state : AnimationState} (h : OnTime count state) :
    (∀ execution ∈ (player.step state).executed,
      execution.before.waited = min count maxElapsed) ∧
    ((player.step state).outcome ≠ .stalled →
      OnTime (count + 1) (player.step state).state ∨
        player.list.get? (player.step state).state.settled.cursor = none) := by
  have hdecrement : max 1 player.config.ticksPerStep.toInt = 1 := by omega
  unfold OnTime at h
  by_cases hwaiting : 0 < state.delay - max 1 player.config.ticksPerStep.toInt
  · rw [player.step_of_waiting hwaiting]
    refine ⟨fun _ h ↦ absurd h List.not_mem_nil, fun _ ↦ Or.inl ?_⟩
    rw [hdecrement] at hwaiting ⊢
    show state.waited = min (count + 1 + (state.delay - 1 - 1).toNat) maxElapsed
    rw [h]
    omega
  · obtain ⟨hstep, hover, hsettled⟩ := player.step_of_not_waiting hwaiting
    have hwaited : (player.resume state).waited = min count maxElapsed := by
      rw [hdecrement] at hwaiting
      show state.waited = _
      rw [h, Int.toNat_of_nonpos (by omega), Nat.add_zero]
    obtain ⟨hexecuted, hblocked⟩ :=
      player.onTime_runCommands count player.config.maxIterations hover hwaited
    rw [← hstep] at hexecuted hblocked
    refine ⟨hexecuted, fun hstalled ↦ ?_⟩
    have hends := (player.course_runCommands player.config.maxIterations hover).2.2
    rw [← hstep, EndsAs] at hends
    rcases houtcome : (player.step state).outcome with - | - | - | -
    · simp [houtcome] at hends
    · exact Or.inl (hblocked houtcome)
    · exact Or.inr (player.get?_of_ended houtcome)
    · exact absurd houtcome hstalled

theorem onTime_ticks (count : Nat) :
    ∀ {start : Nat} {state : AnimationState},
      OnTime start state ∨ player.list.get? state.settled.cursor = none →
      (∀ tick ∈ player.ticks count state, tick.outcome ≠ .stalled) →
      (OnTime (start + count) (player.after count state) ∨
        player.list.get? (player.after count state).settled.cursor = none) ∧
      ∀ execution ∈ player.executions count state, execution.before.waited < start + count := by
  induction count with
  | zero => exact fun h _ ↦ ⟨h, fun _ h ↦ absurd h List.not_mem_nil⟩
  | succ count ih =>
    intro start state h hstalled
    have hstep : (∀ execution ∈ (player.step state).executed, execution.before.waited ≤ start) ∧
        (OnTime (start + 1) (player.step state).state ∨
          player.list.get? (player.step state).state.settled.cursor = none) := by
      rcases h with htime | hend
      · obtain ⟨hexecuted, hnext⟩ := player.onTime_step hone htime
        refine ⟨fun execution hexecution ↦ ?_, hnext (hstalled _ List.mem_cons_self)⟩
        rw [hexecuted execution hexecution]
        exact Nat.min_le_left _ _
      · obtain ⟨hexecuted, hsettled⟩ := player.step_of_get?_eq_none hend
        rw [hexecuted, hsettled]
        exact ⟨fun _ h ↦ absurd h List.not_mem_nil, Or.inr hend⟩
    obtain ⟨hafter, hexecutions⟩ :=
      ih hstep.2 fun tick htick ↦ hstalled tick (List.mem_cons_of_mem _ htick)
    rw [Nat.add_right_comm] at hafter hexecutions
    refine ⟨hafter, fun execution hexecution ↦ ?_⟩
    rw [executions_succ] at hexecution
    rcases List.mem_append.mp hexecution with hfirst | hlater
    · have := hstep.1 execution hfirst
      omega
    · exact hexecutions execution hlater

/-- A command of a course runs after as many ticks as its elapsed time. -/
theorem length_executions_of_course {before : List AnimationState} {finish : AnimationState}
    (hcourse : player.Course .initial before finish) {place : Nat} {state : AnimationState}
    (hplace : before[place]? = some state) (hbound : state.waited < maxElapsed)
    (hstalled : ∀ tick ∈ player.ticks (state.waited + 1) .initial, tick.outcome ≠ .stalled) :
    (player.executions state.waited .initial).length ≤ place ∧
      place < (player.executions (state.waited + 1) .initial).length := by
  have hstart : OnTime 0 .initial ∨
      player.list.get? AnimationState.initial.settled.cursor = none := Or.inl onTime_initial
  constructor
  · by_contra hlt
    have hearlier : ∀ tick ∈ player.ticks state.waited .initial, tick.outcome ≠ .stalled := by
      intro tick htick
      rw [ticks_add] at hstalled
      exact hstalled tick (List.mem_append_left _ htick)
    obtain ⟨execution, hexecution⟩ :
        ∃ execution, (player.executions state.waited .initial)[place]? = some execution :=
      ⟨_, List.getElem?_eq_getElem (Nat.lt_of_not_le hlt)⟩
    have hsettled : execution.before.settled = state := by
      refine (player.course_ticks state.waited .initial).1.getElem?_unique hcourse ?_ hplace
      rw [List.getElem?_map, hexecution]
      rfl
    have hwaited := (player.onTime_ticks hone _ hstart hearlier).2 execution
      (List.mem_of_getElem? hexecution)
    rw [← AnimationState.waited_settled, hsettled] at hwaited
    omega
  · by_contra hle
    have hlength := (List.getElem?_eq_some_iff.mp hplace).1
    obtain ⟨rest, rfl, hrest⟩ := (player.course_ticks (state.waited + 1) .initial).1.split hcourse
      (by rw [List.length_map]; omega)
    rw [List.getElem?_append_right (by rw [List.length_map]; omega)] at hplace
    have hmem := List.mem_of_getElem? hplace
    rcases (player.onTime_ticks hone _ hstart hstalled).1 with htime | hend
    · unfold OnTime at htime
      have hlate := ((hrest.waited_le (by rw [AnimationState.waited_settled]; omega)).2 _ hmem).1
      rw [AnimationState.waited_settled] at hlate
      omega
    · rw [(hrest.eq_of_get?_eq_none hend).1] at hmem
      exact absurd hmem List.not_mem_nil

end OneByOne

end Player

end SpriteBytecode
