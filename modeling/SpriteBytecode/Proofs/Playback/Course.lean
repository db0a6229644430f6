import SpriteBytecode.Playback.Tick
import SpriteBytecode.Proofs.Playback.Effect

/-!
The course of playback: the settled states in which its commands run, whatever ticks they fall into.
From one state there is only one course (`Course.split`). The commands of any number of ticks run
along it (`course_ticks`), and as long as a tick may run a command at all, ticks get through every
course (`exists_le_length_executions`).
-/

set_option autoImplicit false
set_option relaxedAutoImplicit false

namespace SpriteBytecode

namespace Player

variable (player : Player)

/-! ### Courses -/

/-- From `start` on, commands run in the states `before`, and then the state is `finish`. -/
inductive Course : AnimationState → List AnimationState → AnimationState → Prop
  | done (start : AnimationState) : Course start [] start
  | run {start finish : AnimationState} {before : List AnimationState} {command : Command}
      (hcommand : player.list.get? start.cursor = some command)
      (hlater : Course (player.effect command start).state.settled before finish) :
      Course start (start :: before) finish

namespace Course

variable {player} {start middle finish : AnimationState} {first second : List AnimationState}

theorem append (hfirst : player.Course start first middle)
    (hsecond : player.Course middle second finish) :
    player.Course start (first ++ second) finish := by
  induction hfirst with
  | done start => exact hsecond
  | run hcommand _ ih => exact .run hcommand (ih hsecond)

/-- The longer of two courses goes on where the shorter one ends. -/
theorem split (hfirst : player.Course start first middle)
    (hsecond : player.Course start second finish) (hle : first.length ≤ second.length) :
    ∃ rest, second = first ++ rest ∧ player.Course middle rest finish := by
  induction hfirst generalizing second with
  | done start => exact ⟨second, rfl, hsecond⟩
  | run hcommand _ ih =>
    cases hsecond with
    | done => exact absurd hle (by simp)
    | run hcommand' hlater' =>
      obtain rfl := Option.some.inj (hcommand.symm.trans hcommand')
      obtain ⟨rest, rfl, hrest⟩ := ih hlater' (Nat.le_of_succ_le_succ hle)
      exact ⟨rest, rfl, hrest⟩

/-- Two courses run their commands in the same states. -/
theorem getElem?_unique (hfirst : player.Course start first middle)
    (hsecond : player.Course start second finish) {place : Nat} {state other : AnimationState}
    (hstate : first[place]? = some state) (hother : second[place]? = some other) :
    state = other := by
  rcases Nat.le_total first.length second.length with hle | hle
  · obtain ⟨rest, rfl, -⟩ := hfirst.split hsecond hle
    rw [List.getElem?_append_left (List.getElem?_eq_some_iff.mp hstate).1, hstate] at hother
    exact Option.some.inj hother
  · obtain ⟨rest, rfl, -⟩ := hsecond.split hfirst hle
    rw [List.getElem?_append_left (List.getElem?_eq_some_iff.mp hother).1, hother] at hstate
    exact (Option.some.inj hstate).symm

theorem eq_of_get?_eq_none (h : player.Course start first finish)
    (hend : player.list.get? start.cursor = none) : first = [] ∧ finish = start := by
  cases h with
  | done => exact ⟨rfl, rfl⟩
  | run hcommand _ => exact absurd (hend.symm.trans hcommand) (by simp)

/-- A course that has come to the end of the list is as long as any. -/
theorem length_le_of_get?_eq_none (hfirst : player.Course start first middle)
    (hend : player.list.get? middle.cursor = none)
    (hsecond : player.Course start second finish) : second.length ≤ first.length := by
  by_contra hlt
  obtain ⟨rest, rfl, hrest⟩ := hfirst.split hsecond (Nat.le_of_not_le hlt)
  rw [(hrest.eq_of_get?_eq_none hend).1, List.append_nil] at hlt
  exact hlt (Nat.le_refl _)

/-- Two courses to the end of the list are the same. -/
theorem eq_of_both_end (hfirst : player.Course start first middle)
    (hmiddle : player.list.get? middle.cursor = none)
    (hsecond : player.Course start second finish)
    (hfinish : player.list.get? finish.cursor = none) : first = second ∧ middle = finish := by
  have hle := hsecond.length_le_of_get?_eq_none hfinish hfirst
  obtain ⟨rest, rfl, hrest⟩ := hfirst.split hsecond hle
  obtain ⟨rfl, rfl⟩ := hrest.eq_of_get?_eq_none hmiddle
  exact ⟨(List.append_nil _).symm, rfl⟩

/-- Elapsed time never goes back along a course. -/
theorem waited_le (h : player.Course start first finish) (hstart : start.waited ≤ maxElapsed) :
    start.waited ≤ finish.waited ∧
      ∀ state ∈ first, start.waited ≤ state.waited ∧ state.waited ≤ finish.waited := by
  induction h with
  | done start => exact ⟨Nat.le_refl _, fun _ h ↦ absurd h (List.not_mem_nil)⟩
  | @run start finish before command hcommand _ ih =>
    obtain ⟨hnext, hbound⟩ := player.waited_effect hstart command
    obtain ⟨hfinish, hbefore⟩ := ih hbound
    rw [AnimationState.waited_settled] at hfinish hbefore
    refine ⟨Nat.le_trans hnext hfinish, ?_⟩
    intro state hstate
    rcases List.mem_cons.mp hstate with rfl | hstate
    · exact ⟨Nat.le_refl _, Nat.le_trans hnext hfinish⟩
    · exact ⟨Nat.le_trans hnext (hbefore state hstate).1, (hbefore state hstate).2⟩

end Course

/-! ### Commands of one tick -/

theorem runCommands_done (cap : Nat) (state : AnimationState) (done : List Execution) :
    player.runCommands cap state done =
      { player.runCommands cap state [] with
        executed := done.reverse ++ (player.runCommands cap state []).executed } := by
  induction cap generalizing state done with
  | zero => simp [runCommands]
  | succ cap ih =>
    unfold runCommands
    rcases player.program.get? state.cursor with - | command
    · simp
    · dsimp only
      split
      · simp
      · rw [ih _ (_ :: done), ih _ [_]]
        simp

section RunCommands

variable {state : AnimationState} {command : Command}

theorem runCommands_of_get?_eq_none (cap : Nat) (h : player.list.get? state.cursor = none) :
    player.runCommands (cap + 1) state [] = ⟨.ended, state, []⟩ := by
  rw [runCommands, get?_program, h]
  rfl

theorem runCommands_of_blocks (cap : Nat) (h : player.list.get? state.cursor = some command)
    (hblocks : (player.effect command state).blocks = true) :
    player.runCommands (cap + 1) state [] =
      ⟨.blocked, (player.effect command state).state,
        [⟨state, command, (player.effect command state).missing?⟩]⟩ := by
  rw [runCommands, get?_program, h]
  exact if_pos hblocks

theorem runCommands_of_not_blocks (cap : Nat) (h : player.list.get? state.cursor = some command)
    (hblocks : (player.effect command state).blocks = false) :
    player.runCommands (cap + 1) state [] =
      { player.runCommands cap (player.effect command state).state [] with
        executed := ⟨state, command, (player.effect command state).missing?⟩ ::
          (player.runCommands cap (player.effect command state).state []).executed } := by
  rw [runCommands, get?_program, h]
  dsimp only
  rw [hblocks, if_neg Bool.false_ne_true, runCommands_done]
  rfl

end RunCommands

/-- How a tick can end, by its outcome. -/
def EndsAs (cap : Nat) (tick : Tick) : Prop :=
  match tick.outcome with
  | .waiting => False
  | .blocked => 0 < tick.state.delay ∧ tick.executed ≠ []
  | .ended => tick.state.delay ≤ 0 ∧ player.list.get? tick.state.cursor = none
  | .stalled => tick.state.delay ≤ 0 ∧ tick.executed.length = cap

theorem EndsAs.cons {player : Player} {cap : Nat} {tick : Tick} (h : player.EndsAs cap tick)
    (execution : Execution) :
    player.EndsAs (cap + 1) { tick with executed := execution :: tick.executed } := by
  obtain ⟨outcome, state, executed⟩ := tick
  cases outcome with
  | waiting => exact h
  | blocked => exact ⟨h.1, List.cons_ne_nil _ _⟩
  | ended => exact h
  | stalled => exact ⟨h.1, congrArg (· + 1) h.2⟩

/-- The commands of a tick run along the course from the state in front of them. -/
theorem course_runCommands (cap : Nat) :
    ∀ {state : AnimationState}, state.delay ≤ 0 →
      player.Course state.settled
          ((player.runCommands cap state []).executed.map (·.before.settled))
          (player.runCommands cap state []).state.settled ∧
        (∀ execution ∈ (player.runCommands cap state []).executed,
          execution.before.delay ≤ 0) ∧
        player.EndsAs cap (player.runCommands cap state []) := by
  induction cap with
  | zero =>
    intro state hdelay
    exact ⟨.done _, fun _ h ↦ absurd h List.not_mem_nil, hdelay, rfl⟩
  | succ cap ih =>
    intro state hdelay
    have hcursor := AnimationState.cursor_settled hdelay
    rcases hget : player.list.get? state.cursor with - | command
    · rw [player.runCommands_of_get?_eq_none cap hget]
      exact ⟨.done _, fun _ h ↦ absurd h List.not_mem_nil, hdelay, hget⟩
    have hsettled : player.list.get? state.settled.cursor = some command := by
      rw [hcursor, hget]
    have hnext := player.settled_effect hdelay command
    rcases player.wait_or_not_blocks command state with ⟨count, rfl⟩ | ⟨hblocks, hsame, -⟩
    · rw [player.runCommands_of_blocks cap hget rfl]
      refine ⟨.run hsettled ?_, ?_, ?_⟩
      · rw [hnext]
        exact .done _
      · intro execution hexecution
        obtain rfl := List.mem_singleton.mp hexecution
        exact hdelay
      · exact ⟨Int.natCast_pos.mpr (waitTime_pos count), List.cons_ne_nil _ _⟩
    · rw [player.runCommands_of_not_blocks cap hget hblocks]
      obtain ⟨hcourse, hdelays, hends⟩ := ih (le_of_eq_of_le hsame hdelay)
      refine ⟨.run hsettled ?_, ?_, ?_⟩
      · rw [hnext]
        exact hcourse
      · intro execution hexecution
        rcases List.mem_cons.mp hexecution with rfl | hlater
        · exact hdelay
        · exact hdelays execution hlater
      · exact hends.cons _

/-! ### One tick -/

/-- The state in which the commands of a tick begin to run. -/
def resume (state : AnimationState) : AnimationState :=
  { state with
    cursor := if 0 < state.delay then state.cursor + 1 else state.cursor
    delay :=
      if 0 < state.delay then state.delay - max 1 player.config.ticksPerStep.toInt
      else state.delay }.resetPulse

theorem step_of_waiting {state : AnimationState}
    (h : 0 < state.delay - max 1 player.config.ticksPerStep.toInt) :
    player.step state =
      ⟨.waiting, { state with delay := state.delay - max 1 player.config.ticksPerStep.toInt },
        []⟩ := by
  have hpending : 0 < state.delay := by omega
  rw [step, if_pos hpending]
  exact if_pos h

theorem step_of_not_waiting {state : AnimationState}
    (h : ¬ 0 < state.delay - max 1 player.config.ticksPerStep.toInt) :
    player.step state =
        player.runCommands player.config.maxIterations (player.resume state) [] ∧
      (player.resume state).delay ≤ 0 ∧ (player.resume state).settled = state.settled := by
  by_cases hpending : 0 < state.delay
  · have hover : (player.resume state).delay ≤ 0 := by
      simp only [resume, AnimationState.resetPulse, if_pos hpending]
      omega
    refine ⟨?_, hover, ?_⟩
    · rw [step, if_pos hpending]
      dsimp only
      rw [if_neg h]
      simp only [resume, if_pos hpending]
    · simp only [AnimationState.settled, if_neg (Int.not_lt.mpr hover)]
      simp [resume, AnimationState.resetPulse, hpending]
  · refine ⟨?_, ?_, ?_⟩
    · rw [step, if_neg hpending]
      simp only [resume, if_neg hpending]
    · simp only [resume, AnimationState.resetPulse, if_neg hpending]
      exact Int.not_lt.mp hpending
    · simp [AnimationState.settled, resume, AnimationState.resetPulse, hpending]

theorem settled_of_waiting {state : AnimationState} {delay : Int} (hpending : 0 < state.delay)
    (hdelay : 0 < delay) : { state with delay }.settled = state.settled := by
  simp [AnimationState.settled, AnimationState.resetPulse, hpending, hdelay]

theorem course_step (state : AnimationState) :
    player.Course state.settled ((player.step state).executed.map (·.before.settled))
        (player.step state).state.settled ∧
      ∀ execution ∈ (player.step state).executed, execution.before.delay ≤ 0 := by
  by_cases h : 0 < state.delay - max 1 player.config.ticksPerStep.toInt
  · rw [player.step_of_waiting h, settled_of_waiting (by omega) h]
    exact ⟨.done _, fun _ h ↦ absurd h List.not_mem_nil⟩
  · obtain ⟨hstep, hdelay, hsettled⟩ := player.step_of_not_waiting h
    rw [hstep, ← hsettled]
    exact ⟨(player.course_runCommands _ hdelay).1, (player.course_runCommands _ hdelay).2.1⟩

/-- A tick that does not wait runs commands, and ends as a run of them does. -/
theorem step_of_outcome_ne {state : AnimationState}
    (h : (player.step state).outcome ≠ .waiting) :
    player.step state =
        player.runCommands player.config.maxIterations (player.resume state) [] ∧
      (player.resume state).delay ≤ 0 ∧
      player.EndsAs player.config.maxIterations (player.step state) := by
  by_cases hwaiting : 0 < state.delay - max 1 player.config.ticksPerStep.toInt
  · rw [player.step_of_waiting hwaiting] at h
    exact absurd rfl h
  · obtain ⟨hstep, hdelay, -⟩ := player.step_of_not_waiting hwaiting
    refine ⟨hstep, hdelay, ?_⟩
    rw [hstep]
    exact (player.course_runCommands _ hdelay).2.2

/-- A tick that waits runs nothing, because its countdown leaves a delay. -/
theorem step_of_outcome_eq {state : AnimationState} (h : (player.step state).outcome = .waiting) :
    player.step state =
        ⟨.waiting, { state with delay := state.delay - max 1 player.config.ticksPerStep.toInt },
          []⟩ ∧
      0 < state.delay - max 1 player.config.ticksPerStep.toInt := by
  by_cases hwaiting : 0 < state.delay - max 1 player.config.ticksPerStep.toInt
  · exact ⟨player.step_of_waiting hwaiting, hwaiting⟩
  · obtain ⟨hstep, hdelay, -⟩ := player.step_of_not_waiting hwaiting
    have hends := (player.course_runCommands player.config.maxIterations hdelay).2.2
    rw [← hstep, EndsAs, h] at hends
    exact hends.elim

theorem get?_of_ended {state : AnimationState} (h : (player.step state).outcome = .ended) :
    player.list.get? (player.step state).state.settled.cursor = none := by
  obtain ⟨-, -, hends⟩ := player.step_of_outcome_ne (ne_of_eq_of_ne h (by decide))
  rw [EndsAs, h] at hends
  rw [AnimationState.cursor_settled hends.1]
  exact hends.2

/-- Past the end of the list nothing runs, and the cursor stays where it is. -/
theorem step_of_get?_eq_none {state : AnimationState}
    (h : player.list.get? state.settled.cursor = none) :
    (player.step state).executed = [] ∧ (player.step state).state.settled = state.settled := by
  obtain ⟨hmap, hsettled⟩ := (player.course_step state).1.eq_of_get?_eq_none h
  exact ⟨List.map_eq_nil_iff.mp hmap, hsettled⟩

/-! ### Many ticks -/

/-- The state after `count` ticks from `state` on. -/
def after : Nat → AnimationState → AnimationState
  | 0, state => state
  | count + 1, state => after count (player.step state).state

/-- The commands that run in the first `count` ticks from `state` on. -/
def executions (count : Nat) (state : AnimationState) : List Execution :=
  (player.ticks count state).flatMap (·.executed)

/-- Their indices. -/
def indices (count : Nat) (state : AnimationState) : List Nat :=
  (player.executions count state).map Execution.index

theorem executions_succ (count : Nat) (state : AnimationState) :
    player.executions (count + 1) state =
      (player.step state).executed ++ player.executions count (player.step state).state := rfl

theorem ticks_add (first second : Nat) (state : AnimationState) :
    player.ticks (first + second) state =
      player.ticks first state ++ player.ticks second (player.after first state) := by
  induction first generalizing state with
  | zero => rw [Nat.zero_add]; rfl
  | succ first ih =>
    rw [Nat.succ_add_eq_add_succ, Nat.add_succ]
    exact congrArg (player.step state :: ·) (ih _)

theorem executions_add (first second : Nat) (state : AnimationState) :
    player.executions (first + second) state =
      player.executions first state ++ player.executions second (player.after first state) := by
  rw [executions, ticks_add, List.flatMap_append]
  rfl

theorem mem_ticks {count : Nat} {state : AnimationState} {tick : Tick}
    (h : tick ∈ player.ticks count state) :
    ∃ earlier < count, tick = player.step (player.after earlier state) ∧
      tick.state = player.after (earlier + 1) state := by
  induction count generalizing state with
  | zero => exact absurd h List.not_mem_nil
  | succ count ih =>
    rcases List.mem_cons.mp h with rfl | hlater
    · exact ⟨0, Nat.succ_pos _, rfl, rfl⟩
    · obtain ⟨earlier, hlt, htick, hstate⟩ := ih hlater
      exact ⟨earlier + 1, Nat.succ_lt_succ hlt, htick, hstate⟩

/-- The commands of any number of ticks run along the course from the state in front of them. -/
theorem course_ticks (count : Nat) :
    ∀ state : AnimationState,
      player.Course state.settled ((player.executions count state).map (·.before.settled))
          (player.after count state).settled ∧
        ∀ execution ∈ player.executions count state, execution.before.delay ≤ 0 := by
  induction count with
  | zero => exact fun state ↦ ⟨.done _, fun _ h ↦ absurd h List.not_mem_nil⟩
  | succ count ih =>
    intro state
    obtain ⟨hcourse, hdelays⟩ := player.course_step state
    obtain ⟨hlater, hdelays'⟩ := ih (player.step state).state
    rw [executions_succ]
    constructor
    · rw [List.map_append]
      exact hcourse.append hlater
    · intro execution hexecution
      rcases List.mem_append.mp hexecution with h | h
      · exact hdelays execution h
      · exact hdelays' execution h

/-- A course from the start to the end of the list is what has run when a tick ends. -/
theorem eq_course_of_ended {before : List AnimationState} {last : AnimationState}
    (h : player.Course .initial before last) (hend : player.list.get? last.cursor = none)
    {count : Nat} {tick : Tick} (htick : tick ∈ player.ticks count .initial)
    (hended : tick.outcome = .ended) :
    (player.executions count .initial).map (·.before.settled) = before ∧
      tick.state.settled = last := by
  obtain ⟨earlier, hlt, rfl, hstate⟩ := player.mem_ticks htick
  have hpast := player.get?_of_ended hended
  rw [hstate] at hpast ⊢
  obtain ⟨more, rfl⟩ := Nat.exists_eq_add_of_le (Nat.succ_le_of_lt hlt)
  obtain ⟨hbefore, hlast⟩ :=
    (player.course_ticks (earlier + 1) .initial).1.eq_of_both_end hpast h hend
  have hmore := (player.course_ticks more (player.after (earlier + 1) .initial)).1
  refine ⟨?_, hlast⟩
  rw [executions_add, List.map_append, (hmore.eq_of_get?_eq_none hpast).1, List.append_nil, hbefore]

theorem indices_eq (count : Nat) (state : AnimationState) :
    player.indices count state =
      ((player.executions count state).map (·.before.settled)).map (·.cursor) := by
  rw [indices, List.map_map]
  apply List.map_congr_left
  intro execution hexecution
  have hdelay := (player.course_ticks count state).2 execution hexecution
  exact (AnimationState.cursor_settled hdelay).symm

section Progress

variable (hcap : 1 ≤ player.config.maxIterations)

include hcap

theorem exists_executed_or_ended (state : AnimationState) :
    ∃ count, 1 ≤ (player.executions count state).length ∨
      ∃ tick ∈ player.ticks count state, tick.outcome = .ended := by
  induction hdelay : state.delay.toNat using Nat.strongRecOn generalizing state with
  | ind delay ih =>
    by_cases hwaiting : 0 < state.delay - max 1 player.config.ticksPerStep.toInt
    · obtain ⟨count, hcount⟩ := ih (player.step state).state.delay.toNat
        (by rw [player.step_of_waiting hwaiting, ← hdelay]; dsimp only; omega) _ rfl
      refine ⟨count + 1, hcount.imp ?_ ?_⟩
      · intro h
        rw [executions_succ, List.length_append]
        omega
      · rintro ⟨tick, htick, hended⟩
        exact ⟨tick, List.mem_cons_of_mem _ htick, hended⟩
    · obtain ⟨hstep, hover, -⟩ := player.step_of_not_waiting hwaiting
      have hends := (player.course_runCommands player.config.maxIterations hover).2.2
      rw [← hstep, EndsAs] at hends
      refine ⟨1, ?_⟩
      rw [executions_succ, List.length_append]
      rcases houtcome : (player.step state).outcome with - | - | - | -
      · simp [houtcome] at hends
      · simp only [houtcome] at hends
        have := List.length_pos_iff.mpr hends.2
        exact Or.inl (by omega)
      · exact Or.inr ⟨_, List.mem_cons_self, houtcome⟩
      · simp only [houtcome] at hends
        exact Or.inl (by omega)

/-- Ticks run any number of commands, unless they come to the end of the list. -/
theorem exists_executions_or_ended (least : Nat) (state : AnimationState) :
    ∃ count, least ≤ (player.executions count state).length ∨
      ∃ tick ∈ player.ticks count state, tick.outcome = .ended := by
  induction least with
  | zero => exact ⟨0, Or.inl (Nat.zero_le _)⟩
  | succ least ih =>
    obtain ⟨count, hcount | hended⟩ := ih
    · obtain ⟨more, hmore⟩ := player.exists_executed_or_ended hcap (player.after count state)
      refine ⟨count + more, hmore.imp ?_ ?_⟩
      · intro h
        rw [executions_add, List.length_append]
        omega
      · rintro ⟨tick, htick, hended⟩
        rw [ticks_add]
        exact ⟨tick, List.mem_append_right _ htick, hended⟩
    · exact ⟨count, Or.inr hended⟩

/-- Ticks get through every course. -/
theorem exists_le_length_executions {state finish : AnimationState} {before : List AnimationState}
    (h : player.Course state.settled before finish) :
    ∃ count, before.length ≤ (player.executions count state).length := by
  obtain ⟨count, hcount | ⟨tick, htick, hended⟩⟩ :=
    player.exists_executions_or_ended hcap before.length state
  · exact ⟨count, hcount⟩
  · obtain ⟨earlier, -, rfl, hstate⟩ := player.mem_ticks htick
    have hend := player.get?_of_ended hended
    rw [hstate] at hend
    have hle := (player.course_ticks (earlier + 1) state).1.length_le_of_get?_eq_none hend h
    rw [List.length_map] at hle
    exact ⟨earlier + 1, hle⟩

/-- Playback ends if a course does. -/
theorem exists_ended_of_course {state finish : AnimationState} {before : List AnimationState}
    (h : player.Course state.settled before finish)
    (hend : player.list.get? finish.cursor = none) :
    ∃ count, ∃ tick ∈ player.ticks count state, tick.outcome = .ended := by
  obtain ⟨count, hcount | hended⟩ :=
    player.exists_executions_or_ended hcap (before.length + 1) state
  · have hle := h.length_le_of_get?_eq_none hend (player.course_ticks count state).1
    rw [List.length_map] at hle
    exact absurd hcount (Nat.not_le_of_lt (Nat.lt_succ_of_le hle))
  · exact ⟨count, hended⟩

end Progress

end Player

end SpriteBytecode
