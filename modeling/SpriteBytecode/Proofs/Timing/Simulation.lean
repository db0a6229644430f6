import Mathlib.Data.List.Induction
import SpriteBytecode.Proofs.Playback.Clock
import SpriteBytecode.Timing.Report

/-!
The timing walk against playback. A step of the walk is what playback does with the command that is
visited (`follow_ofState`), so a walk visits the states of a course (`walk_course`), and playback
gets through all of them (`exists_executions_of_visits`). What the walk annotates a command with is
the time of the command's last visit (`exists_visit_of_annotations`), and no visit of a wait, or of a
goto that finds its label, is left without (`isSome_annotations_of_mem`).
-/

set_option autoImplicit false
set_option relaxedAutoImplicit false

namespace SpriteBytecode

/-- What a walk would note of a state. -/
def Visit.ofState (state : AnimationState) : Visit := ⟨state.cursor, state.waited, state.repeats⟩

/-- What a walk would note of a command that ran. -/
def Visit.ofExecution (execution : Execution) : Visit := .ofState execution.before

namespace Timing

/-! ### Visits and states -/

section Course

variable {player : Player} {state : AnimationState} {command : Command}

/-- Where the walk goes on, a command goes on from a settled state to the same place, time and loop
counter. -/
theorem follow_ofState {there : Visit} (hdelay : state.delay = 0)
    (h : follow player.list.findLabel? command (.ofState state) = some there) :
    there = .ofState (player.effect command state).state.settled := by
  have hsettled (other : AnimationState) (hother : other.delay = 0) :
      Visit.ofState other.settled = .ofState other := by
    rw [Visit.ofState, Visit.ofState, AnimationState.cursor_settled (Int.le_of_eq hother)]
    rfl
  cases command with
  | wait count =>
    obtain rfl := Option.some.inj h
    have hpos : (0 : Int) < (waitTime count).toNat := Int.natCast_pos.mpr (waitTime_pos count)
    rw [player.effect_wait]
    simp only [Visit.ofState, AnimationState.settled, AnimationState.resetPulse, if_pos hpos]
    rfl
  | goto target =>
    rcases hlabel : player.list.findLabel? target with - | destination
    · simp [follow, hlabel] at h
    · simp only [follow, hlabel, Option.some.injEq] at h
      rw [player.effect_goto_of_eq_some state hlabel, hsettled _ (by exact hdelay), ← h]
      rfl
  | loop target count =>
    rcases hlabel : player.list.findLabel? target with - | destination
    · simp [follow, hlabel] at h
    · rw [player.effect_loop_of_eq_some state count hlabel, hsettled _ (by exact hdelay)]
      simp only [follow, hlabel] at h
      rcases hrepeats : nextRepeats state.repeats count with - | remaining
      · simp only [Visit.ofState, hrepeats, Option.some.injEq] at h
        rw [← h]
        rfl
      · simp only [Visit.ofState, hrepeats, Option.some.injEq] at h
        rw [← h]
        rfl
  | setParent index =>
    obtain rfl := Option.some.inj h
    rw [player.effect_setParent, hsettled _ (by exact hdelay)]
    rfl
  | _ =>
    obtain rfl := Option.some.inj h
    rw [hsettled _ (by exact hdelay)]
    rfl

/-- Where the walk finds no label, the command takes no time. -/
theorem waited_effect_of_follow_eq_none
    (h : follow player.list.findLabel? command (.ofState state) = none) :
    (player.effect command state).state.waited = state.waited := by
  rcases player.wait_or_not_blocks command state with ⟨count, rfl⟩ | ⟨-, -, hwaited⟩
  · exact absurd h (by simp [follow])
  · exact hwaited

/-- The walk goes along a course, from any visit on. -/
theorem walkFrom_course (cap : Nat) :
    ∀ {state : AnimationState} (visited : List Visit), state.delay = 0 →
      ∃ before finish, player.Course state before finish ∧
        (walkFrom player.list cap (.ofState state) visited).visits =
          visited.reverse ++ before.map Visit.ofState ∧
        (walkFrom player.list cap (.ofState state) visited).total = finish.waited ∧
        ((walkFrom player.list cap (.ofState state) visited).termination = .endOfList →
          player.list.get? finish.cursor = none) := by
  induction cap with
  | zero =>
    intro state visited _
    refine ⟨[], state, .done _, ?_⟩
    unfold walkFrom
    rcases hget : player.list.get? state.cursor with - | command <;> simp [Visit.ofState, hget]
  | succ cap ih =>
    intro state visited hdelay
    unfold walkFrom
    rcases hget : player.list.get? state.cursor with - | command
    · refine ⟨[], state, .done _, ?_⟩
      simp [Visit.ofState, hget]
    rw [show (Visit.ofState state).position = state.cursor from rfl, hget]
    dsimp only
    split
    · refine ⟨[], state, .done _, ?_⟩
      simp [Visit.ofState]
    · rcases hfollow : follow player.list.findLabel? command (.ofState state) with - | there
      · refine ⟨[state], _, .run hget (.done _), ?_⟩
        simp [Visit.ofState, waited_effect_of_follow_eq_none hfollow]
      · obtain rfl := follow_ofState hdelay hfollow
        obtain ⟨before, finish, hcourse, hvisits, htotal, hend⟩ :=
          ih (.ofState state :: visited) (AnimationState.delay_settled _)
        refine ⟨state :: before, finish, .run hget hcourse, ?_, htotal, hend⟩
        rw [hvisits, List.reverse_cons, List.append_assoc]
        rfl

theorem walk_course (player : Player) (cap : Nat) :
    ∃ before finish, player.Course .initial before finish ∧
      (walk player.list cap).visits = before.map Visit.ofState ∧
      (walk player.list cap).total = finish.waited ∧
      ((walk player.list cap).termination = .endOfList →
        player.list.get? finish.cursor = none) := by
  unfold walk
  split
  · exact ⟨[], .initial, .done _, rfl, rfl, fun h ↦ absurd h (by simp)⟩
  · exact walkFrom_course cap [] rfl

end Course

/-! ### Annotations -/

/-- An annotation is the time of the command's last visit. -/
theorem exists_visit_of_annotations {list : CommandList} {visits : List Visit} {index time : Nat}
    (h : (annotations list visits)[index]?.join = some time) :
    ∃ front visit back, visits = front ++ visit :: back ∧ isAnnotated list visit = true ∧
      visit.position = index ∧ visit.time = time ∧ ∀ later ∈ back, later.position ≠ index := by
  induction visits using List.reverseRecOn with
  | nil =>
    have hnone : (annotations list [])[index]?.join = none := by
      simp [annotations, List.getElem?_replicate]
      split <;> rfl
    exact absurd (hnone.symm.trans h) (by simp)
  | append_singleton visits last ih =>
    have hearlier (h : (annotations list visits)[index]?.join = some time)
        (hlast : isAnnotated list last = true → last.position ≠ index) :
        ∃ front visit back, visits ++ [last] = front ++ visit :: back ∧
          isAnnotated list visit = true ∧ visit.position = index ∧ visit.time = time ∧
            ∀ later ∈ back, later.position ≠ index := by
      obtain ⟨front, visit, back, rfl, hannotated, hposition, htime, hback⟩ := ih h
      refine ⟨front, visit, back ++ [last], by simp, hannotated, hposition, htime, ?_⟩
      intro later hlater hsame
      rcases List.mem_append.mp hlater with hlater | hlater
      · exact hback later hlater hsame
      · obtain rfl := List.mem_singleton.mp hlater
        rw [isAnnotated, hposition, ← hsame] at hannotated
        exact hlast hannotated hsame
    rw [annotations_concat] at h
    split at h
    · next hannotated =>
      rw [List.getElem?_set] at h
      by_cases hlast : last.position = index
      · rw [if_pos hlast] at h
        split at h
        · exact ⟨visits, last, [], rfl, hannotated, hlast, Option.some.inj h, by simp⟩
        · exact absurd h (by simp)
      · rw [if_neg hlast] at h
        exact hearlier h fun _ ↦ hlast
    · next hannotated => exact hearlier h fun hlast ↦ absurd hlast hannotated

/-- Every visit of a wait, or of a goto whose label has a marker, leaves an annotation. -/
theorem isSome_annotations_of_mem {list : CommandList} {visits : List Visit} {visit : Visit}
    (hvisit : visit ∈ visits) (hannotated : isAnnotated list visit = true) :
    (annotations list visits)[visit.position]?.join.isSome = true := by
  induction visits using List.reverseRecOn with
  | nil => exact absurd hvisit List.not_mem_nil
  | append_singleton visits last ih =>
    rw [annotations_concat]
    have hlength : visit.position < (annotations list visits).length := by
      rw [length_annotations]
      rcases hget : list.get? visit.position with - | command
      · rw [isAnnotated, hget] at hannotated
        exact absurd hannotated (by simp)
      · exact lt_length_of_get? hget
    by_cases hsame : last.position = visit.position
    · have hlast : isAnnotated list last = true := by rw [isAnnotated, hsame]; exact hannotated
      rw [if_pos hlast, hsame, List.getElem?_set_self hlength]
      rfl
    · have hmem : visit ∈ visits := by
        rcases List.mem_append.mp hvisit with hmem | hmem
        · exact hmem
        · obtain rfl := List.mem_singleton.mp hmem
          exact absurd rfl hsame
      split
      · rw [List.getElem?_set_ne hsame]
        exact ih hmem
      · exact ih hmem

theorem isAnnotated_of_get? {list : CommandList} {visit : Visit} {command : Command}
    (hget : list.get? visit.position = some command)
    (htimed : (∃ count, command = .wait count) ∨
      ∃ target place, command = .goto target ∧ list.findLabel? target = some place) :
    isAnnotated list visit = true := by
  rw [isAnnotated, hget]
  rcases htimed with ⟨count, rfl⟩ | ⟨target, place, rfl, hplace⟩
  · rfl
  · exact Option.isSome_iff_exists.mpr ⟨place, hplace⟩

end Timing

namespace Player

variable (player : Player) (cap : Nat)

theorem map_ofExecution (count : Nat) :
    (player.executions count .initial).map Visit.ofExecution =
      ((player.executions count .initial).map (·.before.settled)).map Visit.ofState := by
  rw [List.map_map]
  apply List.map_congr_left
  intro execution hexecution
  have hdelay := (player.course_ticks count .initial).2 execution hexecution
  simp only [Function.comp_apply, Visit.ofExecution, Visit.ofState,
    AnimationState.cursor_settled hdelay, AnimationState.waited_settled,
    AnimationState.repeats_settled]

/-- Playback gets through everything that a walk visits. -/
theorem exists_executions_of_visits (hcap : 1 ≤ player.config.maxIterations) :
    ∃ count, (Timing.walk player.list cap).visits <+:
      (player.executions count .initial).map Visit.ofExecution := by
  obtain ⟨before, finish, hcourse, hvisits, -⟩ := Timing.walk_course player cap
  rw [← AnimationState.settled_initial] at hcourse
  obtain ⟨count, hcount⟩ := player.exists_le_length_executions hcap hcourse
  obtain ⟨rest, hrest, -⟩ :=
    hcourse.split (player.course_ticks count .initial).1 (by rwa [List.length_map])
  refine ⟨count, ?_⟩
  rw [hvisits, map_ofExecution, hrest, List.map_append]
  exact List.prefix_append _ _

section EndOfList

variable {cap} (h : (Timing.walk player.list cap).termination = .endOfList)

include h

theorem exists_ended_of_endOfList (hcap : 1 ≤ player.config.maxIterations) :
    ∃ count, ∃ tick ∈ player.ticks count .initial, tick.outcome = .ended := by
  obtain ⟨before, finish, hcourse, -, -, hend⟩ := Timing.walk_course player cap
  rw [← AnimationState.settled_initial] at hcourse
  exact player.exists_ended_of_course hcap hcourse (hend h)

theorem waited_of_ended {count : Nat} {tick : Tick} (htick : tick ∈ player.ticks count .initial)
    (hended : tick.outcome = .ended) :
    tick.state.waited = (Timing.walk player.list cap).total := by
  obtain ⟨before, finish, hcourse, -, htotal, hend⟩ := Timing.walk_course player cap
  rw [← AnimationState.settled_initial] at hcourse
  obtain ⟨earlier, -, rfl, hstate⟩ := player.mem_ticks htick
  have hstuck := player.get?_of_ended hended
  rw [hstate] at hstuck ⊢
  obtain ⟨-, hsame⟩ :=
    (player.course_ticks (earlier + 1) .initial).1.eq_of_both_end hstuck hcourse (hend h)
  rw [← AnimationState.waited_settled, hsame, htotal]

end EndOfList

variable {player cap}

/-- An annotation is the elapsed time in front of the last run of its command among those that the
walk visits. -/
theorem exists_execution_of_annotation {count : Nat}
    (hcovers : (Timing.walk player.list cap).visits <+:
      (player.executions count .initial).map Visit.ofExecution)
    {index time : Nat}
    (h : (Timing.annotations player.list
      (Timing.walk player.list cap).visits)[index]?.join = some time) :
    ∃ last execution, last < (Timing.walk player.list cap).visits.length ∧
      (player.executions count .initial)[last]? = some execution ∧ execution.index = index ∧
      execution.before.waited = time ∧
      ∀ later other, last < later → later < (Timing.walk player.list cap).visits.length →
        (player.executions count .initial)[later]? = some other → other.index ≠ index := by
  obtain ⟨front, visit, back, hsplit, -, hposition, htime, hback⟩ :=
    Timing.exists_visit_of_annotations h
  rw [hsplit] at hcovers ⊢
  obtain ⟨rest, hrest⟩ := hcovers
  have hvisited (place : Nat) (hplace : place < (front ++ visit :: back).length) :
      (front ++ visit :: back)[place]? =
        (player.executions count .initial)[place]?.map Visit.ofExecution := by
    rw [← List.getElem?_map, ← hrest, List.getElem?_append_left hplace]
  have hlength : front.length < (front ++ visit :: back).length := by
    rw [List.length_append, List.length_cons]
    omega
  have hlast := hvisited front.length hlength
  rw [List.getElem?_append_right (Nat.le_refl _), Nat.sub_self, List.getElem?_cons_zero] at hlast
  obtain ⟨execution, hexecution, rfl⟩ := Option.map_eq_some_iff.mp hlast.symm
  refine ⟨front.length, execution, hlength, hexecution, hposition, htime, ?_⟩
  intro later other hlater hwithin hother hindex
  have hmem := hvisited later hwithin
  rw [hother, List.getElem?_append_right (Nat.le_of_lt hlater)] at hmem
  obtain ⟨more, rfl⟩ := Nat.exists_eq_add_of_lt hlater
  rw [show front.length + more + 1 - front.length = more + 1 by omega,
    List.getElem?_cons_succ] at hmem
  exact hback _ (List.mem_of_getElem? hmem) hindex

/-- One by one, a visited command runs after as many ticks as its elapsed time. -/
theorem length_executions_of_visit (hone : player.config.ticksPerStep.toInt ≤ 1)
    (hbound : (Timing.walk player.list cap).total < maxElapsed) {place : Nat} {visit : Visit}
    (hvisit : (Timing.walk player.list cap).visits[place]? = some visit)
    (hstalled : ∀ tick ∈ player.ticks (visit.time + 1) .initial, tick.outcome ≠ .stalled) :
    (player.executions visit.time .initial).length ≤ place ∧
      place < (player.executions (visit.time + 1) .initial).length := by
  obtain ⟨before, finish, hcourse, hvisits, htotal, -⟩ := Timing.walk_course player cap
  rw [hvisits, List.getElem?_map, Option.map_eq_some_iff] at hvisit
  obtain ⟨state, hstate, rfl⟩ := hvisit
  have hle := ((hcourse.waited_le (Nat.zero_le _)).2 state (List.mem_of_getElem? hstate)).2
  rw [← htotal] at hle
  exact length_executions_of_course hone hcourse hstate (Nat.lt_of_le_of_lt hle hbound) hstalled

/-- What a walk over a player's list and the report of it say of playback. -/
structure SimulatedBy (player : Player) (walk : Walk) (report : TimingReport) : Prop where
  reported : report = .ofWalk player.list walk
  /-- Playback begins with what the walk visits, at the same times and with the same loop counter. -/
  visited : ∃ count,
    walk.visits <+: (player.executions count .initial).map Visit.ofExecution
  ended : report.termination = .endOfList →
    (∃ count, ∃ tick ∈ player.ticks count .initial, tick.outcome = .ended) ∧
    ∀ count, ∀ tick ∈ player.ticks count .initial, tick.outcome = .ended →
      tick.state.waited = report.total
  /-- Every wait that is visited is annotated, and every goto whose label has a marker. -/
  annotated : ∀ visit ∈ walk.visits, ∀ command, player.list.get? visit.position = some command →
    ((∃ count, command = .wait count) ∨
      ∃ target place, command = .goto target ∧ player.list.findLabel? target = some place) →
    (report.timeOf? visit.position).isSome = true
  /-- An annotation is the elapsed time in front of the last visited run of the command. -/
  timed : ∀ index time, report.timeOf? index = some time →
    ∃ count last execution,
      walk.visits.length ≤ (player.executions count .initial).length ∧
      last < walk.visits.length ∧
      (player.executions count .initial)[last]? = some execution ∧
      execution.index = index ∧ execution.before.waited = time ∧
      ∀ later other, last < later → later < walk.visits.length →
        (player.executions count .initial)[later]? = some other → other.index ≠ index
  /-- One by one, a visited command runs after as many ticks as its elapsed time. -/
  ticked : player.config.ticksPerStep.toInt ≤ 1 → report.total < maxElapsed →
    ∀ place visit, walk.visits[place]? = some visit →
      (∀ tick ∈ player.ticks (visit.time + 1) .initial, tick.outcome ≠ .stalled) →
      (player.executions visit.time .initial).length ≤ place ∧
        place < (player.executions (visit.time + 1) .initial).length

end Player

/-- The walk visits what playback runs first, at the same elapsed times and with the same loop
counter, whatever the ticks. When the walk ends with the list, playback ends after the same time;
every wait that is visited is annotated, and every goto that finds its label, with the elapsed time
in front of the last run that the walk covers; and one by one, with no stalled tick, a visited
command runs after as many ticks as its elapsed time. -/
theorem walk_simulates_playback (player : Player) (hcap : 1 ≤ player.config.maxIterations)
    (timing : TimingConfig) :
    player.SimulatedBy (Timing.walk player.list timing.maxIterations)
      (analyzeTiming player.list timing) := by
  rw [analyzeTiming_eq_ofWalk]
  obtain ⟨count, hcovers⟩ := player.exists_executions_of_visits timing.maxIterations hcap
  exact
    { reported := rfl
      visited := ⟨count, hcovers⟩
      ended hend := by
        refine ⟨player.exists_ended_of_endOfList hend hcap, ?_⟩
        intro count tick htick hended
        exact player.waited_of_ended hend htick hended
      annotated visit hvisit command hget htimed :=
        Timing.isSome_annotations_of_mem hvisit (Timing.isAnnotated_of_get? hget htimed)
      timed index time htime := by
        obtain ⟨last, execution, hlast⟩ := Player.exists_execution_of_annotation hcovers htime
        have hle := hcovers.length_le
        rw [List.length_map] at hle
        exact ⟨count, last, execution, hle, hlast⟩
      ticked hone hbound place visit hvisit hstalled :=
        Player.length_executions_of_visit hone hbound hvisit hstalled }

/-- A wait of two ticks in a loop that is run twice, tick by tick. -/
def waitingTwice : Player :=
  ⟨(CommandList.mk [.label ⟨0⟩, .wait 2, .loop ⟨0⟩ 1] ["Start"]).program, .anonymous 0 0 0,
    { ticksPerStep := 1 }⟩

/-- Playback ends, and the second wait begins in the third tick. -/
theorem walk_simulates_playback_repeated_wait :
    (∃ count, ∃ tick ∈ waitingTwice.ticks count .initial, tick.outcome = .ended) ∧
    (waitingTwice.executions 2 .initial).length ≤ 4 ∧
    4 < (waitingTwice.executions 3 .initial).length := by
  have hsimulated := walk_simulates_playback waitingTwice (by decide) {}
  have htotal : (analyzeTiming waitingTwice.list {}).total = 4 := by decide +kernel
  have hbound : (analyzeTiming waitingTwice.list {}).total < maxElapsed := by
    rw [htotal]
    decide
  exact ⟨(hsimulated.ended (by decide +kernel)).1,
    hsimulated.ticked (by decide) hbound 4 ⟨1, 2, some 1⟩ (by decide) (by decide)⟩

end SpriteBytecode
