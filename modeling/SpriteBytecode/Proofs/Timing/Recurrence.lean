import Mathlib.Data.List.Perm.Subperm
import SpriteBytecode.Proofs.CommandList.Place
import SpriteBytecode.Proofs.Playback.Invariant
import SpriteBytecode.Proofs.Timing.Trail

/-!
What a walk that comes back tells of playback. With at most one loop in the list, playback goes on
for ever among the commands that the walk has visited (`recurs_of_course`): a command that is reached
with no loop active goes on as it did inside the loop, until it comes to the loop, and there the walk
has been with no loop active, since this is how the loop became active (`exists_opener`). Without
loops a walk visits no command twice, and so never reaches a cap beyond the length of the list
(`Trail.length_le`).
-/

set_option autoImplicit false
set_option relaxedAutoImplicit false

namespace SpriteBytecode

def Instruction.isLoop {τ : Type} : Instruction τ → Bool
  | loop .. => true
  | _ => false

namespace CommandList

variable {list : CommandList}

/-- How many of the commands are loops. -/
def loopCount (list : CommandList) : Nat := list.commands.countP Instruction.isLoop

theorem isLoop_eq_false_of_loopCount (h : list.loopCount = 0) {index : Nat} {command : Command}
    (hget : list.get? index = some command) : command.isLoop = false :=
  Bool.eq_false_iff.mpr (List.countP_eq_zero.mp h command (List.mem_of_getElem? hget))

end CommandList

namespace Timing

variable {list : CommandList}

/-! ### Where a visit leads -/

section Follow

variable {place? : LabelId → Option Nat} {command : Command} {visit there : Visit}

/-- The elapsed time has no say in where a visit leads. -/
theorem exists_follow_of_eq (h : follow place? command visit = some there) (other : Visit)
    (hposition : other.position = visit.position) (hrepeats : other.repeats = visit.repeats) :
    ∃ time, follow place? command other = some ⟨there.position, time, there.repeats⟩ := by
  cases command with
  | goto target =>
    obtain ⟨destination, hplace⟩ := exists_place_of_follow h rfl
    rw [follow_goto_of_eq_some hplace] at h ⊢
    obtain rfl := Option.some.inj h
    exact ⟨other.time, by rw [hrepeats]⟩
  | loop target count =>
    obtain ⟨destination, hplace⟩ := exists_place_of_follow h rfl
    rw [follow_loop_of_eq_some hplace] at h ⊢
    obtain rfl := Option.some.inj h
    exact ⟨other.time, by rw [hposition, hrepeats]⟩
  | _ =>
    obtain rfl := Option.some.inj h
    simp only [follow, hposition, hrepeats, Option.some.injEq, Visit.mk.injEq, true_and, and_true,
      exists_eq']

/-- Nor has the loop counter, but at a loop. -/
theorem exists_follow_of_not_isLoop (h : follow place? command visit = some there)
    (hloop : command.isLoop = false) (other : Visit) (hposition : other.position = visit.position) :
    there.repeats = visit.repeats ∧
      ∃ time, follow place? command other = some ⟨there.position, time, other.repeats⟩ := by
  cases command with
  | goto target =>
    obtain ⟨destination, hplace⟩ := exists_place_of_follow h rfl
    rw [follow_goto_of_eq_some hplace] at h ⊢
    obtain rfl := Option.some.inj h
    exact ⟨rfl, other.time, rfl⟩
  | loop target count => exact absurd hloop (by simp [Instruction.isLoop])
  | _ =>
    obtain rfl := Option.some.inj h
    simp only [follow, hposition, Option.some.injEq, Visit.mk.injEq, true_and, and_true,
      exists_eq']

end Follow

/-! ### Coming back -/

/-- A loop that is active on a trail became active on it. -/
theorem exists_opener {here finish : Visit} {visits : List Visit}
    (h : Trail list here visits finish) (hhere : here.repeats = none) {visit : Visit}
    (hvisit : visit ∈ visits) (hrepeats : visit.repeats ≠ none) :
    ∃ opener ∈ visits, opener.repeats = none ∧
      ∃ command, list.get? opener.position = some command ∧ command.isLoop = true := by
  induction h with
  | done => exact absurd hvisit List.not_mem_nil
  | @visit here there finish visits command hcommand hfollow _ ih =>
    by_cases hthere : there.repeats = none
    · rcases List.mem_cons.mp hvisit with rfl | hmem
      · exact absurd hhere hrepeats
      · obtain ⟨opener, hopener, hopens⟩ := ih hthere hmem
        exact ⟨opener, List.mem_cons_of_mem _ hopener, hopens⟩
    · refine ⟨here, List.mem_cons_self, hhere, command, hcommand, ?_⟩
      by_contra hloop
      apply hthere
      rw [(exists_follow_of_not_isLoop hfollow (Bool.eq_false_iff.mpr hloop) here rfl).1, hhere]

/-- A walk was at this command, with the same loop counter or while no loop is active now. -/
def Recurs (visits : List Visit) (state : AnimationState) : Prop :=
  ∃ visit ∈ visits, visit.position = state.cursor ∧
    (state.repeats = visit.repeats ∨ state.repeats = none)

section Steady

variable {player : Player} {finish : Visit} {visits : List Visit}

/-- A trail from the start to a command on it, with no loop active there. -/
structure ComesBack (list : CommandList) (visits : List Visit) (finish : Visit) : Prop where
  trail : Trail list start visits finish
  idle : finish.repeats = none
  back : ∃ visit ∈ visits, visit.position = finish.position

theorem comesBack_of_steadyState {cap : Nat} (h : (walk list cap).termination = .steadyState) :
    ∃ finish, ComesBack list (walk list cap).visits finish := by
  unfold walk at h ⊢
  split at h
  · exact absurd h (by simp)
  · next hempty =>
    rw [if_neg hempty]
    obtain ⟨visits, finish, htrail, hvisits, -, hsteady, -⟩ :=
      exists_trail_of_walkFrom cap advances_nil (Or.inl h)
    obtain ⟨hidle, hback⟩ := hsteady h
    rw [List.reverse_nil, List.nil_append] at hvisits hback
    rw [hvisits]
    exact ⟨finish, htrail, hidle, hback⟩

/-- The state in front of a visited command leads on to another one. -/
theorem ComesBack.follow (h : ComesBack player.list visits finish)
    (hloops : player.list.loopCount ≤ 1) {state : AnimationState}
    (hstate : Recurs visits state) :
    ∃ command there, player.list.get? state.cursor = some command ∧
      Timing.follow player.list.findLabel? command (.ofState state) = some there ∧
      ∃ visit, (visit ∈ visits ∨ visit = finish) ∧ visit.position = there.position ∧
        (there.repeats = visit.repeats ∨ there.repeats = none) := by
  obtain ⟨visit, hvisit, hposition, hrepeats⟩ := hstate
  -- The same loop counter: playback goes where the walk went.
  have hsame {visit : Visit} (hvisit : visit ∈ visits) (hposition : visit.position = state.cursor)
      (hrepeats : state.repeats = visit.repeats) :
      ∃ command there, player.list.get? state.cursor = some command ∧
        Timing.follow player.list.findLabel? command (.ofState state) = some there ∧
        ∃ visit, (visit ∈ visits ∨ visit = finish) ∧ visit.position = there.position ∧
          (there.repeats = visit.repeats ∨ there.repeats = none) := by
    obtain ⟨command, there, hget, hfollow, hthere⟩ := h.trail.exists_follow hvisit
    obtain ⟨time, htime⟩ := exists_follow_of_eq hfollow (.ofState state) hposition.symm hrepeats
    exact ⟨command, _, hposition ▸ hget, htime, there, hthere, rfl, Or.inl rfl⟩
  rcases hrepeats with hrepeats | hidle
  · exact hsame hvisit hposition hrepeats
  by_cases hactive : visit.repeats = none
  · exact hsame hvisit hposition (hidle.trans hactive.symm)
  obtain ⟨command, there, hget, hfollow, hthere⟩ := h.trail.exists_follow hvisit
  by_cases hloop : command.isLoop = true
  -- At the only loop: the walk has been here with no loop active as well.
  · obtain ⟨opener, hopener, hnone, other, hother, hopens⟩ :=
      exists_opener h.trail rfl hvisit hactive
    have hplace := get?_unique_of_countP hloops hother hopens hget hloop
    exact hsame hopener (hplace.trans hposition) (hidle.trans hnone.symm)
  · obtain ⟨-, time, htime⟩ :=
      exists_follow_of_not_isLoop hfollow (Bool.eq_false_iff.mpr hloop) (.ofState state)
        hposition.symm
    exact ⟨command, _, hposition ▸ hget, htime, there, hthere, rfl, Or.inr hidle⟩

/-- A command that the walk has visited leads on to another one. -/
theorem ComesBack.recurs_effect (h : ComesBack player.list visits finish)
    (hloops : player.list.loopCount ≤ 1) {state : AnimationState} (hdelay : state.delay = 0)
    (hstate : Recurs visits state) {command : Command}
    (hcommand : player.list.get? state.cursor = some command) :
    Recurs visits (player.effect command state).state.settled := by
  obtain ⟨_, there, hget, hfollow, visit, hvisit, hposition, hrepeats⟩ := h.follow hloops hstate
  obtain rfl := Option.some.inj (hcommand.symm.trans hget)
  obtain rfl := follow_ofState hdelay hfollow
  rcases hvisit with hmem | rfl
  · exact ⟨visit, hmem, hposition, hrepeats⟩
  -- Where the walk stopped it has been before.
  · obtain ⟨earlier, hearlier, hback⟩ := h.back
    refine ⟨earlier, hearlier, hback.trans hposition, Or.inr ?_⟩
    rcases hrepeats with hsame | hidle
    · exact hsame.trans h.idle
    · exact hidle

/-- Playback stays among the commands that the walk has visited. -/
theorem ComesBack.recurs_of_course (h : ComesBack player.list visits finish)
    (hloops : player.list.loopCount ≤ 1) {state last : AnimationState}
    {before : List AnimationState} (hcourse : player.Course state before last) :
    state.delay = 0 → Recurs visits state →
      (∀ state ∈ before, Recurs visits state) ∧ Recurs visits last := by
  induction hcourse with
  | done state => exact fun _ hstate ↦ ⟨fun _ hmem ↦ absurd hmem List.not_mem_nil, hstate⟩
  | run hcommand _ ih =>
    intro hdelay hstate
    obtain ⟨hbefore, hlast⟩ :=
      ih (AnimationState.delay_settled _) (h.recurs_effect hloops hdelay hstate hcommand)
    exact ⟨List.forall_mem_cons.mpr ⟨hstate, hbefore⟩, hlast⟩

theorem ComesBack.recurs_initial (h : ComesBack list visits finish) : Recurs visits .initial := by
  obtain ⟨visit, hvisit, -⟩ := h.back
  rcases h.trail.head?_eq with hnone | hstart
  · rw [List.head?_eq_none_iff.mp hnone] at hvisit
    exact absurd hvisit List.not_mem_nil
  · exact ⟨start, List.mem_of_head? hstart, rfl, Or.inl rfl⟩

/-- Playback never comes to the end of the list. -/
theorem ComesBack.outcome_ne_ended (h : ComesBack player.list visits finish)
    (hloops : player.list.loopCount ≤ 1) {count : Nat} {tick : Tick}
    (htick : tick ∈ player.ticks count .initial) : tick.outcome ≠ .ended := by
  intro hended
  obtain ⟨earlier, -, rfl, hstate⟩ := player.mem_ticks htick
  have hcourse := (player.course_ticks (earlier + 1) .initial).1
  obtain ⟨command, -, hget, -⟩ :=
    h.follow hloops (h.recurs_of_course hloops hcourse rfl h.recurs_initial).2
  have hend := player.get?_of_ended hended
  rw [hstate] at hend
  exact absurd (hend.symm.trans hget) (by simp)

/-- A walk along a trail that comes back, and does so only at its end, stops there. -/
theorem ComesBack.walk_eq (h : ComesBack list visits finish) (hadvances : Advances visits)
    {cap : Nat} (hcap : visits.length < cap) :
    walk list cap = ⟨visits, finish.time, .steadyState⟩ := by
  obtain ⟨left, rfl⟩ := Nat.exists_eq_add_of_lt hcap
  obtain ⟨visit, hvisit, hposition⟩ := h.back
  obtain ⟨command, -, hget, -⟩ := h.trail.exists_follow hvisit
  have hnonempty : ¬ list.commands.isEmpty = true := by
    rw [List.isEmpty_iff]
    rintro hnil
    rw [CommandList.get?, hnil] at hget
    exact absurd hget (by simp)
  have hback : (finish.repeats.isNone &&
      (visits.reverse ++ []).any (·.position == finish.position)) = true :=
    comesBack_iff.mpr ⟨h.idle, visit, by simpa using hvisit, hposition⟩
  rw [walk, if_neg hnonempty, Nat.add_assoc, walkFrom_append_of_trail h.trail _ [] hadvances,
    walkFrom, ← hposition, hget, hposition]
  dsimp only
  rw [if_pos hback, List.append_nil, List.reverse_reverse]

theorem ComesBack.report (h : ComesBack list visits finish) (hadvances : Advances visits)
    {timing : TimingConfig} (hcap : visits.length < timing.maxIterations) :
    (analyzeTiming list timing).termination = .steadyState ∧
      (analyzeTiming list timing).total = finish.time := by
  rw [analyzeTiming_eq_ofWalk, h.walk_eq hadvances hcap]
  exact ⟨rfl, rfl⟩

end Steady

/-! ### Annotations -/

/-- A visited command that leads on is annotated if it is a wait or a goto. -/
theorem isAnnotated_of_follow {list : CommandList} {visit there : Visit} {command : Command}
    (hcommand : list.get? visit.position = some command)
    (hfollow : follow list.findLabel? command visit = some there)
    (htimed : (∃ count, command = .wait count) ∨ ∃ target, command = .goto target) :
    isAnnotated list visit = true := by
  refine isAnnotated_of_get? hcommand ?_
  rcases htimed with hwait | ⟨target, rfl⟩
  · exact Or.inl hwait
  · obtain ⟨destination, hplace⟩ := exists_place_of_follow hfollow rfl
    exact Or.inr ⟨target, destination, rfl, hplace⟩

/-- Playback runs no wait or goto that the walk has not annotated. -/
theorem ComesBack.isSome_annotations {player : Player} {visits : List Visit} {finish : Visit}
    (h : ComesBack player.list visits finish) (hloops : player.list.loopCount ≤ 1) {count : Nat}
    {execution : Execution} (hexecution : execution ∈ player.executions count .initial)
    (htimed : (∃ wait, execution.command = .wait wait) ∨
      ∃ target, execution.command = .goto target) :
    (annotations player.list visits)[execution.index]?.join.isSome = true := by
  have hcourse := player.course_ticks count .initial
  have hdelay := hcourse.2 execution hexecution
  obtain ⟨visit, hvisit, hposition, -⟩ :=
    (h.recurs_of_course hloops hcourse.1 rfl h.recurs_initial).1 _ (List.mem_map_of_mem hexecution)
  rw [AnimationState.cursor_settled hdelay] at hposition
  obtain ⟨command, there, hget, hfollow, -⟩ := h.trail.exists_follow hvisit
  have hsame := player.get?_of_mem_executions hexecution
  rw [Execution.index, ← hposition, hget, Option.some.injEq] at hsame
  have hannotated := isAnnotated_of_follow hget hfollow (hsame ▸ htimed)
  have hsome := isSome_annotations_of_mem hvisit hannotated
  rwa [hposition] at hsome

/-! ### Lists without loops -/

section Straight

variable {visits : List Visit} {here finish : Visit}

/-- Without loops no loop is ever active. -/
theorem Trail.repeats_eq_none (h : Trail list here visits finish) (hloops : list.loopCount = 0)
    (hhere : here.repeats = none) : ∀ visit ∈ visits, visit.repeats = none := by
  intro visit hvisit
  by_contra hactive
  obtain ⟨opener, -, -, command, hget, hloop⟩ := exists_opener h hhere hvisit hactive
  rw [CommandList.isLoop_eq_false_of_loopCount hloops hget] at hloop
  exact Bool.false_ne_true hloop

/-- Without loops a trail that advances is not longer than the list. -/
theorem Trail.length_le (h : Trail list here visits finish) (hloops : list.loopCount = 0)
    (hhere : here.repeats = none) (hadvances : Advances visits) :
    visits.length ≤ list.length := by
  have hnodup : (visits.map Visit.position).Nodup := by
    rw [List.Nodup, List.pairwise_map]
    refine hadvances.imp_of_mem ?_
    intro earlier later _ hlater hback
    exact hback (h.repeats_eq_none hloops hhere later hlater)
  have hwithin : visits.map Visit.position ⊆ List.range list.length := by
    intro position hposition
    obtain ⟨visit, hvisit, rfl⟩ := List.mem_map.mp hposition
    obtain ⟨command, -, hget, -⟩ := h.exists_follow hvisit
    exact List.mem_range.mpr (lt_length_of_get? hget)
  have hlength := (hnodup.subperm hwithin).length_le
  rwa [List.length_map, List.length_range] at hlength

theorem termination_ne_iterationCap {cap : Nat} (hloops : list.loopCount = 0)
    (hcap : list.length < cap) : (walk list cap).termination ≠ .iterationCap := by
  intro hstops
  unfold walk at hstops
  split at hstops
  · exact absurd hstops (by simp)
  · obtain ⟨visits, finish, htrail, -, hadvances, -, hlength⟩ :=
      exists_trail_of_walkFrom cap advances_nil (Or.inr hstops)
    have hle := htrail.length_le hloops rfl hadvances
    rw [hlength hstops] at hle
    exact Nat.not_lt_of_le hle hcap

end Straight

end Timing

/-- If a walk comes back to a command with no loop active, in a list with at most one loop, then
playback goes on for ever, and runs no wait or goto that is not annotated. In a list without loops a
walk that may visit more commands than there are stops for another reason than its cap. -/
theorem steadyState_plays_forever (player : Player) (hloops : player.list.loopCount ≤ 1)
    (timing : TimingConfig) :
    ((analyzeTiming player.list timing).termination = .steadyState →
      (∀ count, ∀ tick ∈ player.ticks count .initial, tick.outcome ≠ .ended) ∧
      ∀ count, ∀ execution ∈ player.executions count .initial,
        (∃ wait, execution.command = .wait wait) ∨ (∃ target, execution.command = .goto target) →
        ((analyzeTiming player.list timing).timeOf? execution.index).isSome = true) ∧
    (player.list.loopCount = 0 → player.list.length < timing.maxIterations →
      (analyzeTiming player.list timing).termination ≠ .iterationCap) := by
  rw [analyzeTiming_eq_ofWalk]
  refine ⟨fun hsteady ↦ ?_, fun hnone hcap ↦ Timing.termination_ne_iterationCap hnone hcap⟩
  obtain ⟨finish, hback⟩ := Timing.comesBack_of_steadyState hsteady
  exact ⟨fun _ _ htick ↦ hback.outcome_ne_ended hloops htick,
    fun _ _ hexecution htimed ↦ hback.isSome_annotations hloops hexecution htimed⟩

/-- A goto into a loop about a wait, and behind the loop a goto to its beginning. -/
def enteredLoop : CommandList :=
  ⟨[.goto ⟨1⟩, .label ⟨0⟩, .wait 2, .label ⟨1⟩, .loop ⟨0⟩ 1, .goto ⟨0⟩], ["A", "B"]⟩

/-- The walk comes back to a command that it has seen only while the loop was active. -/
theorem steadyState_plays_forever_seen_in_loop :
    enteredLoop.loopCount ≤ 1 ∧
    ∀ config count, ∀ tick ∈ (Player.mk enteredLoop.program (.anonymous 0 0 0) config).ticks count
      .initial, tick.outcome ≠ .ended := by
  have hloops : enteredLoop.loopCount ≤ 1 := by decide
  have hsteady : (analyzeTiming enteredLoop {}).termination = .steadyState := by decide +kernel
  refine ⟨hloops, fun config ↦ ?_⟩
  exact ((steadyState_plays_forever (Player.mk enteredLoop.program (.anonymous 0 0 0) config) hloops
    {}).1 hsteady).1

end SpriteBytecode
