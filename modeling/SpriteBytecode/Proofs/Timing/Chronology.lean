import SpriteBytecode.Proofs.CommandList.Place
import SpriteBytecode.Proofs.Timing.Recurrence

/-!
Times along a walk, and what a larger cap adds to them. A walk stays within its list
(`unguardedWalkFrom_eq`), and elapsed time does not go back along it: what it has visited is over
when it stops (`chronological_walkFrom`). With a larger cap it is the same walk if it had stopped
for another reason, and else it goes on where it stopped (`extends_walkFrom`), so that annotations
can only be added and grow (`exists_annotation_of_mem`).
-/

set_option autoImplicit false
set_option relaxedAutoImplicit false

namespace SpriteBytecode

namespace Timing

variable {list : CommandList}

/-! ### One visit -/

section Follow

variable {command : Command} {visit there : Visit}

theorem lt_length_of_findLabel? {id : LabelId} {place : Nat}
    (h : list.findLabel? id = some place) : place < list.length :=
  lt_length_of_get? (get?_of_findLabel? h)

/-- A visit leads to a command of the list or right behind the last one. -/
theorem position_le_of_follow (hcommand : list.get? visit.position = some command)
    (h : follow list.findLabel? command visit = some there) : there.position ≤ list.length := by
  have hnext : visit.position + 1 ≤ list.length := lt_length_of_get? hcommand
  cases command with
  | goto target =>
    obtain ⟨destination, hplace⟩ := exists_place_of_follow h rfl
    rw [follow_goto_of_eq_some hplace] at h
    obtain rfl := Option.some.inj h
    exact Nat.le_of_lt (lt_length_of_findLabel? hplace)
  | loop target count =>
    obtain ⟨destination, hplace⟩ := exists_place_of_follow h rfl
    rw [follow_loop_of_eq_some hplace] at h
    obtain rfl := Option.some.inj h
    dsimp only
    split
    · exact Nat.le_of_lt (lt_length_of_findLabel? hplace)
    · exact hnext
  | _ =>
    obtain rfl := Option.some.inj h
    exact hnext

/-- Where a visit leads, the time of a wait has passed, and no time of other commands. -/
theorem time_of_follow {place? : LabelId → Option Nat}
    (h : follow place? command visit = some there) :
    there.time = (command.effectiveWait?.map (elapse visit.time)).getD visit.time := by
  cases command with
  | goto target =>
    obtain ⟨destination, hplace⟩ := exists_place_of_follow h rfl
    rw [follow_goto_of_eq_some hplace] at h
    obtain rfl := Option.some.inj h
    rfl
  | loop target count =>
    obtain ⟨destination, hplace⟩ := exists_place_of_follow h rfl
    rw [follow_loop_of_eq_some hplace] at h
    obtain rfl := Option.some.inj h
    rfl
  | _ =>
    obtain rfl := Option.some.inj h
    rfl

theorem le_time_of_follow {place? : LabelId → Option Nat}
    (h : follow place? command visit = some there) (hbound : visit.time ≤ maxElapsed) :
    visit.time ≤ there.time ∧ there.time ≤ maxElapsed := by
  rw [time_of_follow h]
  cases command.effectiveWait? with
  | none => exact ⟨Nat.le_refl _, hbound⟩
  | some wait =>
    show visit.time ≤ elapse visit.time wait ∧ elapse visit.time wait ≤ maxElapsed
    unfold elapse
    omega

end Follow

/-! ### Within the list -/

/-- A walk without a guard: it looks for the end of the list only where it goes on behind a command,
and it takes it for granted that a command stands at every other position. It fails where none
does. -/
def unguardedWalkFrom (list : CommandList) : Nat → Visit → List Visit → Option Walk
  | 0, here, visited => some ⟨visited.reverse, here.time, .iterationCap⟩
  | cap + 1, here, visited =>
    match list.get? here.position with
    | none => none
    | some command =>
      if here.repeats.isNone && visited.any (·.position == here.position) then
        some ⟨visited.reverse, here.time, .steadyState⟩
      else
        match follow list.findLabel? command here with
        | none => some ⟨(here :: visited).reverse, here.time, .missingLabel⟩
        | some there =>
          if there.position = list.length ∧
              command.jumpTarget?.bind list.findLabel? ≠ some there.position then
            some ⟨(here :: visited).reverse, there.time, .endOfList⟩
          else unguardedWalkFrom list cap there (here :: visited)

def unguardedWalk (list : CommandList) (cap : Nat) : Option Walk :=
  if list.commands.isEmpty then some ⟨[], 0, .empty⟩ else unguardedWalkFrom list cap start []

theorem unguardedWalkFrom_eq (cap : Nat) (here : Visit) (visited : List Visit)
    (hwithin : here.position < list.length) :
    unguardedWalkFrom list cap here visited = some (walkFrom list cap here visited) := by
  fun_induction walkFrom list cap here visited with
  | case1 cap here visited hget =>
    exact absurd (List.getElem?_eq_none_iff.mp hget) (Nat.not_le_of_lt hwithin)
  | case2 => rfl
  | case3 here visited command hget cap hback =>
    unfold unguardedWalkFrom
    simp only [hget, if_pos hback]
  | case4 here visited command hget cap hforth hfollow =>
    unfold unguardedWalkFrom
    simp only [hget, if_neg hforth, hfollow]
  | case5 here visited command hget cap hforth there hfollow ih =>
    unfold unguardedWalkFrom
    simp only [hget, if_neg hforth, hfollow]
    rcases Nat.eq_or_lt_of_le (position_le_of_follow hget hfollow) with hend | hinside
    · have hbehind : command.jumpTarget?.bind list.findLabel? ≠ some there.position := by
        intro hjump
        obtain ⟨target, -, hplace⟩ := Option.bind_eq_some_iff.mp hjump
        exact absurd hend (Nat.ne_of_lt (lt_length_of_findLabel? hplace))
      have hnone : list.get? there.position = none :=
        List.getElem?_eq_none_iff.mpr (Nat.le_of_eq hend.symm)
      rw [if_pos ⟨hend, hbehind⟩, walkFrom, hnone]
    · rw [if_neg fun h ↦ Nat.ne_of_lt hinside h.1]
      exact ih hinside

theorem unguardedWalk_eq (list : CommandList) (cap : Nat) :
    unguardedWalk list cap = some (walk list cap) := by
  unfold unguardedWalk walk
  split
  · rfl
  · next hempty =>
    exact unguardedWalkFrom_eq cap start []
      (List.length_pos_iff.mpr (mt List.isEmpty_iff.mpr hempty))

/-! ### The order of times -/

/-- Visits in the order of their times, all of them over now. -/
structure Chronological (list : CommandList) (visits : List Visit) (now : Nat) : Prop where
  ordered : visits.Pairwise fun earlier later ↦ earlier.time ≤ later.time
  passed : ∀ visit ∈ visits, visit.time ≤ now
  waited : ∀ visit ∈ visits, ∀ count, list.get? visit.position = some (.wait count) →
    elapse visit.time (waitTime count) ≤ now

theorem chronological_nil (list : CommandList) (now : Nat) : Chronological list [] now :=
  ⟨List.Pairwise.nil, fun _ h ↦ absurd h List.not_mem_nil, fun _ h ↦ absurd h List.not_mem_nil⟩

/-- A visit that is over comes behind the others. -/
theorem Chronological.concat {visits : List Visit} {here : Visit} {now : Nat}
    (h : Chronological list visits here.time) (hnow : here.time ≤ now)
    (hwait : ∀ count, list.get? here.position = some (.wait count) →
      elapse here.time (waitTime count) ≤ now) :
    Chronological list (visits ++ [here]) now where
  ordered := by
    refine List.pairwise_append.mpr ⟨h.ordered, List.pairwise_singleton _ _, ?_⟩
    intro earlier hearlier later hlater
    obtain rfl := List.mem_singleton.mp hlater
    exact h.passed earlier hearlier
  passed := by
    rw [List.forall_mem_append, List.forall_mem_singleton]
    exact ⟨fun visit hvisit ↦ Nat.le_trans (h.passed visit hvisit) hnow, hnow⟩
  waited := by
    rw [List.forall_mem_append, List.forall_mem_singleton]
    exact ⟨fun visit hvisit count hget ↦ Nat.le_trans (h.waited visit hvisit count hget) hnow,
      hwait⟩

theorem Chronological.visit {visited : List Visit} {here there : Visit} {command : Command}
    (h : Chronological list visited.reverse here.time)
    (hget : list.get? here.position = some command)
    (hfollow : follow list.findLabel? command here = some there)
    (hbound : here.time ≤ maxElapsed) :
    Chronological list (here :: visited).reverse there.time := by
  rw [List.reverse_cons]
  refine h.concat (le_time_of_follow hfollow hbound).1 fun count hwait ↦ ?_
  obtain rfl := Option.some.inj (hget.symm.trans hwait)
  exact Nat.le_of_eq (time_of_follow hfollow).symm

/-- What a walk has visited is in order and over when it stops, and it stops no earlier than it
goes on. -/
theorem chronological_walkFrom (cap : Nat) (here : Visit) (visited : List Visit)
    (hbound : here.time ≤ maxElapsed) (hvisited : Chronological list visited.reverse here.time) :
    Chronological list (walkFrom list cap here visited).visits
        (walkFrom list cap here visited).total ∧
      here.time ≤ (walkFrom list cap here visited).total := by
  fun_induction walkFrom list cap here visited with
  | case1 | case2 | case3 => exact ⟨hvisited, Nat.le_refl _⟩
  | case4 here visited command hget cap hforth hfollow =>
    rw [List.reverse_cons]
    refine ⟨hvisited.concat (Nat.le_refl _) fun count hwait ↦ ?_, Nat.le_refl _⟩
    obtain rfl := Option.some.inj (hget.symm.trans hwait)
    exact absurd hfollow (by simp [follow])
  | case5 here visited command hget cap hforth there hfollow ih =>
    obtain ⟨hle, hthere⟩ := le_time_of_follow hfollow hbound
    obtain ⟨hwalk, htotal⟩ := ih hthere (hvisited.visit hget hfollow hbound)
    exact ⟨hwalk, Nat.le_trans hle htotal⟩

theorem chronological_walk (list : CommandList) (cap : Nat) :
    Chronological list (walk list cap).visits (walk list cap).total := by
  unfold walk
  split
  · exact chronological_nil list 0
  · exact (chronological_walkFrom cap start [] (Nat.zero_le _) (chronological_nil list 0)).1

/-! ### A larger cap -/

/-- A walk that had not reached its cap is the same, and one that had goes on. -/
structure Extends (longer shorter : Walk) : Prop where
  same : shorter.termination ≠ .iterationCap → longer = shorter
  visits : shorter.visits <+: longer.visits
  total : shorter.total ≤ longer.total

theorem Extends.refl (walk : Walk) : Extends walk walk :=
  ⟨fun _ ↦ rfl, List.prefix_refl _, Nat.le_refl _⟩

theorem prefix_walkFrom (cap : Nat) (here : Visit) (visited : List Visit) :
    visited.reverse <+: (walkFrom list cap here visited).visits := by
  fun_induction walkFrom list cap here visited with
  | case1 | case2 | case3 => exact List.prefix_refl _
  | case4 =>
    rw [List.reverse_cons]
    exact List.prefix_append _ _
  | case5 here visited command hget cap hforth there hfollow ih =>
    rw [List.reverse_cons] at ih
    exact (List.prefix_append _ _).trans ih

theorem extends_walkFrom {cap larger : Nat} (hle : cap ≤ larger) (here : Visit)
    (visited : List Visit) (hbound : here.time ≤ maxElapsed)
    (hvisited : Chronological list visited.reverse here.time) :
    Extends (walkFrom list larger here visited) (walkFrom list cap here visited) := by
  fun_induction walkFrom list cap here visited generalizing larger with
  | case1 cap here visited hget =>
    unfold walkFrom
    rw [hget]
    exact .refl _
  | case2 here visited command hget =>
    exact ⟨fun h ↦ absurd rfl h, prefix_walkFrom larger here visited,
      (chronological_walkFrom larger here visited hbound hvisited).2⟩
  | case3 here visited command hget cap hback =>
    obtain ⟨larger, rfl⟩ := Nat.exists_eq_add_of_le' (Nat.le_trans (Nat.succ_pos _) hle)
    unfold walkFrom
    simp only [hget, if_pos hback]
    exact .refl _
  | case4 here visited command hget cap hforth hfollow =>
    obtain ⟨larger, rfl⟩ := Nat.exists_eq_add_of_le' (Nat.le_trans (Nat.succ_pos _) hle)
    unfold walkFrom
    simp only [hget, if_neg hforth, hfollow]
    exact .refl _
  | case5 here visited command hget cap hforth there hfollow ih =>
    obtain ⟨larger, rfl⟩ := Nat.exists_eq_add_of_le' (Nat.le_trans (Nat.succ_pos _) hle)
    rw [walkFrom]
    simp only [hget, if_neg hforth, hfollow]
    exact ih (Nat.le_of_succ_le_succ hle) (le_time_of_follow hfollow hbound).2
      (hvisited.visit hget hfollow hbound)

theorem extends_walk (list : CommandList) {cap larger : Nat} (hle : cap ≤ larger) :
    Extends (walk list larger) (walk list cap) := by
  unfold walk
  split
  · exact .refl _
  · exact extends_walkFrom hle start [] (Nat.zero_le _) (chronological_nil list 0)

/-! ### Annotations -/

theorem kind_of_isAnnotated {visit : Visit} (h : isAnnotated list visit = true) :
    (∃ target, list.get? visit.position = some (.goto target)) ∨
      ∃ count, list.get? visit.position = some (.wait count) := by
  rcases hget : list.get? visit.position with - | command
  · rw [isAnnotated, hget] at h
    exact Bool.noConfusion h
  · rw [isAnnotated, hget] at h
    cases command with
    | goto target => exact Or.inl ⟨target, rfl⟩
    | wait count => exact Or.inr ⟨count, rfl⟩
    | _ => exact Bool.noConfusion h

/-- The annotation of a command that has been visited is not older than the visit. -/
theorem exists_annotation_of_mem {visits : List Visit} {now : Nat}
    (h : Chronological list visits now) {visit : Visit} (hvisit : visit ∈ visits)
    (hannotated : isAnnotated list visit = true) :
    ∃ time, (annotations list visits)[visit.position]?.join = some time ∧ visit.time ≤ time := by
  obtain ⟨time, htime⟩ :=
    Option.isSome_iff_exists.mp (isSome_annotations_of_mem hvisit hannotated)
  obtain ⟨front, last, back, rfl, -, -, rfl, hback⟩ := exists_visit_of_annotations htime
  refine ⟨last.time, htime, ?_⟩
  rcases List.mem_append.mp hvisit with hfront | hlast
  · exact (List.pairwise_append.mp h.ordered).2.2 visit hfront last List.mem_cons_self
  · rcases List.mem_cons.mp hlast with rfl | hlater
    · exact Nat.le_refl _
    · exact absurd rfl (hback visit hlater)

end Timing

/-- What holds of every report on a list. Times that a wait would carry beyond the bound of elapsed
time count as the bound. -/
structure TimingReport.WellTimed (list : CommandList) (report : TimingReport) : Prop where
  length : report.times.length = list.length
  kind : ∀ index time, report.timeOf? index = some time →
    (∃ target, list.get? index = some (.goto target)) ∨
      ∃ count, list.get? index = some (.wait count)
  goto : ∀ index time target, report.timeOf? index = some time →
    list.get? index = some (.goto target) → time ≤ report.total
  wait : ∀ index time count, report.timeOf? index = some time →
    list.get? index = some (.wait count) →
    min (time + (waitTime count).toNat) maxElapsed ≤ report.total

theorem TimingReport.wellTimed_ofWalk {list : CommandList} {walk : Walk}
    (h : Timing.Chronological list walk.visits walk.total) :
    (TimingReport.ofWalk list walk).WellTimed list where
  length := Timing.length_annotations list walk.visits
  kind index time htime := by
    obtain ⟨front, visit, back, -, hannotated, rfl, -⟩ := Timing.exists_visit_of_annotations htime
    exact Timing.kind_of_isAnnotated hannotated
  goto index time target htime _ := by
    obtain ⟨front, visit, back, hvisits, -, -, rfl, -⟩ := Timing.exists_visit_of_annotations htime
    exact h.passed visit (by simp [hvisits])
  wait index time count htime hwait := by
    obtain ⟨front, visit, back, hvisits, -, rfl, rfl, -⟩ :=
      Timing.exists_visit_of_annotations htime
    exact h.waited visit (by simp [hvisits]) count hwait

/-- A walk never looks for a command where none stands. Its report has a place for every command and
times only for waits and gotos, which are over at its total. With a larger cap the report is the
same unless the cap had been reached; then the total is not smaller, and every time is there again
and not smaller. -/
theorem report_grows_with_cap (list : CommandList) (timing larger : TimingConfig)
    (hle : timing.maxIterations ≤ larger.maxIterations) :
    (∃ walk, Timing.unguardedWalk list timing.maxIterations = some walk ∧
      analyzeTiming list timing = .ofWalk list walk) ∧
    (analyzeTiming list timing).WellTimed list ∧
    ((analyzeTiming list timing).termination ≠ .iterationCap →
      analyzeTiming list larger = analyzeTiming list timing) ∧
    ((analyzeTiming list timing).termination = .iterationCap →
      (analyzeTiming list timing).total ≤ (analyzeTiming list larger).total ∧
      ∀ index time, (analyzeTiming list timing).timeOf? index = some time →
        ∃ later, (analyzeTiming list larger).timeOf? index = some later ∧ time ≤ later) := by
  have hextends := Timing.extends_walk list hle
  simp only [analyzeTiming_eq_ofWalk]
  refine ⟨⟨_, Timing.unguardedWalk_eq list _, rfl⟩,
    TimingReport.wellTimed_ofWalk (Timing.chronological_walk list _),
    fun hstops ↦ congrArg (TimingReport.ofWalk list) (hextends.same hstops),
    fun _ ↦ ⟨hextends.total, fun index time htime ↦ ?_⟩⟩
  obtain ⟨front, visit, back, hvisits, hannotated, rfl, rfl, -⟩ :=
    Timing.exists_visit_of_annotations htime
  exact Timing.exists_annotation_of_mem (Timing.chronological_walk list larger.maxIterations)
    (hextends.visits.subset (by simp [hvisits])) hannotated

/-- A loop around a wait, at a marker that stands twice and belongs to another list. -/
def loopAtForeign : CommandList := ⟨[.label ⟨7⟩, .wait 2, .loop ⟨7⟩ 100, .label ⟨7⟩], []⟩

/-- The second run of the wait is the last one before the smaller cap. -/
theorem report_grows_with_cap_in_loop :
    5 ≤ 10 ∧ (analyzeTiming loopAtForeign ⟨5⟩).termination = .iterationCap ∧
    (analyzeTiming loopAtForeign ⟨5⟩).total ≤ (analyzeTiming loopAtForeign ⟨10⟩).total ∧
    ∃ later, (analyzeTiming loopAtForeign ⟨10⟩).timeOf? 1 = some later ∧ 2 ≤ later := by
  have hstops : (analyzeTiming loopAtForeign ⟨5⟩).termination = .iterationCap := by decide +kernel
  have htime : (analyzeTiming loopAtForeign ⟨5⟩).timeOf? 1 = some 2 := by decide +kernel
  have hcap : 5 ≤ 10 := by decide
  obtain ⟨htotal, hlater⟩ := (report_grows_with_cap loopAtForeign ⟨5⟩ ⟨10⟩ hcap).2.2.2 hstops
  exact ⟨hcap, hstops, htotal, hlater 1 2 htime⟩

end SpriteBytecode
