import SpriteBytecode.Proofs.Timing.Simulation

/-!
Trails: visits of which each leads to the next. A walk that comes back to a command or reaches its
cap has gone along a trail (`exists_trail_of_walkFrom`), and a walk goes along every trail that never
comes back with no loop active, as far as its cap allows (`walkFrom_append_of_trail`). Playback goes
along every trail (`course_of_trail`).
-/

set_option autoImplicit false
set_option relaxedAutoImplicit false

namespace SpriteBytecode

namespace Timing

variable {list : CommandList}

/-! ### One visit -/

section Follow

variable {place? : LabelId → Option Nat} {target : LabelId} {destination : Nat}

theorem follow_goto_of_eq_some (h : place? target = some destination) (visit : Visit) :
    follow place? (.goto target) visit = some ⟨destination, visit.time, visit.repeats⟩ := by
  simp only [follow, h]

theorem follow_loop_of_eq_some (h : place? target = some destination) (count : Int16)
    (visit : Visit) :
    follow place? (.loop target count) visit =
      some ⟨if (nextRepeats visit.repeats count).isSome then destination else visit.position + 1,
        visit.time, nextRepeats visit.repeats count⟩ := by
  simp only [follow, h]
  rcases nextRepeats visit.repeats count with - | remaining <;> rfl

theorem exists_place_of_follow {command : Command} {visit there : Visit}
    (h : follow place? command visit = some there) (htarget : command.jumpTarget? = some target) :
    ∃ destination, place? target = some destination := by
  cases command with
  | goto | loop =>
    obtain rfl := Option.some.inj htarget
    refine Option.isSome_iff_exists.mp (Option.isSome_iff_ne_none.mpr fun hnone ↦ ?_)
    simp [follow, hnone] at h
  | _ => exact absurd htarget (by simp [Instruction.jumpTarget?])

end Follow

/-! ### Trails -/

/-- From `here` on, the visits lead one to the next, and the last one to `finish`. -/
inductive Trail (list : CommandList) : Visit → List Visit → Visit → Prop
  | done (here : Visit) : Trail list here [] here
  | visit {here there finish : Visit} {visits : List Visit} {command : Command}
      (hcommand : list.get? here.position = some command)
      (hfollow : follow list.findLabel? command here = some there)
      (hlater : Trail list there visits finish) :
      Trail list here (here :: visits) finish

/-- With no loop active, no visit is at a position that was visited before. -/
def Advances (visits : List Visit) : Prop :=
  visits.Pairwise fun earlier later ↦ later.repeats = none → earlier.position ≠ later.position

theorem advances_nil : Advances ([] : List Visit).reverse := List.Pairwise.nil

/-- When a walk stops for having come back. -/
theorem comesBack_iff {here : Visit} {visited : List Visit} :
    (here.repeats.isNone && visited.any (·.position == here.position)) = true ↔
      here.repeats = none ∧ ∃ visit ∈ visited, visit.position = here.position := by
  simp

namespace Trail

variable {here middle finish : Visit} {first second visits : List Visit}

theorem append (hfirst : Trail list here first middle) (hsecond : Trail list middle second finish) :
    Trail list here (first ++ second) finish := by
  induction hfirst with
  | done => exact hsecond
  | visit hcommand hfollow _ ih => exact .visit hcommand hfollow (ih hsecond)

/-- A trail begins where it starts from. -/
theorem head?_eq (h : Trail list here visits finish) :
    visits.head? = none ∨ visits.head? = some here := by
  cases h with
  | done => exact Or.inl rfl
  | visit => exact Or.inr rfl

theorem exists_follow (h : Trail list here visits finish) {visit : Visit} (hvisit : visit ∈ visits) :
    ∃ command there, list.get? visit.position = some command ∧
      follow list.findLabel? command visit = some there ∧ (there ∈ visits ∨ there = finish) := by
  induction h with
  | done => exact absurd hvisit List.not_mem_nil
  | visit hcommand hfollow hlater ih =>
    rcases List.mem_cons.mp hvisit with rfl | hmem
    · refine ⟨_, _, hcommand, hfollow, ?_⟩
      cases hlater with
      | done => exact Or.inr rfl
      | visit => exact Or.inl (List.mem_cons_of_mem _ List.mem_cons_self)
    · obtain ⟨command, there, hget, hthere, hnext⟩ := ih hmem
      exact ⟨command, there, hget, hthere, hnext.imp_left (List.mem_cons_of_mem _)⟩

end Trail

/-! ### Trails and walks -/

/-- What a walk visits until it comes back or reaches its cap is a trail that advances. -/
theorem exists_trail_of_walkFrom (cap : Nat) :
    ∀ {here : Visit} {visited : List Visit}, Advances visited.reverse →
      (walkFrom list cap here visited).termination = .steadyState ∨
        (walkFrom list cap here visited).termination = .iterationCap →
      ∃ visits finish, Trail list here visits finish ∧
        (walkFrom list cap here visited).visits = visited.reverse ++ visits ∧
        Advances (visited.reverse ++ visits) ∧
        ((walkFrom list cap here visited).termination = .steadyState →
          finish.repeats = none ∧
            ∃ visit ∈ visited.reverse ++ visits, visit.position = finish.position) ∧
        ((walkFrom list cap here visited).termination = .iterationCap → visits.length = cap) := by
  induction cap with
  | zero =>
    intro here visited hvisited hstops
    unfold walkFrom at hstops ⊢
    rcases hget : list.get? here.position with - | command
    · simp [hget] at hstops
    · exact ⟨[], here, .done _, (List.append_nil _).symm, by rwa [List.append_nil],
        fun h ↦ absurd h (by simp), fun _ ↦ rfl⟩
  | succ cap ih =>
    intro here visited hvisited hstops
    unfold walkFrom at hstops ⊢
    rcases hget : list.get? here.position with - | command
    · simp [hget] at hstops
    simp only [hget] at hstops ⊢
    by_cases hback : (here.repeats.isNone && visited.any (·.position == here.position)) = true
    · simp only [hback, if_true] at hstops ⊢
      obtain ⟨hnone, visit, hvisit, hposition⟩ := comesBack_iff.mp hback
      refine ⟨[], here, .done _, (List.append_nil _).symm, by rwa [List.append_nil], fun _ ↦ ?_,
        fun h ↦ absurd h (by simp)⟩
      rw [List.append_nil]
      exact ⟨hnone, visit, List.mem_reverse.mpr hvisit, hposition⟩
    · simp only [hback] at hstops ⊢
      rcases hfollow : follow list.findLabel? command here with - | there
      · simp [hfollow] at hstops
      simp only [hfollow] at hstops ⊢
      have hadvances : Advances (here :: visited).reverse := by
        rw [List.reverse_cons, Advances, List.pairwise_append]
        refine ⟨hvisited, List.pairwise_singleton _ _, ?_⟩
        intro earlier hearlier later hlater hnone hsame
        obtain rfl := List.mem_singleton.mp hlater
        exact hback (comesBack_iff.mpr ⟨hnone, earlier, List.mem_reverse.mp hearlier, hsame⟩)
      obtain ⟨visits, finish, htrail, hvisits, hwhole, hsteady, hcap⟩ := ih hadvances hstops
      rw [List.reverse_cons, List.append_assoc, List.singleton_append] at hvisits hwhole hsteady
      exact ⟨here :: visits, finish, .visit hget hfollow htrail, hvisits, hwhole, hsteady,
        fun h ↦ congrArg (· + 1) (hcap h)⟩

/-- A walk goes along a trail that advances, and then on from where it leads. -/
theorem walkFrom_append_of_trail {here finish : Visit} {visits : List Visit}
    (h : Trail list here visits finish) (cap : Nat) :
    ∀ visited : List Visit, Advances (visited.reverse ++ visits) →
      walkFrom list (visits.length + cap) here visited =
        walkFrom list cap finish (visits.reverse ++ visited) := by
  induction h with
  | done here =>
    intro visited _
    rw [List.length_nil, Nat.zero_add]
    rfl
  | @visit here there finish visits command hcommand hfollow _ ih =>
    intro visited hadvances
    have hforth : ¬ (here.repeats.isNone && visited.any (·.position == here.position)) = true := by
      intro hback
      obtain ⟨hnone, visit, hvisit, hposition⟩ := comesBack_iff.mp hback
      exact (List.pairwise_append.mp hadvances).2.2 visit (List.mem_reverse.mpr hvisit) here
        List.mem_cons_self hnone hposition
    rw [← List.singleton_append, ← List.append_assoc, ← List.reverse_cons] at hadvances
    have hvisits : (here :: visits).reverse ++ visited = visits.reverse ++ here :: visited := by
      rw [List.reverse_cons, List.append_assoc, List.singleton_append]
    rw [hvisits, ← ih (here :: visited) hadvances, List.length_cons, Nat.succ_add, walkFrom,
      hcommand]
    dsimp only
    rw [if_neg hforth, hfollow]

/-- A walk goes along a trail to the end of the list that advances. -/
theorem walkFrom_of_trail {here finish : Visit} {visits : List Visit}
    (h : Trail list here visits finish) (hend : list.get? finish.position = none) {cap : Nat}
    (visited : List Visit) (hcap : visits.length ≤ cap)
    (hadvances : Advances (visited.reverse ++ visits)) :
    walkFrom list cap here visited = ⟨visited.reverse ++ visits, finish.time, .endOfList⟩ := by
  obtain ⟨left, rfl⟩ := Nat.exists_eq_add_of_le hcap
  rw [walkFrom_append_of_trail h left visited hadvances, walkFrom.eq_def, hend,
    List.reverse_append, List.reverse_reverse]

theorem walk_of_trail {finish : Visit} {visits : List Visit}
    (h : Trail list start visits finish) (hend : list.get? finish.position = none)
    (hadvances : Advances visits) {cap : Nat} (hcap : visits.length ≤ cap) :
    (walk list cap).total = finish.time ∧
      (list.commands ≠ [] → (walk list cap).termination = .endOfList) := by
  unfold walk
  by_cases hempty : list.commands = []
  · rw [if_pos (List.isEmpty_iff.mpr hempty)]
    refine ⟨?_, fun hne ↦ absurd hempty hne⟩
    cases h with
    | done => rfl
    | visit hcommand =>
      rw [CommandList.get?, hempty] at hcommand
      exact absurd hcommand (by simp)
  · rw [if_neg (mt List.isEmpty_iff.mp hempty), walkFrom_of_trail h hend [] hcap hadvances]
    exact ⟨rfl, fun _ ↦ rfl⟩

/-! ### Trails and playback -/

/-- Playback goes along every trail. -/
theorem course_of_trail (player : Player) {here finish : Visit} {visits : List Visit}
    (h : Trail player.list here visits finish) :
    ∀ state : AnimationState, state.delay = 0 → .ofState state = here →
      ∃ before last, player.Course state before last ∧ before.map Visit.ofState = visits ∧
        .ofState last = finish := by
  induction h with
  | done here =>
    intro state _ hstate
    exact ⟨[], state, .done _, rfl, hstate⟩
  | visit hcommand hfollow _ ih =>
    intro state hdelay hstate
    obtain rfl := hstate
    obtain ⟨before, last, hcourse, hvisits, hlast⟩ :=
      ih _ (AnimationState.delay_settled _) (follow_ofState hdelay hfollow).symm
    exact ⟨state :: before, last, .run hcommand hcourse, congrArg (_ :: ·) hvisits, hlast⟩

section ToTheEnd

variable {player : Player} {finish : Visit} {visits : List Visit}
  (h : Trail player.list start visits finish) (hend : player.list.get? finish.position = none)

include h hend

/-- Where a trail comes to the end of the list, what has run is the beginning of it. -/
theorem map_ofExecution_prefix (count : Nat) :
    (player.executions count .initial).map Visit.ofExecution <+: visits := by
  obtain ⟨before, last, hcourse, rfl, rfl⟩ := course_of_trail player h .initial rfl rfl
  have hticks := (player.course_ticks count .initial).1
  obtain ⟨rest, rfl, -⟩ := hticks.split hcourse (hcourse.length_le_of_get?_eq_none hend hticks)
  rw [player.map_ofExecution, List.map_append]
  exact List.prefix_append _ _

theorem exists_ended_of_trail (hcap : 1 ≤ player.config.maxIterations) :
    ∃ count, ∃ tick ∈ player.ticks count .initial, tick.outcome = .ended := by
  obtain ⟨before, last, hcourse, -, rfl⟩ := course_of_trail player h .initial rfl rfl
  rw [← AnimationState.settled_initial] at hcourse
  exact player.exists_ended_of_course hcap hcourse hend

/-- When playback has ended, all of the trail has run, in the time that it takes. -/
theorem indices_of_ended {count : Nat} {tick : Tick} (htick : tick ∈ player.ticks count .initial)
    (hended : tick.outcome = .ended) :
    player.indices count .initial = visits.map Visit.position ∧
      tick.state.waited = finish.time := by
  obtain ⟨before, last, hcourse, rfl, rfl⟩ := course_of_trail player h .initial rfl rfl
  obtain ⟨hbefore, hlast⟩ := player.eq_course_of_ended hcourse hend htick hended
  constructor
  · rw [player.indices_eq, hbefore, List.map_map]
    rfl
  · rw [← AnimationState.waited_settled, hlast]
    rfl

end ToTheEnd

end Timing

end SpriteBytecode
