import SpriteBytecode.Proofs.CommandList.Block
import SpriteBytecode.Proofs.Timing.Trail

/-!
Trails through lists made of blocks. A stretch without jumps is gone through once
(`exists_trail_straight`), a loop that is active as often as its counter says (`exists_trail_active`),
and every block begins and ends with no loop active (`BlockAt.exists_trail`), so that a list of blocks
is gone through along their tour (`exists_trail_blocks`). Playback and the timing walk both go along
that trail.
-/

set_option autoImplicit false
set_option relaxedAutoImplicit false

namespace SpriteBytecode

/-- Time stops at the bound of elapsed time. -/
def capped (time : Nat) : Nat := min time maxElapsed

/-- The commands stand in the list, one after the other, the first of them at `start`. -/
def CommandList.Holds (list : CommandList) (start : Nat) (commands : List Command) : Prop :=
  ∀ place < commands.length, list.get? (start + place) = commands[place]?

namespace CommandList.Holds

variable {list : CommandList} {start : Nat} {command : Command} {front back : List Command}

theorem of_commands_eq (h : list.commands = front ++ back) : list.Holds front.length back := by
  intro place _
  rw [get?, h, List.getElem?_append_right (Nat.le_add_right _ _), Nat.add_sub_cancel_left]

theorem head (h : list.Holds start (command :: back)) : list.get? start = some command :=
  h 0 (Nat.succ_pos _)

theorem left (h : list.Holds start (front ++ back)) : list.Holds start front := by
  intro place hplace
  rw [h place (by rw [List.length_append]; omega), List.getElem?_append_left hplace]

theorem right (h : list.Holds start (front ++ back)) :
    list.Holds (start + front.length) back := by
  intro place hplace
  rw [Nat.add_assoc, h _ (by rw [List.length_append]; omega),
    List.getElem?_append_right (Nat.le_add_right _ _), Nat.add_sub_cancel_left]

theorem tail (h : list.Holds start (command :: back)) : list.Holds (start + 1) back :=
  right (show list.Holds start ([command] ++ back) from h)

end CommandList.Holds

namespace Timing

variable {list : CommandList}

theorem elapse_capped (time : Nat) (wait : UInt16) :
    elapse (capped time) wait = capped (time + wait.toNat) := by
  unfold elapse capped
  omega

theorem follow_of_not_jump {place? : LabelId → Option Nat} {command : Command}
    (h : command.jumpTarget? = none) (position time : Nat) (repeats : Option Int) :
    follow place? command ⟨position, capped time, repeats⟩ =
      some ⟨position + 1, capped (time + command.duration), repeats⟩ := by
  cases command with
  | wait count =>
    rw [follow, elapse_capped]
    rfl
  | goto | loop => exact absurd h (by simp [Instruction.jumpTarget?])
  | _ => rfl

/-- A stretch without jumps is gone through from its first command to its last. -/
theorem exists_trail_straight (repeats : Option Int) (commands : List Command) :
    ∀ start time, list.Holds start commands →
      (∀ command ∈ commands, command.jumpTarget? = none) →
      ∃ visits,
        Trail list ⟨start, capped time, repeats⟩ visits
          ⟨start + commands.length,
            capped (time + (commands.map Instruction.duration).sum), repeats⟩ ∧
        visits.map Visit.position = List.range' start commands.length ∧
        ∀ visit ∈ visits, visit.repeats = repeats := by
  induction commands with
  | nil => exact fun _ _ _ _ ↦ ⟨[], .done _, rfl, fun _ h ↦ absurd h List.not_mem_nil⟩
  | cons command rest ih =>
    intro start time hholds hstraight
    obtain ⟨hcommand, hrest⟩ := List.forall_mem_cons.mp hstraight
    obtain ⟨visits, htrail, hpositions, hrepeats⟩ :=
      ih (start + 1) (time + command.duration) hholds.tail hrest
    rw [Nat.add_right_comm, Nat.add_assoc start, Nat.add_assoc time] at htrail
    refine ⟨_ :: visits, .visit hholds.head (follow_of_not_jump hcommand _ _ _) htrail, ?_, ?_⟩
    · rw [List.map_cons, hpositions, List.length_cons, List.range'_succ]
    · exact List.forall_mem_cons.mpr ⟨rfl, hrepeats⟩

/-! ### One block -/

/-- The block stands at `start`: its body does not jump, and the label of its loop is found there. -/
structure BlockAt (list : CommandList) (start : Nat) (block : Block) : Prop where
  holds : list.Holds start block.commands
  straight : ∀ command ∈ block.body, command.jumpTarget? = none
  place : ∀ label ∈ block.label?, list.findLabel? label = some start

theorem nextRepeats_of_le {remaining : Int} (h : remaining ≤ 1) (count : Int16) :
    nextRepeats (some remaining) count = none :=
  if_neg (by omega)

theorem nextRepeats_of_lt {remaining : Int} (h : 1 < remaining) (count : Int16) :
    nextRepeats (some remaining) count = some (remaining - 1) :=
  if_pos (by omega)

section Loop

variable {start : Nat} {label : LabelId} {body : List Command} {count : Int16}

/-- One pass of a loop leads back to its start, or behind it when its counter is down. -/
theorem exists_trail_pass (h : BlockAt list start (.repeated label body count))
    (repeats : Option Int) (time : Nat) :
    ∃ visits,
      Trail list ⟨start, capped time, repeats⟩ visits
        ⟨if (nextRepeats repeats count).isSome then start
            else start + (Block.repeated label body count).commands.length,
          capped (time + (Block.repeated label body count).duration),
          nextRepeats repeats count⟩ ∧
      visits.map Visit.position =
        List.range' start (Block.repeated label body count).commands.length ∧
      ∀ visit ∈ visits, visit.repeats = repeats := by
  have hsplit : (Block.repeated label body count).commands =
      (.label label :: body) ++ [.loop label count] := rfl
  have hlength : (Block.repeated label body count).commands.length =
      (.label label :: body : List Command).length + 1 := by
    rw [hsplit, List.length_append, List.length_singleton]
  have hduration : (Block.repeated label body count).duration =
      ((.label label :: body : List Command).map Instruction.duration).sum := by
    rw [Block.duration, hsplit, List.map_append, List.sum_append]
    rfl
  have hholds := hsplit ▸ h.holds
  obtain ⟨visits, htrail, hpositions, hrepeats⟩ :=
    exists_trail_straight repeats (.label label :: body) start time hholds.left
      (List.forall_mem_cons.mpr ⟨rfl, h.straight⟩)
  rw [← hduration] at htrail
  rw [hlength, ← Nat.add_assoc]
  refine ⟨visits ++ [_], htrail.append (.visit hholds.right.head
    (follow_loop_of_eq_some (h.place label rfl) count _) (.done _)), ?_, ?_⟩
  · rw [List.map_append, hpositions, List.range'_1_concat]
    rfl
  · exact List.forall_mem_append.mpr ⟨hrepeats, List.forall_mem_singleton.mpr rfl⟩

/-- An active loop is passed as often as its counter says, and at least once. -/
theorem exists_trail_active (h : BlockAt list start (.repeated label body count)) (more : Nat) :
    ∀ (remaining : Int) (time : Nat), (max 1 remaining).toNat = more + 1 →
      ∃ visits,
        Trail list ⟨start, capped time, some remaining⟩ visits
          ⟨start + (Block.repeated label body count).commands.length,
            capped (time + (more + 1) * (Block.repeated label body count).duration), none⟩ ∧
        visits.map Visit.position =
          (List.replicate (more + 1)
            (List.range' start (Block.repeated label body count).commands.length)).flatten ∧
        ∀ visit ∈ visits, visit.repeats ≠ none := by
  induction more with
  | zero =>
    intro remaining time hremaining
    obtain ⟨visits, htrail, hpositions, hrepeats⟩ := exists_trail_pass h (some remaining) time
    rw [nextRepeats_of_le (by omega)] at htrail
    refine ⟨visits, ?_, ?_, fun visit hvisit ↦ by simp [hrepeats visit hvisit]⟩
    · rw [Nat.zero_add, Nat.one_mul]
      exact htrail
    · rw [hpositions, List.replicate_one, List.flatten_singleton]
  | succ more ih =>
    intro remaining time hremaining
    obtain ⟨visits, htrail, hpositions, hrepeats⟩ := exists_trail_pass h (some remaining) time
    rw [nextRepeats_of_lt (by omega)] at htrail
    obtain ⟨later, hlater, hpositions', hactive⟩ :=
      ih (remaining - 1) (time + (Block.repeated label body count).duration) (by omega)
    refine ⟨visits ++ later, htrail.append ?_, ?_, ?_⟩
    · rw [Nat.succ_mul (more + 1), Nat.add_comm (_ * _), ← Nat.add_assoc]
      exact hlater
    · rw [List.map_append, hpositions, hpositions']
      rfl
    · intro visit hvisit
      rcases List.mem_append.mp hvisit with hmem | hmem
      · simp [hrepeats visit hmem]
      · exact hactive visit hmem

end Loop

theorem advances_of_nodup {visits : List Visit} (h : (visits.map Visit.position).Nodup) :
    Advances visits := by
  rw [List.Nodup, List.pairwise_map] at h
  apply h.imp
  intro earlier later hne _
  exact hne

/-- A loop may come back while it is active. -/
theorem Advances.append_active {first second : List Visit} (h : Advances first)
    (hactive : ∀ visit ∈ second, visit.repeats ≠ none) : Advances (first ++ second) := by
  refine List.pairwise_append.mpr ⟨h, ?_, fun _ _ later hlater hnone ↦ ?_⟩
  · exact List.pairwise_of_forall_mem_list fun _ _ later hlater hnone ↦
      absurd hnone (hactive later hlater)
  · exact absurd hnone (hactive later hlater)

/-- A block is gone through with no loop active before and after it, its commands as often as it
says. -/
theorem BlockAt.exists_trail {start : Nat} {block : Block} (h : BlockAt list start block)
    (time : Nat) :
    ∃ visits,
      Trail list ⟨start, capped time, none⟩ visits
        ⟨start + block.commands.length, capped (time + block.passes * block.duration), none⟩ ∧
      visits.map Visit.position =
        (List.replicate block.passes (List.range' start block.commands.length)).flatten ∧
      Advances visits := by
  cases block with
  | plain body =>
    obtain ⟨visits, htrail, hpositions, -⟩ :=
      exists_trail_straight none body start time h.holds h.straight
    refine ⟨visits, ?_, ?_, advances_of_nodup (hpositions ▸ List.nodup_range')⟩
    · rw [Block.passes, Nat.one_mul]
      exact htrail
    · rw [hpositions, Block.passes, List.replicate_one, List.flatten_singleton]
      rfl
  | repeated label body count =>
    obtain ⟨more, hmore⟩ : ∃ more, (max 1 count.toInt).toNat = more + 1 :=
      Nat.exists_eq_add_of_le' (by omega)
    obtain ⟨first, hfirst, hpositions, -⟩ := exists_trail_pass h none time
    obtain ⟨later, hlater, hpositions', hactive⟩ := exists_trail_active h more count.toInt
      (time + (Block.repeated label body count).duration) hmore
    have hadvances : Advances first := advances_of_nodup (hpositions ▸ List.nodup_range')
    refine ⟨first ++ later, hfirst.append ?_, ?_, hadvances.append_active hactive⟩
    · rw [Block.passes, hmore, Nat.add_mul, Nat.one_mul, ← Nat.add_assoc]
      exact hlater
    · rw [List.map_append, hpositions, hpositions', Block.passes, hmore, Nat.add_comm 1]
      rfl

/-! ### Many blocks -/

section Blocks

variable {blocks : List Block}

theorem blockAt_of_madeOf (h : list.MadeOf blocks) {front back : List Block} {block : Block}
    (hsplit : blocks = front ++ block :: back) : BlockAt list (Block.size front) block := by
  have hmem : block ∈ blocks := hsplit ▸ List.mem_append_right _ List.mem_cons_self
  have hholds : list.Holds (Block.size front) block.commands := by
    have hcommands : list.commands = front.flatMap Block.commands ++
        (block.commands ++ back.flatMap Block.commands) := by
      rw [h.commands, hsplit, List.flatMap_append, List.flatMap_cons]
    exact (CommandList.Holds.of_commands_eq hcommands).left
  refine ⟨hholds, h.straight block hmem, fun label hlabel ↦ ?_⟩
  refine findLabel?_of_count (h.once block hmem label hlabel) ?_
  cases block with
  | plain body => exact absurd hlabel (by simp [Block.label?])
  | repeated other body count =>
    obtain rfl := Option.some.inj hlabel
    exact hholds.head

/-- Blocks in the list are gone through along their tour. -/
theorem exists_trail_blocks (h : list.MadeOf blocks) (middle : List Block) :
    ∀ (front back : List Block) (time : Nat), blocks = front ++ (middle ++ back) →
      ∃ visits,
        Trail list ⟨Block.size front, capped time, none⟩ visits
          ⟨Block.size front + Block.size middle, capped (time + Block.playTime middle), none⟩ ∧
        visits.map Visit.position = Block.tour (Block.size front) middle ∧
        Advances visits := by
  induction middle with
  | nil => exact fun _ _ _ _ ↦ ⟨[], .done _, rfl, List.Pairwise.nil⟩
  | cons block rest ih =>
    intro front back time hsplit
    obtain ⟨first, hfirst, hpositions, hadvances⟩ := (blockAt_of_madeOf h hsplit).exists_trail time
    obtain ⟨later, hlater, hpositions', hadvances'⟩ :=
      ih (front ++ [block]) back (time + block.passes * block.duration) (by simp [hsplit])
    have hsize : Block.size (front ++ [block]) = Block.size front + block.commands.length := by
      simp [Block.size]
    rw [hsize] at hlater hpositions'
    refine ⟨first ++ later, hfirst.append ?_, ?_, ?_⟩
    · rw [Block.size_cons, ← Nat.add_assoc, Block.playTime, List.map_cons, List.sum_cons,
        ← Nat.add_assoc]
      exact hlater
    · rw [List.map_append, hpositions, hpositions']
      rfl
    · refine List.pairwise_append.mpr ⟨hadvances, hadvances', ?_⟩
      intro earlier hearlier visit hvisit _
      have hbefore := Block.mem_flatten_replicate_range'
        (hpositions ▸ List.mem_map_of_mem (f := Visit.position) hearlier)
      have hbehind := Block.mem_tour
        (hpositions' ▸ List.mem_map_of_mem (f := Visit.position) hvisit)
      omega

theorem size_eq_length (h : list.MadeOf blocks) : Block.size blocks = list.length := by
  rw [CommandList.length, h.commands, Block.size]

/-- The tour of all blocks is a trail to the end of the list. -/
theorem exists_trail_tour (h : list.MadeOf blocks) :
    ∃ visits, Trail list start visits ⟨list.length, capped (Block.playTime blocks), none⟩ ∧
      visits.map Visit.position = Block.tour 0 blocks ∧ Advances visits := by
  obtain ⟨visits, htrail, hvisits⟩ := exists_trail_blocks h blocks [] [] 0 (by simp)
  rw [show Block.size [] = 0 from rfl, Nat.zero_add, Nat.zero_add, size_eq_length h] at htrail
  exact ⟨visits, htrail, hvisits⟩

/-- When a block is come to for the first time, no loop is active. -/
theorem exists_trail_first (h : list.MadeOf blocks) {front back : List Block}
    (hsplit : blocks = front ++ back) :
    ∃ visits finish, Trail list start visits finish ∧ list.get? finish.position = none ∧
      ∀ visit, visits.find? (·.position == Block.size front) = some visit →
        visit.repeats = none := by
  obtain ⟨first, hfirst, hpositions, -⟩ := exists_trail_blocks h front [] back 0 hsplit
  obtain ⟨second, hsecond, -⟩ :=
    exists_trail_blocks h back front [] (Block.playTime front) (by simpa using hsplit)
  rw [show Block.size [] = 0 from rfl] at hfirst hpositions
  rw [Nat.zero_add, Nat.zero_add] at hfirst
  refine ⟨first ++ second, _, hfirst.append hsecond, ?_, ?_⟩
  · rw [← Block.size_append, ← hsplit, size_eq_length h]
    exact List.getElem?_eq_none (Nat.le_refl _)
  · intro visit hvisit
    have hnone : first.find? (·.position == Block.size front) = none := by
      rw [List.find?_eq_none]
      intro earlier hearlier hposition
      have := Block.mem_tour (hpositions ▸ List.mem_map_of_mem (f := Visit.position) hearlier)
      rw [beq_iff_eq] at hposition
      omega
    rw [List.find?_append, hnone, Option.none_or] at hvisit
    rcases hsecond.head?_eq with hempty | hhead
    · rw [List.head?_eq_none_iff.mp hempty] at hvisit
      exact absurd hvisit (by simp)
    · obtain ⟨rest, rfl⟩ := List.head?_eq_some_iff.mp hhead
      rw [List.find?_cons, beq_self_eq_true] at hvisit
      obtain rfl := Option.some.inj hvisit
      rfl

end Blocks

end Timing

/-- In a list made of blocks, every command runs as often as its block says before playback ends, in
the time that the blocks take, and every block begins with no loop active. The timing walk comes to
the end of the list in the same time. -/
theorem blocks_run_weighted (player : Player) (hcap : 1 ≤ player.config.maxIterations)
    (blocks : List Block) (h : player.list.MadeOf blocks) :
    (∃ count, ∃ tick ∈ player.ticks count .initial, tick.outcome = .ended) ∧
    (∀ count, ∀ tick ∈ player.ticks count .initial, tick.outcome = .ended →
      (∀ front block back, blocks = front ++ block :: back → ∀ place < block.commands.length,
        (player.indices count .initial).count (Block.size front + place) = block.passes) ∧
      tick.state.waited = capped (Block.playTime blocks)) ∧
    (∀ count front back, blocks = front ++ back → ∀ execution,
      (player.executions count .initial).find? (·.index == Block.size front) = some execution →
      execution.before.repeats = none) ∧
    ∃ bound, ∀ timing : TimingConfig, bound ≤ timing.maxIterations →
      (player.list.commands ≠ [] →
        (analyzeTiming player.list timing).termination = .endOfList) ∧
      (analyzeTiming player.list timing).total = capped (Block.playTime blocks) := by
  obtain ⟨visits, htrail, htour, hadvances⟩ := Timing.exists_trail_tour h
  have hend : player.list.get? player.list.length = none := List.getElem?_eq_none (Nat.le_refl _)
  refine ⟨Timing.exists_ended_of_trail htrail hend hcap, ?_, ?_, visits.length, ?_⟩
  · intro count tick htick hended
    obtain ⟨hindices, hwaited⟩ := Timing.indices_of_ended htrail hend htick hended
    refine ⟨?_, hwaited⟩
    rintro front block back rfl place hplace
    rw [hindices, htour, Block.count_tour front block back hplace]
  · intro count front back hsplit execution hfound
    obtain ⟨visits, finish, htrail, hend, hfirst⟩ := Timing.exists_trail_first h hsplit
    obtain ⟨rest, rfl⟩ := Timing.map_ofExecution_prefix htrail hend count
    refine hfirst (.ofExecution execution) ?_
    rw [List.find?_append, List.find?_map]
    exact hfound ▸ rfl
  · intro timing hbound
    obtain ⟨htotal, htermination⟩ := Timing.walk_of_trail htrail hend hadvances hbound
    rw [analyzeTiming_eq_ofWalk]
    exact ⟨htermination, htotal⟩

/-- A wait, a wait in a loop of count zero, and a wait in a loop of count four. -/
def loopOfZero : CommandList :=
  ⟨[.wait 5, .label ⟨0⟩, .wait 2, .loop ⟨0⟩ 0, .label ⟨1⟩, .wait 3, .loop ⟨1⟩ 4], ["A", "B"]⟩

def loopOfZeroBlocks : List Block :=
  [.plain [.wait 5], .repeated ⟨0⟩ [.wait 2] 0, .repeated ⟨1⟩ [.wait 3] 4]

/-- A loop of count zero still runs twice. -/
theorem blocks_run_weighted_loop_zero :
    loopOfZero.MadeOf loopOfZeroBlocks ∧
    ∃ count, ∃ tick ∈ (Player.mk loopOfZero.program (.anonymous 0 0 0) {}).ticks count .initial,
      tick.outcome = .ended ∧ tick.state.waited = 5 + 2 * 2 + 5 * 3 := by
  have hmade : loopOfZero.MadeOf loopOfZeroBlocks := ⟨rfl, by decide, by decide⟩
  refine ⟨hmade, ?_⟩
  obtain ⟨⟨count, tick, htick, hended⟩, hrun, -⟩ := blocks_run_weighted
    (Player.mk loopOfZero.program (.anonymous 0 0 0) {}) (by decide) _ hmade
  exact ⟨count, tick, htick, hended, (hrun count tick htick hended).2.trans (by decide)⟩

end SpriteBytecode
