import SpriteBytecode.Proofs.Disassembly.RoundTrip
import SpriteBytecode.Proofs.Timing.Block
import SpriteBytecode.Proofs.Timing.Recurrence
import SpriteBytecode.Stream.Synthetic

/-!
The synthetic stream of jumps. A block jumps to its own wait, as long as twelve bits hold where that
is; there are 2048 such places, and later blocks jump to the waits of earlier ones
(`destination_mod`). So the first 2048 blocks have a label in front of their wait, and the others
none (`disassemble_jumps`). Playback goes through the blocks with a label in order
(`exists_trail_jumps`), and one behind them leads back into the first (`exists_comesBack_jumps`).
-/

set_option autoImplicit false
set_option relaxedAutoImplicit false

namespace SpriteBytecode.SyntheticStream

/-! ### Destinations -/

/-- How many waits a target can reach. -/
def reachable : Nat := 0x800

/-- Where a block jumps to. -/
def destination (index : Nat) : UInt16 := UInt16.ofNat ((2 * index + 1) % 0x1000)

theorem toNat_destination (index : Nat) : (destination index).toNat = (2 * index + 1) % 0x1000 :=
  UInt16.toNat_ofNat_of_lt' (Nat.lt_trans (Nat.mod_lt _ (by decide)) (by decide))

theorem toNat_destination_of_lt {index : Nat} (h : index < reachable) :
    (destination index).toNat = 2 * index + 1 := by
  rw [toNat_destination]
  unfold reachable at h
  omega

/-- Behind the waits that can be reached, the destinations begin again. -/
theorem destination_mod (index : Nat) : destination (index % reachable) = destination index := by
  unfold destination reachable
  congr 1
  omega

theorem pairwise_destinations {count : Nat} (h : count ≤ reachable) :
    ((List.range count).map destination).Pairwise fun a b ↦ a.toNat < b.toNat := by
  rw [List.pairwise_map]
  refine List.pairwise_lt_range.imp_of_mem ?_
  intro first second _ hsecond hlt
  have hwithin := Nat.lt_of_lt_of_le (List.mem_range.mp hsecond) h
  rw [toNat_destination_of_lt hwithin, toNat_destination_of_lt (Nat.lt_trans hlt hwithin)]
  omega

theorem nodup_destinations {count : Nat} (h : count ≤ reachable) :
    ((List.range count).map destination).Nodup := by
  refine (pairwise_destinations h).imp ?_
  rintro first second hlt rfl
  exact Nat.lt_irrefl _ hlt

/-! ### Instructions -/

/-- A goto and a wait. -/
def blockInstructions {τ : Type} (target : τ) : List (Instruction τ) := [.goto target, .wait 2]

def jumpsProgram (blocks : Nat) : List RawInstruction :=
  (List.range blocks).flatMap fun index ↦ blockInstructions (destination index)

theorem encode_goto_destination (index : Nat) :
    Instruction.encode (.goto (destination index)) =
      .ok [0x2000 + UInt16.ofNat ((2 * index + 1) % 0x1000)] := by
  have hlt : (destination index).toNat < 0x1000 := by
    rw [toNat_destination]
    omega
  rw [Instruction.encode, (Instruction.unsignedOperand_eq_ok_iff _ _ _).mpr ⟨hlt, rfl⟩]
  rfl

theorem spells_jumps (blocks : Nat) : Spells (jumpsProgram blocks) (jumps blocks) :=
  Spells.flatMap (fun index ↦ (spells_singleton rfl (encode_goto_destination index)).append
    (spells_singleton rfl rfl)) (List.range blocks)

/-- Pieces that are counted, up to one of them. -/
theorem exists_flatMap_range_eq {α : Type} (piece : Nat → List α) {index count : Nat}
    (h : index < count) :
    ∃ back, (List.range count).flatMap piece =
      (List.range index).flatMap piece ++ (piece index ++ back) := by
  obtain ⟨more, rfl⟩ := Nat.exists_eq_add_of_lt h
  rw [Nat.add_right_comm, List.range_add, List.flatMap_append, List.range_succ,
    List.flatMap_append, List.flatMap_singleton, List.append_assoc]
  exact ⟨_, rfl⟩

theorem streamLen_flatMap_range {τ : Type} {piece : Nat → List (Instruction τ)} {each : Nat}
    (h : ∀ index, streamLen (piece index) = each) (count : Nat) :
    streamLen ((List.range count).flatMap piece) = each * count := by
  induction count with
  | zero => rfl
  | succ count ih =>
    rw [List.range_succ, List.flatMap_append, streamLen_append, ih, List.flatMap_singleton, h]
    rfl

theorem filterMap_jumpsProgram (blocks : Nat) :
    (jumpsProgram blocks).filterMap (·.jumpTarget?) = (List.range blocks).map destination := by
  rw [jumpsProgram, List.filterMap_flatMap, List.map_eq_flatMap]
  rfl

/-- The blocks behind those whose waits can be reached. -/
def beyond (blocks : Nat) : List Nat := List.range' (min blocks reachable) (blocks - reachable)

theorem range_eq_append_beyond (blocks : Nat) :
    List.range blocks = List.range (min blocks reachable) ++ beyond blocks := by
  have hcount : min blocks reachable + (blocks - reachable) = blocks := by omega
  have happend := List.range'_append_1 (s := 0) (m := min blocks reachable)
    (n := blocks - reachable)
  rw [Nat.zero_add, hcount] at happend
  rw [List.range_eq_range', List.range_eq_range', beyond, happend]

theorem mod_reachable_lt {blocks index : Nat} (h : index < blocks) :
    index % reachable < min blocks reachable :=
  Nat.lt_min.mpr ⟨Nat.lt_of_le_of_lt (Nat.mod_le _ _) h, Nat.mod_lt _ (by decide)⟩

/-- The blocks beyond do not reach anything new. -/
theorem jumpTargets_jumpsProgram (blocks : Nat) :
    jumpTargets (jumpsProgram blocks) = (List.range (min blocks reachable)).map destination := by
  have hnew : ((beyond blocks).map destination).removeAll
      ((List.range (min blocks reachable)).map destination) = [] := by
    apply List.filter_eq_nil_iff.mpr
    intro target htarget
    obtain ⟨index, hindex, rfl⟩ := List.mem_map.mp htarget
    have hblocks : index ∈ List.range blocks := by
      rw [range_eq_append_beyond]
      exact List.mem_append_right _ hindex
    have hmem := List.mem_map_of_mem (f := destination)
      (List.mem_range.mpr (mod_reachable_lt (List.mem_range.mp hblocks)))
    rw [destination_mod] at hmem
    rw [List.elem_eq_true_of_mem hmem]
    exact Bool.false_ne_true
  rw [jumpTargets, Numbering.firsts_eq, filterMap_jumpsProgram, range_eq_append_beyond,
    List.map_append, List.eraseDups_append, hnew, List.eraseDups_nil, List.append_nil]
  exact eraseDups_of_nodup (nodup_destinations (Nat.min_le_right _ _))

theorem labelOf_destination {blocks index : Nat} (h : index < blocks) :
    labelOf (jumpsProgram blocks) (destination index) = ⟨index % reachable⟩ := by
  have hlt : index % reachable < ((List.range (min blocks reachable)).map destination).length := by
    rw [List.length_map, List.length_range]
    exact mod_reachable_lt h
  have hget : ((List.range (min blocks reachable)).map destination)[index % reachable] =
      destination index := by
    rw [List.getElem_map, List.getElem_range, destination_mod]
  rw [labelOf, jumpTargets_jumpsProgram, ← hget,
    (nodup_destinations (Nat.min_le_right _ _)).idxOf_getElem]

/-! ### The list -/

/-- A goto to the wait behind it. -/
def markedBlock (index : Nat) : List Command := [.goto ⟨index⟩, .label ⟨index⟩, .wait 2]

/-- The blocks that have a label, and the others behind them. -/
def jumpsList (blocks : Nat) : CommandList where
  commands :=
    (List.range (min blocks reachable)).flatMap markedBlock ++
      (beyond blocks).flatMap fun index ↦ blockInstructions ⟨index % reachable⟩
  labelNames := (List.range (min blocks reachable)).map fun index ↦
    LabelName.ofPosition .empty (destination index)

/-- Each marker goes into its own block, behind the blocks that have theirs. -/
theorem insertMarkers_jumps {blocks : Nat} (count : Nat) :
    ∀ rest : List Command, count ≤ min blocks reachable →
      insertMarkers (jumpsProgram blocks) ((List.range count).map destination)
          ((List.range count).flatMap (fun index ↦ blockInstructions ⟨index % reachable⟩) ++ rest) =
        (List.range count).flatMap markedBlock ++ rest := by
  induction count with
  | zero => exact fun _ _ ↦ rfl
  | succ count ih =>
    intro rest hcount
    have hreachable : count < reachable := by omega
    have hlabel : labelOf (jumpsProgram blocks) (destination count) = ⟨count⟩ := by
      rw [labelOf_destination (by omega), Nat.mod_eq_of_lt hreachable]
    have hlength : streamLen ((List.range count).flatMap markedBlock) = 2 * count := by
      apply streamLen_flatMap_range
      exact fun _ ↦ rfl
    have hposition : (destination count).toNat =
        streamLen ((List.range count).flatMap markedBlock) + 1 := by
      rw [hlength, toNat_destination_of_lt hreachable]
    rw [List.range_succ, List.map_append, List.map_singleton, insertMarkers_concat,
      List.flatMap_append, List.append_assoc, ih _ (Nat.le_of_succ_le hcount), hlabel, hposition,
      insertMarker_append _ Nat.one_pos, List.flatMap_append, List.append_assoc,
      List.flatMap_singleton, List.flatMap_singleton, Nat.mod_eq_of_lt hreachable]
    rfl

theorem map_mapTarget_jumpsProgram (blocks : Nat) :
    (jumpsProgram blocks).map (·.mapTarget (labelOf (jumpsProgram blocks))) =
      (List.range (min blocks reachable)).flatMap
          (fun index ↦ blockInstructions ⟨index % reachable⟩) ++
        (beyond blocks).flatMap fun index ↦ blockInstructions ⟨index % reachable⟩ := by
  have hblock (index : Nat) (hindex : index ∈ List.range blocks) :
      (blockInstructions (destination index)).map (·.mapTarget (labelOf (jumpsProgram blocks))) =
        (blockInstructions ⟨index % reachable⟩ : List Command) := by
    rw [← labelOf_destination (List.mem_range.mp hindex)]
    rfl
  rw [← List.flatMap_append, ← range_eq_append_beyond]
  exact List.map_flatMap.trans (List.flatMap_congr hblock)

/-- The wait of a block begins where the block jumps to. -/
theorem keepsName_destination {blocks index : Nat} (h : index < min blocks reachable) :
    KeepsName (jumpsProgram blocks) (destination index) := by
  obtain ⟨hblocks, hreachable⟩ := Nat.lt_min.mp h
  obtain ⟨back, hprogram⟩ :=
    exists_flatMap_range_eq (fun index ↦ blockInstructions (destination index)) hblocks
  have hlength : streamLen ((List.range index).flatMap fun index ↦
      blockInstructions (destination index)) = 2 * index := by
    apply streamLen_flatMap_range
    exact fun _ ↦ rfl
  refine Or.inl ⟨(List.range index).flatMap (fun index ↦ blockInstructions (destination index)) ++
    [.goto (destination index)], .wait 2, back, ?_, ?_⟩
  · rw [jumpsProgram, hprogram, List.append_assoc]
    rfl
  · rw [streamLen_append, hlength, toNat_destination_of_lt hreachable]
    rfl

theorem disassemble_jumps (blocks : Nat) :
    disassemble (jumps blocks) .empty = .ok (jumpsList blocks) := by
  have hstream := (spells_jumps blocks).decodeStream_eq 0
  have htargets := jumpTargets_jumpsProgram blocks
  have hsorted := pairwise_destinations (Nat.min_le_right blocks reachable)
  have hnames : ((List.range (min blocks reachable)).map destination).map
      (targetName .empty (jumpsProgram blocks)) = (jumpsList blocks).labelNames := by
    rw [List.map_map]
    apply List.map_congr_left
    intro index hindex
    exact if_pos (keepsName_destination (List.mem_range.mp hindex))
  rw [disassemble_of_ascending hstream (htargets ▸ .refl _) hsorted, htargets, hnames,
    map_mapTarget_jumpsProgram, insertMarkers_jumps _ _ (Nat.le_refl _)]
  rfl

/-- No label stands twice, and they stand in the order of their blocks. -/
theorem labels_jumpsList (blocks : Nat) :
    (jumpsList blocks).labels = (List.range (min blocks reachable)).map LabelId.mk := by
  have hbeyond : List.filterMap CommandList.labelOf?
      ((beyond blocks).flatMap fun index ↦ blockInstructions ⟨index % reachable⟩) = [] := by
    rw [List.filterMap_flatMap]
    exact List.flatMap_eq_nil_iff.mpr fun _ _ ↦ rfl
  rw [CommandList.labels, jumpsList, List.filterMap_append, hbeyond, List.append_nil,
    List.filterMap_flatMap, List.map_eq_flatMap]
  rfl

theorem nodup_labels_jumpsList (blocks : Nat) : (jumpsList blocks).labels.Nodup := by
  rw [labels_jumpsList]
  refine List.nodup_range.map ?_
  intro first second hsame
  exact LabelId.mk.inj hsame

theorem length_markedBlocks (count : Nat) :
    ((List.range count).flatMap markedBlock).length = 3 * count := by
  simp [markedBlock, Nat.mul_comm]

/-- A block with a label stands behind those before it. -/
theorem holds_markedBlock {blocks index : Nat} (h : index < min blocks reachable) :
    (jumpsList blocks).Holds (3 * index) (markedBlock index) := by
  obtain ⟨back, hcommands⟩ := exists_flatMap_range_eq markedBlock h
  have hsplit : (jumpsList blocks).commands = (List.range index).flatMap markedBlock ++
      (markedBlock index ++ (back ++
        (beyond blocks).flatMap fun index ↦ blockInstructions ⟨index % reachable⟩)) := by
    rw [jumpsList, hcommands, List.append_assoc, List.append_assoc]
  have hholds := (CommandList.Holds.of_commands_eq hsplit).left
  rwa [length_markedBlocks] at hholds

theorem findLabel?_jumpsList {blocks index : Nat} (h : index < min blocks reachable) :
    (jumpsList blocks).findLabel? ⟨index⟩ = some (3 * index + 1) :=
  findLabel?_of_nodup (nodup_labels_jumpsList blocks) (holds_markedBlock h).tail.head

/-- Each label is in front of its block's wait. -/
theorem wait_behind_label {blocks place : Nat} {id : LabelId}
    (h : (jumpsList blocks).get? place = some (.label id)) :
    (jumpsList blocks).get? (place + 1) = some (.wait 2) := by
  have hmem : id ∈ (jumpsList blocks).labels :=
    List.mem_filterMap.mpr ⟨_, List.mem_of_getElem? h, rfl⟩
  rw [labels_jumpsList] at hmem
  obtain ⟨index, hindex, rfl⟩ := List.mem_map.mp hmem
  have hlt := List.mem_range.mp hindex
  have hplace := findLabel?_of_nodup (nodup_labels_jumpsList blocks) h
  obtain rfl := Option.some.inj ((findLabel?_jumpsList hlt).symm.trans hplace)
  exact (holds_markedBlock hlt).tail.tail.head

/-! ### The walk -/

/-- The blocks with a label are gone through in order. -/
theorem exists_trail_jumps {blocks : Nat} (count : Nat) (h : count ≤ min blocks reachable) :
    ∃ visits, Timing.Trail (jumpsList blocks) Timing.start visits
        ⟨3 * count, capped (2 * count), none⟩ ∧
      visits.map Visit.position = List.range (3 * count) := by
  induction count with
  | zero => exact ⟨[], .done _, rfl⟩
  | succ count ih =>
    obtain ⟨visits, htrail, hpositions⟩ := ih (Nat.le_of_succ_le h)
    have hholds := holds_markedBlock (Nat.lt_of_succ_le h)
    have hjump := Timing.follow_goto_of_eq_some (findLabel?_jumpsList (Nat.lt_of_succ_le h))
      ⟨3 * count, capped (2 * count), none⟩
    refine ⟨visits ++ [_, _, _], htrail.append (.visit hholds.head hjump
      (.visit hholds.tail.head (Timing.follow_of_not_jump rfl _ _ _)
        (.visit hholds.tail.tail.head (Timing.follow_of_not_jump rfl _ _ _) (.done _)))), ?_⟩
    rw [List.map_append, hpositions, Nat.mul_succ, List.range_succ, List.range_succ,
      List.range_succ, List.append_assoc, List.append_assoc]
    rfl

theorem loopCount_jumpsList (blocks : Nat) : (jumpsList blocks).loopCount = 0 := by
  rw [CommandList.loopCount, List.countP_eq_zero]
  simp only [jumpsList, markedBlock, blockInstructions, List.mem_append, List.mem_flatMap,
    List.mem_cons, List.not_mem_nil, or_false]
  rintro command (⟨index, -, rfl | rfl | rfl⟩ | ⟨index, -, rfl | rfl⟩) <;> exact Bool.false_ne_true

/-- Where there is a label for every block, the blocks end with the list. -/
theorem get?_end_of_le {blocks : Nat} (h : blocks ≤ reachable) :
    (jumpsList blocks).get? (3 * blocks) = none := by
  have hbeyond : beyond blocks = [] := by
    rw [beyond, Nat.sub_eq_zero_of_le h, List.range'_zero]
  apply List.getElem?_eq_none
  rw [jumpsList, hbeyond, Nat.min_eq_left h, List.flatMap_nil, List.append_nil,
    length_markedBlocks]

/-- Otherwise the first block without one jumps into the first of all. -/
theorem get?_beyond {blocks : Nat} (h : reachable < blocks) :
    (jumpsList blocks).get? (3 * reachable) = some (.goto ⟨0⟩) := by
  obtain ⟨more, hmore⟩ := Nat.exists_eq_add_of_lt h
  have hbeyond : beyond blocks = reachable :: List.range' (reachable + 1) more := by
    rw [beyond, Nat.min_eq_right (Nat.le_of_lt h),
      show blocks - reachable = more + 1 by omega, List.range'_succ]
  have hsplit : (jumpsList blocks).commands = (List.range reachable).flatMap markedBlock ++
      (.goto ⟨0⟩ :: .wait 2 :: (List.range' (reachable + 1) more).flatMap fun index ↦
        blockInstructions ⟨index % reachable⟩) := by
    rw [jumpsList, hbeyond, Nat.min_eq_right (Nat.le_of_lt h), List.flatMap_cons]
    rfl
  have hholds := (CommandList.Holds.of_commands_eq hsplit).head
  rwa [length_markedBlocks] at hholds

/-- With more blocks than labels, the walk comes back into the first block. -/
theorem exists_comesBack_jumps {blocks : Nat} (h : reachable < blocks) :
    ∃ visits finish, Timing.ComesBack (jumpsList blocks) visits finish ∧
      Timing.Advances visits ∧ visits.length = 3 * reachable + 1 ∧
      finish.time = 2 * reachable := by
  have hall : min blocks reachable = reachable := Nat.min_eq_right (Nat.le_of_lt h)
  obtain ⟨visits, htrail, hpositions⟩ := exists_trail_jumps reachable (Nat.le_of_eq hall.symm)
  have hfirst : (jumpsList blocks).findLabel? ⟨0⟩ = some 1 :=
    findLabel?_jumpsList (by rw [hall]; decide)
  have hwhole := htrail.append (.visit (get?_beyond h)
    (Timing.follow_goto_of_eq_some hfirst _) (.done _))
  have hwholePositions : (visits ++ [(⟨3 * reachable, capped (2 * reachable), none⟩ : Visit)]).map
      Visit.position = List.range (3 * reachable + 1) := by
    rw [List.map_append, hpositions, List.range_succ]
    rfl
  refine ⟨_, _, ⟨hwhole, rfl, ?_⟩, ?_, ?_, Nat.min_eq_left (by decide)⟩
  · have hmem : 1 ∈ List.range (3 * reachable + 1) := List.mem_range.mpr (by decide)
    rw [← hwholePositions] at hmem
    exact List.mem_map.mp hmem
  · exact Timing.advances_of_nodup (hwholePositions ▸ List.nodup_range)
  · rw [← List.length_map Visit.position, hwholePositions, List.length_range]

section Playback

variable {blocks : Nat} {player : Player} (hplayer : player.list = jumpsList blocks)

include hplayer

/-- With a label for every block, playback ends, and it has waited in every block. -/
theorem ended_of_le_reachable (h : blocks ≤ reachable) (hcap : 1 ≤ player.config.maxIterations) :
    (∃ count, ∃ tick ∈ player.ticks count .initial, tick.outcome = .ended) ∧
      ∀ count, ∀ tick ∈ player.ticks count .initial, tick.outcome = .ended →
        tick.state.waited = 2 * blocks := by
  have hall : min blocks reachable = blocks := Nat.min_eq_left h
  obtain ⟨visits, htrail, -⟩ := exists_trail_jumps blocks (Nat.le_of_eq hall.symm)
  have hend := get?_end_of_le h
  rw [← hplayer] at htrail hend
  refine ⟨Timing.exists_ended_of_trail htrail hend hcap, ?_⟩
  intro count tick htick hended
  rw [(Timing.indices_of_ended htrail hend htick hended).2]
  exact Nat.min_eq_left (Nat.le_trans (Nat.mul_le_mul_left 2 h) (by decide))

/-- With more blocks than labels, playback does not end. -/
theorem not_ended_of_reachable_lt (h : reachable < blocks) {count : Nat} {tick : Tick}
    (htick : tick ∈ player.ticks count .initial) : tick.outcome ≠ .ended := by
  obtain ⟨visits, finish, hback, -⟩ := exists_comesBack_jumps h
  have hloops := loopCount_jumpsList blocks
  rw [← hplayer] at hback hloops
  exact hback.outcome_ne_ended (by omega) htick

end Playback

/-- Names are taken from positions, and pin none. -/
theorem unescape?_of_mem_labelNames {blocks : Nat} {name : String}
    (h : name ∈ (jumpsList blocks).labelNames) : LabelName.unescape? name = none := by
  obtain ⟨index, -, rfl⟩ := List.mem_map.mp h
  rw [LabelName.unescape?_ofPosition]
  rfl

theorem report_of_reachable_lt {blocks : Nat} (h : reachable < blocks) {timing : TimingConfig}
    (hcap : 3 * reachable + 2 ≤ timing.maxIterations) :
    (analyzeTiming (jumpsList blocks) timing).termination = .steadyState ∧
      (analyzeTiming (jumpsList blocks) timing).total = 2 * reachable := by
  obtain ⟨visits, finish, hback, hadvances, hlength, htime⟩ := exists_comesBack_jumps h
  have hvisits : visits.length < timing.maxIterations := by
    rw [hlength]
    exact hcap
  obtain ⟨hsteady, htotal⟩ := hback.report hadvances hvisits
  exact ⟨hsteady, htotal.trans htime⟩

/-- What holds of the stream of this many jumps once it is disassembled. -/
structure WrapsAround (blocks : Nat) (list : CommandList) : Prop where
  length_labelNames : list.labelNames.length = min blocks 2048
  labels : list.labels = (List.range (min blocks 2048)).map LabelId.mk
  /-- No label has to be pinned. -/
  free : ∀ name ∈ list.labelNames, LabelName.unescape? name = none
  marked : ∀ place id, list.get? place = some (.label id) →
    ∃ count, list.get? (place + 1) = some (.wait count)
  assembles : ∃ assembled, assemble list = .ok assembled ∧ assembled.words = jumps blocks
  /-- With a label for every block, playback ends when it has waited in each. -/
  ends : blocks ≤ 2048 → ∀ player : Player, player.list = list →
    1 ≤ player.config.maxIterations →
      (∃ count, ∃ tick ∈ player.ticks count .initial, tick.outcome = .ended) ∧
      ∀ count, ∀ tick ∈ player.ticks count .initial, tick.outcome = .ended →
        tick.state.waited = 2 * blocks
  /-- With more blocks than labels, it does not end. -/
  endless : 2048 < blocks → ∀ player : Player, player.list = list →
    ∀ count, ∀ tick ∈ player.ticks count .initial, tick.outcome ≠ .ended
  steady : 2048 < blocks → ∀ timing : TimingConfig, 3 * 2048 + 2 ≤ timing.maxIterations →
    (analyzeTiming list timing).termination = .steadyState ∧
      (analyzeTiming list timing).total = 4096

/-- The stream of jumps disassembles with a label in front of the wait of each of its first 2048
blocks, none of which has to be pinned, and assembles again. Up to that many blocks, playback ends
when it has waited in each. If there are more, it never ends, and a walk with visits enough for 2048
blocks and one jump comes back to the start after their waits. -/
theorem jumps_wrap_around (blocks : Nat) :
    ∃ list, disassemble (jumps blocks) .empty = .ok list ∧ WrapsAround blocks list := by
  have hlist := disassemble_jumps blocks
  exact ⟨jumpsList blocks, hlist,
    { length_labelNames := by
        rw [jumpsList, List.length_map, List.length_range]
        rfl
      labels := labels_jumpsList blocks
      free _ := unescape?_of_mem_labelNames
      marked _ _ hlabel := ⟨2, wait_behind_label hlabel⟩
      assembles := exists_assemble_of_disassemble_empty hlist
      ends hblocks _ hplayer hcap := ended_of_le_reachable hplayer hblocks hcap
      endless hblocks _ hplayer _ _ htick := not_ended_of_reachable_lt hplayer hblocks htick
      steady hblocks _ hcap := report_of_reachable_lt hblocks hcap }⟩

/-- Playback of 2048 blocks ends, and with one more it does not. -/
theorem jumps_wrap_around_boundary :
    (∃ list, disassemble (jumps 2048) .empty = .ok list ∧
      ∃ count, ∃ tick ∈ (Player.mk list.program (.anonymous 0 0 0) {}).ticks count .initial,
        tick.outcome = .ended ∧ tick.state.waited = 4096) ∧
    ∃ list, disassemble (jumps 2049) .empty = .ok list ∧
      (∀ count, ∀ tick ∈ (Player.mk list.program (.anonymous 0 0 0) {}).ticks count .initial,
        tick.outcome ≠ .ended) ∧
      (analyzeTiming list ⟨6146⟩).termination = .steadyState ∧
      (analyzeTiming list ⟨6146⟩).total = 4096 := by
  constructor
  · obtain ⟨list, hlist, hwraps⟩ := jumps_wrap_around 2048
    obtain ⟨⟨count, tick, htick, hended⟩, hwaited⟩ :=
      hwraps.ends (Nat.le_refl _) (Player.mk list.program (.anonymous 0 0 0) {}) rfl
        (show 1 ≤ defaultMaxIterations by decide)
    exact ⟨list, hlist, count, tick, htick, hended, hwaited count tick htick hended⟩
  · obtain ⟨list, hlist, hwraps⟩ := jumps_wrap_around 2049
    exact ⟨list, hlist,
      hwraps.endless (by decide) (Player.mk list.program (.anonymous 0 0 0) {}) rfl,
      hwraps.steady (by decide) ⟨6146⟩ (Nat.le_refl _)⟩

end SpriteBytecode.SyntheticStream
