import SpriteBytecode.Proofs.Disassembly.Placement
import SpriteBytecode.Proofs.Timing.Block
import SpriteBytecode.Proofs.Timing.Recurrence
import SpriteBytecode.Stream.Synthetic

/-!
The synthetic stream of frames. It spells its frames, a loop over all of them and a goto to its
start (`spells_frames`). Its one label is the start (`disassemble_frames`), so that the list is one
repeated block in front of a goto, and a walk goes through the block as often as the loop says and
then comes back to the start (`exists_comesBack_frames`).
-/

set_option autoImplicit false
set_option relaxedAutoImplicit false

namespace SpriteBytecode.SyntheticStream

section Instructions

variable {τ υ : Type}

/-- The instructions of one frame. -/
def frameInstructions (index : Nat) : List (Instruction τ) :=
  .setRaster (Int16.ofNat (index % 0x800)) ::
    ((if index % 4 = 3 then [.setPosition false 0 (-2) 0] else []) ++ [.wait 2])

def framesInstructions (count : Nat) : List (Instruction τ) :=
  (List.range count).flatMap frameInstructions

/-- Frames, a loop over them and a goto, both to `start`. -/
def framesProgram (start : τ) (count : Nat) (repeats : Int16) : List (Instruction τ) :=
  framesInstructions count ++ [.loop start repeats, .goto start]

/-- Two of each, and more of every fourth. -/
theorem length_flatMap_of_fourth {α : Type} {piece : Nat → List α} {more : Nat}
    (h : ∀ index, (piece index).length = 2 + if index % 4 = 3 then more else 0) (count : Nat) :
    ((List.range count).flatMap piece).length = 2 * count + more * (count / 4) := by
  induction count with
  | zero => simp
  | succ count ih =>
    rw [List.range_succ, List.flatMap_append, List.length_append, ih, List.flatMap_singleton, h]
    by_cases hfourth : count % 4 = 3
    · have hnext : (count + 1) / 4 = count / 4 + 1 := by omega
      rw [if_pos hfourth, hnext, Nat.mul_succ more]
      omega
    · have hsame : (count + 1) / 4 = count / 4 := by omega
      rw [if_neg hfourth, hsame]
      omega

theorem length_frame (index : Nat) :
    (frame index).length = 2 + if index % 4 = 3 then 4 else 0 := by
  unfold frame
  split <;> rfl

theorem length_frameInstructions (index : Nat) :
    (frameInstructions index : List (Instruction τ)).length =
      2 + if index % 4 = 3 then 1 else 0 := by
  unfold frameInstructions
  split <;> rfl

theorem length_frames (count : Nat) (repeats : Int16) :
    (frames count repeats).length = 2 * count + 4 * (count / 4) + 3 := by
  rw [frames, List.length_append, length_flatMap_of_fourth length_frame]
  rfl

theorem length_framesInstructions (count : Nat) :
    (framesInstructions count : List (Instruction τ)).length = 2 * count + count / 4 := by
  rw [framesInstructions, length_flatMap_of_fourth length_frameInstructions, Nat.one_mul]

theorem mem_framesInstructions {count : Nat} {i : Instruction τ}
    (h : i ∈ framesInstructions count) : ∃ index, i ∈ (frameInstructions index : List _) := by
  obtain ⟨index, -, hi⟩ := List.mem_flatMap.mp h
  exact ⟨index, hi⟩

/-- Frames do not jump. -/
theorem jumpTarget?_of_mem_frameInstructions {index : Nat} {i : Instruction τ}
    (h : i ∈ frameInstructions index) : i.jumpTarget? = none := by
  unfold frameInstructions at h
  split at h
  · simp only [List.cons_append, List.nil_append, List.mem_cons, List.not_mem_nil, or_false] at h
    rcases h with rfl | rfl | rfl <;> rfl
  · simp only [List.nil_append, List.mem_cons, List.not_mem_nil, or_false] at h
    rcases h with rfl | rfl <;> rfl

theorem map_mapTarget_frameInstructions (f : τ → υ) (index : Nat) :
    (frameInstructions index).map (·.mapTarget f) = frameInstructions index := by
  unfold frameInstructions
  split <;> rfl

theorem map_mapTarget_framesProgram (f : τ → υ) (start : τ) (count : Nat) (repeats : Int16) :
    (framesProgram start count repeats).map (·.mapTarget f) =
      framesProgram (f start) count repeats := by
  rw [framesProgram, framesInstructions, List.map_append, List.map_flatMap]
  simp only [map_mapTarget_frameInstructions]
  rfl

/-- Each frame takes the two ticks of its wait. -/
theorem sum_duration_framesInstructions (count : Nat) :
    ((framesInstructions count : List (Instruction τ)).map Instruction.duration).sum =
      2 * count := by
  induction count with
  | zero => rfl
  | succ count ih =>
    have hframe : ((frameInstructions count : List (Instruction τ)).map
        Instruction.duration).sum = 2 := by
      unfold frameInstructions
      split <;> rfl
    rw [framesInstructions, List.range_succ, List.flatMap_append, List.map_append, List.sum_append,
      List.flatMap_singleton, hframe, ← framesInstructions, ih]
    omega

end Instructions

/-! ### Spelling -/

theorem encode_setRaster_frame {index : Nat} (h : index < 0x800) :
    Instruction.encode (.setRaster (Int16.ofNat index)) =
      .ok [0x1000 + UInt16.ofNat index] := by
  have hvalue : (Int16.ofNat index).toInt = index := Int16.toInt_ofNat_of_lt (by omega)
  have hword : (Int16.ofNat index).toUInt16 = UInt16.ofNat index := rfl
  have hoperand : operandOf (Int16.ofNat index).toUInt16 = UInt16.ofNat index := by
    apply UInt16.toNat_inj.mp
    rw [toNat_operandOf, hword, UInt16.toNat_ofNat_of_lt' (Nat.lt_trans h (by decide))]
    omega
  rw [Instruction.encode, (Instruction.signedOperand_eq_ok_iff _ _ _).mpr ⟨by omega, rfl⟩, hoperand]
  rfl

theorem spells_frame (index : Nat) : Spells (frameInstructions index) (frame index) := by
  have hraster := encode_setRaster_frame (Nat.mod_lt index (by decide : 0 < 0x800))
  have hwait : Spells [.wait 2] [0x0002] := spells_singleton rfl rfl
  refine (spells_singleton rfl hraster).append ?_
  split
  · exact (spells_singleton rfl rfl).append hwait
  · exact hwait

theorem spells_frames (count : Nat) (repeats : Int16) :
    Spells (framesProgram 0 count repeats) (frames count repeats) := by
  have hloop : Spells [.loop 0 repeats] [0x7000, repeats.toUInt16] := spells_singleton rfl rfl
  have hgoto : Spells [.goto 0] [0x2000] := spells_singleton rfl rfl
  exact (Spells.flatMap spells_frame (List.range count)).append (hloop.append hgoto)

/-! ### The list -/

/-- Frames, a loop and a goto behind the one label that both jump to. -/
def framesList (count : Nat) (repeats : Int16) : CommandList :=
  ⟨.label ⟨0⟩ :: framesProgram ⟨0⟩ count repeats, [LabelName.start]⟩

theorem jumpTargets_framesProgram (count : Nat) (repeats : Int16) :
    jumpTargets (framesProgram 0 count repeats) = [0] := by
  have hframes :
      (framesInstructions count : List RawInstruction).filterMap (·.jumpTarget?) = [] := by
    rw [List.filterMap_eq_nil_iff]
    intro i hi
    obtain ⟨index, hindex⟩ := mem_framesInstructions hi
    exact jumpTarget?_of_mem_frameInstructions hindex
  rw [jumpTargets, Numbering.firsts_eq, framesProgram, List.filterMap_append, hframes]
  rfl

theorem beginsAt_framesProgram (count : Nat) (repeats : Int16) :
    BeginsAt (framesProgram (0 : UInt16) count repeats) 0 := by
  rcases hprogram : framesProgram (0 : UInt16) count repeats with - | ⟨i, rest⟩
  · simp [framesProgram] at hprogram
  · exact ⟨[], i, rest, rfl, rfl⟩

theorem disassemble_frames (count : Nat) (repeats : Int16) :
    disassemble (frames count repeats) .empty = .ok (framesList count repeats) := by
  have hstream := (spells_frames count repeats).decodeStream_eq 0
  have htargets := jumpTargets_framesProgram count repeats
  have hperm : List.Perm [0] (jumpTargets (framesProgram 0 count repeats)) := by rw [htargets]
  have hlabel : labelOf (framesProgram 0 count repeats) 0 = ⟨0⟩ := by
    rw [labelOf, htargets]
    rfl
  have hkeeps : KeepsName (framesProgram 0 count repeats) 0 :=
    Or.inl (beginsAt_framesProgram count repeats)
  rw [disassemble_of_ascending hstream hperm (List.pairwise_singleton _ _), insertMarkers,
    List.foldl_cons, List.foldl_nil, hlabel, map_mapTarget_framesProgram, hlabel, htargets,
    List.map_singleton, targetName, if_pos hkeeps, UInt16.toNat_zero, insertMarker_zero]
  rfl

theorem labels_framesList (count : Nat) (repeats : Int16) :
    (framesList count repeats).labels = [⟨0⟩] := by
  have hspells := spells_frames count repeats
  obtain ⟨-, hlist⟩ := list_ofInstructions_of_disassemble (hspells.decodeStream_eq 0)
    (disassemble_frames count repeats)
  have hperm := labels_ofInstructions_perm hspells .empty
  rw [hlist, jumpTargets_framesProgram, List.map_singleton] at hperm
  rw [List.perm_singleton.mp hperm, labelOf, jumpTargets_framesProgram]
  rfl

/-! ### The walk -/

/-- The list is one repeated block, in front of a goto to its start. -/
theorem commands_framesList (count : Nat) (repeats : Int16) :
    (framesList count repeats).commands =
      (Block.repeated ⟨0⟩ (framesInstructions count) repeats).commands ++ [.goto ⟨0⟩] := by
  simp [framesList, framesProgram, Block.commands]

theorem blockAt_framesList (count : Nat) (repeats : Int16) :
    Timing.BlockAt (framesList count repeats) 0
      (.repeated ⟨0⟩ (framesInstructions count) repeats) where
  holds := by
    have hcommands : (framesList count repeats).commands =
        [] ++ ((Block.repeated ⟨0⟩ (framesInstructions count) repeats).commands ++ [.goto ⟨0⟩]) :=
      commands_framesList count repeats
    exact (CommandList.Holds.of_commands_eq hcommands).left
  straight command hcommand := by
    obtain ⟨index, hindex⟩ := mem_framesInstructions hcommand
    exact jumpTarget?_of_mem_frameInstructions hindex
  place label hlabel := by
    obtain rfl := Option.some.inj hlabel
    rfl

theorem length_commands_framesBlock (count : Nat) (repeats : Int16) :
    (Block.repeated ⟨0⟩ (framesInstructions count) repeats).commands.length =
      2 * count + count / 4 + 2 := by
  rw [Block.commands, List.length_cons, List.length_append, length_framesInstructions,
    List.length_singleton]

theorem duration_framesBlock (count : Nat) (repeats : Int16) :
    (Block.repeated ⟨0⟩ (framesInstructions count) repeats).duration = 2 * count := by
  have hlabel : (Instruction.label ⟨0⟩ : Command).duration = 0 := rfl
  have hloop : (Instruction.loop ⟨0⟩ repeats : Command).duration = 0 := rfl
  rw [Block.duration, Block.commands, List.map_cons, List.sum_cons, List.map_append,
    List.sum_append, sum_duration_framesInstructions, List.map_singleton, List.sum_singleton,
    hlabel, hloop, Nat.zero_add, Nat.add_zero]

/-- The block is gone through as often as the loop says, and the goto leads back to its start. -/
theorem exists_comesBack_frames (count : Nat) (repeats : Int16) :
    ∃ visits finish, Timing.ComesBack (framesList count repeats) visits finish ∧
      Timing.Advances visits ∧
      visits.length = (1 + (max 1 repeats.toInt).toNat) * (2 * count + count / 4 + 2) + 1 ∧
      finish.time = capped ((1 + (max 1 repeats.toInt).toNat) * (2 * count)) := by
  have hgoto : (framesList count repeats).Holds
      (Block.repeated ⟨0⟩ (framesInstructions count) repeats).commands.length [.goto ⟨0⟩] :=
    .of_commands_eq (commands_framesList count repeats)
  obtain ⟨visits, htrail, hpositions, hadvances⟩ :=
    (blockAt_framesList count repeats).exists_trail 0
  rw [Nat.zero_add, Nat.zero_add, duration_framesBlock] at htrail
  have hwhole := htrail.append (.visit hgoto.head (Timing.follow_goto_of_eq_some rfl _) (.done _))
  refine ⟨_, _, ⟨hwhole, rfl, ?_⟩, ?_, ?_, rfl⟩
  · rcases hwhole.head?_eq with hnone | hstart
    · simp at hnone
    · exact ⟨_, List.mem_of_head? hstart, rfl⟩
  · refine List.pairwise_append.mpr ⟨hadvances, List.pairwise_singleton _ _, ?_⟩
    intro earlier hearlier later hlater _
    obtain rfl := List.mem_singleton.mp hlater
    have hwithin := Block.mem_flatten_replicate_range'
      (hpositions ▸ List.mem_map_of_mem (f := Visit.position) hearlier)
    rw [Nat.zero_add] at hwithin
    exact Nat.ne_of_lt hwithin.2
  · rw [List.length_append, ← List.length_map Visit.position, hpositions, List.length_flatten,
      List.map_replicate, List.sum_replicate_nat, List.length_range', length_commands_framesBlock]
    rfl

theorem report_framesList {count : Nat} {repeats : Int16} {timing : TimingConfig}
    (hcap : (1 + (max 1 repeats.toInt).toNat) * (2 * count + count / 4 + 2) + 2 ≤
      timing.maxIterations) :
    (analyzeTiming (framesList count repeats) timing).termination = .steadyState ∧
      (analyzeTiming (framesList count repeats) timing).total =
        min (2 * count * (1 + (max 1 repeats.toInt).toNat)) 0xFFFFFFFF := by
  obtain ⟨visits, finish, hback, hadvances, hlength, htime⟩ := exists_comesBack_frames count repeats
  obtain ⟨hsteady, htotal⟩ :=
    hback.report hadvances (show visits.length < timing.maxIterations by omega)
  refine ⟨hsteady, ?_⟩
  rw [htotal, htime, Nat.mul_comm (2 * count)]
  rfl

/-- The stream of frames has its words in groups of two or six and ends with three. It disassembles
with its start as the only label, at the front, and assembles again, however long it is. A walk with
visits enough for all passes and the goto behind them comes back to the start, after the waits of
every frame in every pass. -/
theorem frames_come_back (count : Nat) (repeats : Int16) :
    (frames count repeats).length = 2 * count + 4 * (count / 4) + 3 ∧
    ∃ list, disassemble (frames count repeats) .empty = .ok list ∧
      list.labelNames = ["Start"] ∧ list.labels = [⟨0⟩] ∧ list.get? 0 = some (.label ⟨0⟩) ∧
      (∃ assembled, assemble list = .ok assembled ∧ assembled.words = frames count repeats) ∧
      ∀ timing : TimingConfig,
        (1 + (max 1 repeats.toInt).toNat) * (2 * count + count / 4 + 2) + 2 ≤
            timing.maxIterations →
          (analyzeTiming list timing).termination = .steadyState ∧
          (analyzeTiming list timing).total =
            min (2 * count * (1 + (max 1 repeats.toInt).toNat)) 0xFFFFFFFF := by
  have hlist := disassemble_frames count repeats
  refine ⟨length_frames count repeats, framesList count repeats, hlist, rfl,
    labels_framesList count repeats, rfl, exists_assemble_of_disassemble_empty hlist, ?_⟩
  exact fun timing hcap ↦ report_framesList hcap

/-- A million frames in as many passes as there can be: more words than a target reaches, and more
time than is counted. -/
theorem frames_come_back_saturated :
    ∃ list, disassemble (frames 0x100000 32767) .empty = .ok list ∧
      (∃ assembled, assemble list = .ok assembled ∧ assembled.words = frames 0x100000 32767) ∧
      (analyzeTiming list ⟨0x1200010002⟩).termination = .steadyState ∧
      (analyzeTiming list ⟨0x1200010002⟩).total = 0xFFFFFFFF := by
  obtain ⟨-, list, hlist, -, -, -, hassembled, htiming⟩ := frames_come_back 0x100000 32767
  obtain ⟨htermination, htotal⟩ := htiming ⟨0x1200010002⟩ (by decide)
  exact ⟨list, hlist, hassembled, htermination, htotal.trans (by decide)⟩

end SpriteBytecode.SyntheticStream
