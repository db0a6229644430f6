import SpriteBytecode.Proofs.Assembly.Slice
import SpriteBytecode.Proofs.CommandList.Insertion

/-!
What an insertion does to the words of a list. The new instruction's words stand at the offset of
its index, and all words behind move with their commands. A jump's word is another one exactly if
the label's marker is behind the insertion, wherever the jump itself is: then the target moves by as
many words as were put in (`exists_moved_target`). In all other respects the words are the same
(`insertion_relocates_jumps`).
-/

set_option autoImplicit false
set_option relaxedAutoImplicit false

namespace SpriteBytecode

/-! ### Words of one command -/

/-- An instruction that does not jump has no target to look up. -/
theorem Instruction.eq_of_mapTargetM_of_not_jump {τ υ ε : Type} {f g : τ → Except ε υ}
    {i : Instruction τ} {j k : Instruction υ} (hlabel : i.isLabel = false)
    (hjump : i.jumpTarget? = none) (hf : i.mapTargetM f = .ok j) (hg : i.mapTargetM g = .ok k) :
    k = j := by
  cases i with
  | goto | loop => exact absurd hjump (by simp [jumpTarget?])
  | label => exact absurd hlabel (by simp [isLabel])
  | _ =>
    cases hf
    cases hg
    rfl

/-- A jump has its target in its first word, and the words behind do not depend on it. -/
theorem Instruction.exists_words_of_jump {τ : Type} {i : Instruction τ} {target : τ}
    (hjump : i.jumpTarget? = some target) :
    ∃ op operands, ∀ (f : τ → Except BytecodeError UInt16) (raw : RawInstruction)
      (words : List UInt16), i.mapTargetM f = .ok raw → raw.encode = .ok words →
        ∃ position, f target = .ok position ∧ position.toNat < 0x1000 ∧
          words = firstWord op position :: operands := by
  cases i with
  | goto other =>
    obtain rfl := Option.some.inj hjump
    refine ⟨.goto, [], fun f raw words hraw hencode ↦ ?_⟩
    obtain ⟨position, hposition, rfl⟩ := (map_eq_ok_iff _ _ _).mp hraw
    obtain ⟨_, hoperand, rfl⟩ := (map_eq_ok_iff _ _ _).mp hencode
    obtain ⟨hlt, rfl⟩ := (unsignedOperand_eq_ok_iff _ _ _).mp hoperand
    exact ⟨_, hposition, hlt, rfl⟩
  | loop other count =>
    obtain rfl := Option.some.inj hjump
    refine ⟨.loop, [count.toUInt16], fun f raw words hraw hencode ↦ ?_⟩
    obtain ⟨position, hposition, rfl⟩ := (map_eq_ok_iff _ _ _).mp hraw
    obtain ⟨_, hoperand, rfl⟩ := (map_eq_ok_iff _ _ _).mp hencode
    obtain ⟨hlt, rfl⟩ := (unsignedOperand_eq_ok_iff _ _ _).mp hoperand
    exact ⟨_, hposition, hlt, rfl⟩
  | _ => exact absurd hjump (by simp [jumpTarget?])

/-- The words of an instruction stand at its offset. -/
theorem exists_words_of_assemble {list : CommandList} {assembled : Assembled} {place : Nat}
    {command : Command} (h : assemble list = .ok assembled)
    (hget : list.get? place = some command) (hlabel : command.isLabel = false) :
    ∃ raw words, command.mapTargetM list.jumpWord = .ok raw ∧ raw.encode = .ok words ∧
      ∀ offset < command.wordLen,
        assembled.words[wordsBefore list.commands place + offset]? = words[offset]? := by
  obtain ⟨raw, front, words, back, hraw, hencode, hwords, hfront⟩ :=
    exists_slice_of_assemble h hget hlabel
  refine ⟨raw, words, hraw, hencode, fun offset hoffset ↦ ?_⟩
  have hlt : offset < words.length := by
    rwa [Instruction.length_of_encode hencode, Instruction.wordLen_of_mapTargetM hraw]
  rw [hwords, ← hfront, List.getElem?_append_right (Nat.le_add_right _ _), Nat.add_sub_cancel_left,
    List.getElem?_append_left hlt]

/-- Every word in front of the end belongs to an instruction. -/
theorem exists_place_of_lt_streamLen {commands : List Command} {word : Nat}
    (h : word < streamLen commands) :
    ∃ place command offset, commands[place]? = some command ∧ command.isLabel = false ∧
      offset < command.wordLen ∧ word = wordsBefore commands place + offset := by
  induction commands generalizing word with
  | nil => exact absurd h (Nat.not_lt_zero _)
  | cons first rest ih =>
    rw [streamLen_cons] at h
    rcases Nat.lt_or_ge word first.wordLen with hlt | hge
    · refine ⟨0, first, word, rfl, ?_, hlt, (Nat.zero_add _).symm⟩
      have := mt (Instruction.wordLen_eq_zero_iff first).mpr (Nat.ne_zero_of_lt hlt)
      simpa using this
    · obtain ⟨place, command, offset, hget, hlabel, hoffset, hword⟩ :=
        ih (Nat.sub_lt_left_of_lt_add hge h)
      refine ⟨place + 1, command, offset, hget, hlabel, hoffset, ?_⟩
      unfold wordsBefore at hword ⊢
      rw [List.take_succ_cons, streamLen_cons]
      omega

/-! ### Targets -/

/-- A jump to a free label is encoded with the offset of the label's last marker. -/
theorem exists_last_of_jumpWord {list : CommandList} {id : LabelId} {position : UInt16}
    (hfree : ∀ name, list.labelName? id = some name → LabelName.unescape? name = none)
    (h : list.jumpWord id = .ok position) :
    ∃ last, IsLastMarker list.commands id last ∧
      wordsBefore list.commands last = position.toNat := by
  obtain ⟨name, hname⟩ := labelName?_of_jumpWord h
  rw [jumpWord_of_labelName? hname, jumpPosition_eq_ok_iff (hfree name hname)] at h
  exact exists_last_of_lastOffset? h

theorem IsLastMarker.pushed {commands : List Command} {index last : Nat} {inserted : Command}
    {id : LabelId} (h : IsLastMarker commands id last) (hindex : index ≤ commands.length)
    (hlabel : inserted.isLabel = false) :
    IsLastMarker (commands.insertIdx index inserted) id (pushed index last) := by
  refine ⟨(getElem?_insertIdx_pushed inserted).trans h.1, fun later hlater ↦ ?_⟩
  by_cases hself : later = index
  · subst hself
    rw [List.getElem?_insertIdx_self, if_pos hindex, ne_eq, Option.some.injEq]
    exact ne_label_of_not_isLabel hlabel id
  · obtain ⟨place, rfl⟩ := exists_pushed hself
    rw [getElem?_insertIdx_pushed]
    exact h.2 place ((pushed_lt_pushed_iff _ _ _).mp hlater)

/-! ### The words behind an insertion -/

/-- A jump begins at the word, and a marker of its label stands at the index or behind it. -/
def CommandList.JumpsPast (list : CommandList) (index word : Nat) : Prop :=
  ∃ command id marker, StandsAt list.commands command word ∧ command.jumpTarget? = some id ∧
    list.get? marker = some (.label id) ∧ index ≤ marker

/-- The targets of the jumps past the index are `n` words further, and all else is the same. -/
structure CommandList.Relocates (list : CommandList) (index n : Nat) (old new : List UInt16) :
    Prop where
  length : new.length = old.length
  moved : ∀ word, list.JumpsPast index word → ∃ before after, old[word]? = some before ∧
    new[word]? = some after ∧ opcodeOf after = opcodeOf before ∧
    (operandOf after).toNat = (operandOf before).toNat + n
  kept : ∀ word, ¬ list.JumpsPast index word → new[word]? = old[word]?

section Insertion

variable {list : CommandList} {index : Nat} {command : Command} {edited : Edited Unit}
  (hinsert : list.insert? index command = some edited) (hlabel : command.isLabel = false)

include hinsert hlabel

/-- The target of a jump moves exactly if the label's last marker is behind the insertion. -/
theorem exists_moved_target {id : LabelId} {before after : UInt16}
    (hfree : ∀ name, list.labelName? id = some name → LabelName.unescape? name = none)
    (hbefore : list.jumpWord id = .ok before) (hafter : edited.list.jumpWord id = .ok after) :
    ∃ last, IsLastMarker list.commands id last ∧
      after.toNat = before.toNat + if index ≤ last then command.wordLen else 0 := by
  obtain ⟨hindex, -⟩ := CommandList.insert?_eq_some_iff.mp hinsert
  have hcommands := CommandList.commands_of_insert? hinsert
  obtain ⟨last, hlast, hposition⟩ := exists_last_of_jumpWord hfree hbefore
  rw [← CommandList.labelName?_of_insert? hinsert] at hfree
  obtain ⟨place, hplace, hmoved⟩ := exists_last_of_jumpWord hfree hafter
  rw [hcommands] at hplace hmoved
  refine ⟨last, hlast, ?_⟩
  rw [← hmoved, hplace.unique (hlast.pushed hindex hlabel),
    wordsBefore_insertIdx_pushed command hindex, hposition]

variable {old new : Assembled} (hold : assemble list = .ok old)
  (hnew : assemble edited.list = .ok new) {place : Nat} {other : Command}
  (hget : list.get? place = some other)

omit hlabel in
include hold hnew hget in
/-- The words of an instruction that does not jump are the same behind the insertion. -/
theorem getElem?_of_not_jump (hother : other.isLabel = false) (hjump : other.jumpTarget? = none)
    {offset : Nat} (hoffset : offset < other.wordLen) :
    new.words[wordsBefore edited.list.commands (pushed index place) + offset]? =
      old.words[wordsBefore list.commands place + offset]? := by
  obtain ⟨raw, words, hraw, hencode, hbefore⟩ := exists_words_of_assemble hold hget hother
  rw [← CommandList.get?_pushed_of_insert? hinsert] at hget
  obtain ⟨raw', words', hraw', hencode', hafter⟩ := exists_words_of_assemble hnew hget hother
  obtain rfl := Instruction.eq_of_mapTargetM_of_not_jump hother hjump hraw hraw'
  rw [hbefore offset hoffset, hafter offset hoffset, Except.ok.inj (hencode'.symm.trans hencode)]

include hold hnew hget in
/-- The words of a jump differ in its target, and only if that moves. -/
theorem exists_words_of_jump {id : LabelId} (hjump : other.jumpTarget? = some id)
    (hfree : ∀ name, list.labelName? id = some name → LabelName.unescape? name = none) :
    ∃ op operands before after last, IsLastMarker list.commands id last ∧
      before.toNat < 0x1000 ∧ after.toNat < 0x1000 ∧
      after.toNat = before.toNat + (if index ≤ last then command.wordLen else 0) ∧
      ∀ offset < other.wordLen,
        old.words[wordsBefore list.commands place + offset]? =
          (firstWord op before :: operands)[offset]? ∧
        new.words[wordsBefore edited.list.commands (pushed index place) + offset]? =
          (firstWord op after :: operands)[offset]? := by
  have hother := not_isLabel_of_jumpTarget? hjump
  obtain ⟨op, operands, hwritten⟩ := Instruction.exists_words_of_jump hjump
  obtain ⟨raw, words, hraw, hencode, hbefore⟩ := exists_words_of_assemble hold hget hother
  rw [← CommandList.get?_pushed_of_insert? hinsert] at hget
  obtain ⟨raw', words', hraw', hencode', hafter⟩ := exists_words_of_assemble hnew hget hother
  obtain ⟨before, hword, hlt, rfl⟩ := hwritten _ _ _ hraw hencode
  obtain ⟨after, hword', hlt', rfl⟩ := hwritten _ _ _ hraw' hencode'
  obtain ⟨last, hlast, hmoved⟩ := exists_moved_target hinsert hlabel hfree hword hword'
  exact ⟨op, operands, before, after, last, hlast, hlt, hlt', hmoved,
    fun offset hoffset ↦ ⟨hbefore offset hoffset, hafter offset hoffset⟩⟩

include hnew in
/-- The new command has its words where the index was, and those around them stay together. -/
theorem exists_cut_of_assemble :
    ∃ front slice back, new.words = front ++ slice ++ back ∧
      list.wordOffset? index = some front.length ∧ slice.length = command.wordLen ∧
      edited.list.Writes command slice ∧
      ∀ place other offset, list.get? place = some other → offset < other.wordLen →
        (front ++ back)[wordsBefore list.commands place + offset]? =
          new.words[wordsBefore edited.list.commands (pushed index place) + offset]? := by
  obtain ⟨hindex, -⟩ := CommandList.insert?_eq_some_iff.mp hinsert
  obtain ⟨raw, front, slice, back, hraw, hencode, hwords, hfront⟩ :=
    exists_slice_of_assemble hnew (CommandList.get?_self_of_insert? hinsert) hlabel
  have hcommands := CommandList.commands_of_insert? hinsert
  rw [hcommands, wordsBefore_insertIdx_of_le command (Nat.le_refl index)] at hfront
  have hslice : slice.length = command.wordLen := by
    rw [Instruction.length_of_encode hencode, Instruction.wordLen_of_mapTargetM hraw]
  refine ⟨front, slice, back, hwords.trans (List.append_assoc _ _ _).symm,
    (wordOffset?_of_le hindex).trans (congrArg some hfront.symm), hslice,
    .instruction hlabel hraw hencode, fun place other offset hget hoffset ↦ ?_⟩
  rw [hcommands, wordsBefore_insertIdx_pushed command hindex, hwords]
  by_cases hplace : index ≤ place
  · have hle := wordsBefore_le list.commands hplace
    rw [if_pos hplace, List.getElem?_append_right (by omega), List.getElem?_append_right (by omega),
      List.getElem?_append_right (by omega)]
    exact congrArg (back[·]?) (by omega)
  · have hle := wordsBefore_le list.commands (Nat.not_le.mp hplace)
    rw [wordsBefore_succ hget] at hle
    rw [if_neg hplace, Nat.add_zero, List.getElem?_append_left (by omega),
      List.getElem?_append_left (by omega)]

include hold hnew in
/-- Words that agree with the new ones along the instructions are the old ones but for the jumps
past the index. -/
theorem relocates_of_assemble {words : List UInt16} (hlength : words.length = old.words.length)
    (hwords : ∀ place other offset, list.get? place = some other → offset < other.wordLen →
      words[wordsBefore list.commands place + offset]? =
        new.words[wordsBefore edited.list.commands (pushed index place) + offset]?)
    (hfree : ∀ jump ∈ list.commands, ∀ id name, jump.jumpTarget? = some id →
      list.labelName? id = some name → LabelName.unescape? name = none) :
    list.Relocates index command.wordLen old.words words where
  length := hlength
  moved := by
    rintro _ ⟨jump, id, marker, hstands, hjump, hmarker, hle⟩
    obtain ⟨place, hget, rfl⟩ := (standsAt_iff_index _ _ _).mp hstands
    obtain ⟨op, operands, before, after, last, hlast, hbefore, hafter, hmoved, hpair⟩ :=
      exists_words_of_jump hinsert hlabel hold hnew hget hjump
        fun name ↦ hfree jump (List.mem_of_getElem? hget) id name hjump
    have hpast : index ≤ last := by
      by_contra hgt
      exact hlast.2 marker (Nat.lt_of_lt_of_le (Nat.not_le.mp hgt) hle) hmarker
    have hpos := wordLen_pos (not_isLabel_of_jumpTarget? hjump)
    obtain ⟨hfirst, hfirst'⟩ := hpair 0 hpos
    refine ⟨firstWord op before, firstWord op after, hfirst,
      (hwords place jump 0 hget hpos).trans hfirst', ?_, ?_⟩
    · rw [opcodeOf_firstWord op hafter, opcodeOf_firstWord op hbefore]
    · rw [operandOf_firstWord op hafter, operandOf_firstWord op hbefore, hmoved, if_pos hpast]
  kept := by
    intro word hnot
    rcases Nat.lt_or_ge word (streamLen list.commands) with hlt | hge
    · obtain ⟨place, other, offset, hget, hother, hoffset, rfl⟩ := exists_place_of_lt_streamLen hlt
      rw [hwords place other offset hget hoffset]
      rcases hjump : other.jumpTarget? with - | id
      · exact getElem?_of_not_jump hinsert hold hnew hget hother hjump hoffset
      · obtain ⟨op, operands, before, after, last, hlast, -, -, hmoved, hpair⟩ :=
          exists_words_of_jump hinsert hlabel hold hnew hget hjump
            fun name ↦ hfree other (List.mem_of_getElem? hget) id name hjump
        rw [(hpair offset hoffset).1, (hpair offset hoffset).2]
        -- Only the first word of a jump has the target, and it is where the jump begins.
        cases offset with
        | zero =>
          have hpast : ¬ index ≤ last := fun hle ↦ hnot ⟨other, id, last,
            (standsAt_iff_index _ _ _).mpr ⟨place, hget, rfl⟩, hjump, hlast.1, hle⟩
          rw [if_neg hpast, Nat.add_zero] at hmoved
          rw [UInt16.toNat_inj.mp hmoved]
        | succ offset => rfl
    · have hend : old.words.length ≤ word := by
        rwa [CommandList.length_of_assemble hold, CommandList.wordLen, wordCount_eq_streamLen]
      rw [List.getElem?_eq_none hend, List.getElem?_eq_none (hlength ▸ hend)]

end Insertion

/-- An instruction that is inserted adds its own words at the offset of its index. Jumps whose label
has a marker there or further back get a target that is as many words further, and all other words
are the old ones. Removing the instruction restores the list and its words. A jump may go to a label
of several markers, as its target is the last of them, and the new instruction may be a jump. -/
theorem insertion_relocates_jumps {list : CommandList} {index : Nat} {command : Command}
    {edited : Edited Unit} {old new : Assembled}
    (hfree : ∀ jump ∈ list.commands, ∀ id name, jump.jumpTarget? = some id →
      list.labelName? id = some name → LabelName.unescape? name = none)
    (hlabel : command.isLabel = false) (hinsert : list.insert? index command = some edited)
    (hold : assemble list = .ok old) (hnew : assemble edited.list = .ok new) :
    (∃ offset slice relocated, list.wordOffset? index = some offset ∧
      edited.list.Writes command slice ∧
      list.Relocates index command.wordLen old.words relocated ∧
      new.words = relocated.take offset ++ slice ++ relocated.drop offset) ∧
    edited.list.remove index = ⟨list, some command, some (.removed index)⟩ ∧
    assemble (edited.list.remove index).list = .ok old := by
  have hremove := CommandList.remove_of_insert? hinsert
  refine ⟨?_, hremove, by rw [hremove]; exact hold⟩
  obtain ⟨front, slice, back, hsplit, hoffset, hslice, hwrites, hwords⟩ :=
    exists_cut_of_assemble hinsert hlabel hnew
  have hlength : (front ++ back).length = old.words.length := by
    have hwhole := CommandList.length_of_assemble hnew
    rw [hsplit, CommandList.wordLen_of_insert? hinsert, ← CommandList.length_of_assemble hold,
      List.length_append, List.length_append] at hwhole
    rw [List.length_append]
    omega
  refine ⟨front.length, slice, front ++ back, hoffset, hwrites,
    relocates_of_assemble hinsert hlabel hold hnew hlength hwords hfree, ?_⟩
  rw [List.take_left, List.drop_left, hsplit]

/-- Two markers at one offset, and a goto to each. -/
def sharedOffset : CommandList :=
  ⟨[.label ⟨0⟩, .label ⟨1⟩, .wait 2, .goto ⟨0⟩, .goto ⟨1⟩], ["A", "B"]⟩

/-- The same with a wait between the markers. -/
def dividedOffset : CommandList :=
  ⟨[.label ⟨0⟩, .wait 5, .label ⟨1⟩, .wait 2, .goto ⟨0⟩, .goto ⟨1⟩], ["A", "B"]⟩

/-- Two markers share the offset of the insertion, and the jump to the one behind it moves. -/
theorem insertion_relocates_jumps_between_markers :
    sharedOffset.Relocates 1 1 [0x0002, 0x2000, 0x2000] [0x0002, 0x2000, 0x2001] := by
  have hfree : ∀ jump ∈ sharedOffset.commands, ∀ id name, jump.jumpTarget? = some id →
      sharedOffset.labelName? id = some name → LabelName.unescape? name = none := by
    intro _ _ id name _ hname
    have hmem : name ∈ ["A", "B"] := List.mem_of_getElem? hname
    rcases List.mem_pair.mp hmem with rfl | rfl <;> decide
  have hinsert : sharedOffset.insert? 1 (.wait 5) =
      some ⟨dividedOffset, (), some (.inserted 1)⟩ := rfl
  have hold : assemble sharedOffset = .ok ⟨[0x0002, 0x2000, 0x2000], ⟨[(0, "B")]⟩⟩ := by
    decide +kernel
  have hnew : assemble dividedOffset =
      .ok ⟨[0x0005, 0x0002, 0x2000, 0x2001], ⟨[(0, "A"), (1, "B")]⟩⟩ := by decide +kernel
  obtain ⟨⟨offset, slice, relocated, hoffset, -, hrelocates, hwords⟩, -⟩ :=
    insertion_relocates_jumps hfree rfl hinsert hold hnew
  obtain rfl : 0 = offset := Option.some.inj hoffset
  have hsplit : [0x0005] ++ [0x0002, 0x2000, 0x2001] = slice ++ relocated := hwords
  obtain ⟨-, rfl⟩ := List.append_inj' hsplit hrelocates.length.symm
  exact hrelocates

end SpriteBytecode
