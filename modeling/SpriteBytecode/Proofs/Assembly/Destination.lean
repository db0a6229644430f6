import Mathlib.Data.List.Induction
import Mathlib.Data.Nat.Init
import SpriteBytecode.CommandList.Edit
import SpriteBytecode.Proofs.Assembly.Encoding
import SpriteBytecode.Proofs.CommandList.Place

/-!
Where the jumps of an assembled stream lead. Every instruction has its own slice of the words, at
the word offset of its index (`exists_slice_of_assemble`). A jump to a free label is written with
the offset of the label's last marker (`exists_last_of_lastOffset?`), while whatever follows a jump
in the list goes to the first one. The two are the same place in the stream exactly if no
instruction stands between them (`wordsBefore_eq_iff`).
-/

set_option autoImplicit false
set_option relaxedAutoImplicit false

namespace SpriteBytecode

/-! ### Slices of the words -/

theorem exists_append_of_forall₂ {α β : Type} {r : α → β → Prop} {front back : List α}
    {l : List β} (h : List.Forall₂ r (front ++ back) l) :
    ∃ first second, l = first ++ second ∧ List.Forall₂ r front first ∧
      List.Forall₂ r back second := by
  refine ⟨l.take front.length, l.drop front.length, (List.take_append_drop _ _).symm, ?_, ?_⟩
  · simpa using List.forall₂_take front.length h
  · simpa using List.forall₂_drop front.length h

theorem Spells.exists_append {front back : List RawInstruction} {words : List UInt16}
    (h : Spells (front ++ back) words) :
    ∃ first second, words = first ++ second ∧ Spells front first ∧ Spells back second := by
  induction front generalizing words with
  | nil => exact ⟨[], words, rfl, .nil, h⟩
  | cons i rest ih =>
    cases h with
    | @cons _ slice _ words hlabel hencode hrest =>
      obtain ⟨first, second, rfl, hfirst, hsecond⟩ := ih hrest
      exact ⟨slice ++ first, second, (List.append_assoc _ _ _).symm,
        .cons hlabel hencode hfirst, hsecond⟩

theorem Instruction.wordLen_of_mapTargetM {τ υ ε : Type} {f : τ → Except ε υ} {i : Instruction τ}
    {j : Instruction υ} (h : i.mapTargetM f = .ok j) : j.wordLen = i.wordLen :=
  congr_of_mapTargetM wordLen wordLen_mapTarget h

theorem streamLen_of_forall₂_mapTargetM {τ υ ε : Type} {f : τ → Except ε υ}
    {instructions : List (Instruction τ)} {resolved : List (Instruction υ)}
    (h : List.Forall₂ (fun i j ↦ i.mapTargetM f = .ok j) instructions resolved) :
    streamLen resolved = streamLen instructions := by
  induction h with
  | nil => rfl
  | cons hij _ ih =>
    rw [streamLen_cons, streamLen_cons, ih, Instruction.wordLen_of_mapTargetM hij]

/-- An instruction is encoded at the word offset of its index, with the positions of its labels. -/
theorem exists_slice_of_assemble {list : CommandList} {assembled : Assembled} {index : Nat}
    {command : Command} (h : assemble list = .ok assembled)
    (hget : list.get? index = some command) (hlabel : command.isLabel = false) :
    ∃ raw front slice back, command.mapTargetM list.jumpWord = .ok raw ∧
      raw.encode = .ok slice ∧ assembled.words = front ++ (slice ++ back) ∧
      front.length = wordsBefore list.commands index := by
  obtain ⟨⟨raws, hraws, hspells⟩, -⟩ := (assemble_eq_ok_iff _ _).mp h
  obtain ⟨hlt, rfl⟩ := List.getElem?_eq_some_iff.mp hget
  have hsplit : withoutLabels list.commands = withoutLabels (list.commands.take index) ++
      list.commands[index] :: withoutLabels (list.commands.drop (index + 1)) := by
    rw [← withoutLabels_cons_of_not_label _ hlabel, ← withoutLabels_append,
      List.getElem_cons_drop, List.take_append_drop]
  rw [hsplit] at hraws
  obtain ⟨before, behind, rfl, hbefore, hbehind⟩ := exists_append_of_forall₂ hraws
  cases hbehind with
  | cons hraw _ =>
    obtain ⟨front, _, hwords, hfront, hrest⟩ := hspells.exists_append
    cases hrest with
    | cons _ hencode _ =>
      refine ⟨_, front, _, _, hraw, hencode, hwords, ?_⟩
      rw [← hfront.streamLen_eq, streamLen_of_forall₂_mapTargetM hbefore, streamLen_withoutLabels]
      rfl

/-! ### First and last markers -/

theorem lastOffset?_append (front back : List (LabelId × Nat)) (id : LabelId) :
    lastOffset? (front ++ back) id = (lastOffset? back id).or (lastOffset? front id) := by
  rw [lastOffset?, List.reverse_append, List.find?_append, Option.map_or]
  rfl

theorem lastOffset?_eq_none {markers : List (LabelId × Nat)} {id : LabelId}
    (h : ∀ offset, (id, offset) ∉ markers) : lastOffset? markers id = none := by
  rw [Option.eq_none_iff_forall_ne_some]
  exact fun offset hoffset ↦ h offset (mem_of_lastOffset? hoffset)

/-- The last marker of a label stands at this index. -/
def IsLastMarker (commands : List Command) (id : LabelId) (index : Nat) : Prop :=
  commands[index]? = some (.label id) ∧ ∀ later, index < later → commands[later]? ≠ some (.label id)

theorem exists_last_of_lastOffset? {commands : List Command} {id : LabelId} {offset : Nat}
    (h : lastOffset? (markerOffsets 0 commands) id = some offset) :
    ∃ last, IsLastMarker commands id last ∧ wordsBefore commands last = offset := by
  induction commands using List.reverseRecOn with
  | nil => exact absurd h (by simp [markerOffsets, lastOffset?])
  | append_singleton front command ih =>
    rw [markerOffsets_append, lastOffset?_append, Nat.zero_add] at h
    by_cases hcommand : command = .label id
    · subst hcommand
      have hoffset : streamLen front = offset := by
        rw [markerOffsets_label_cons,
          lastOffset?_eq_some List.mem_cons_self (by simp [markerOffsets]), Option.some_or] at h
        exact Option.some.inj h
      refine ⟨front.length, ⟨List.getElem?_concat_length, ?_⟩, ?_⟩
      · intro later hlater
        rw [List.getElem?_eq_none (by rw [List.length_append]; exact hlater)]
        simp
      · rw [wordsBefore, List.take_left, hoffset]
    · have hnone : lastOffset? (markerOffsets (streamLen front) [command]) id = none := by
        refine lastOffset?_eq_none fun position hposition ↦ ?_
        obtain ⟨before, behind, hsplit, -⟩ := (mem_markerOffsets_iff _ _ _ _).mp hposition
        have hmem : Instruction.label id ∈ [command] := by rw [hsplit]; simp
        exact hcommand (List.mem_singleton.mp hmem).symm
      rw [hnone, Option.none_or] at h
      obtain ⟨last, ⟨hlast, hlater⟩, rfl⟩ := ih h
      have hlt := (List.getElem?_eq_some_iff.mp hlast).1
      refine ⟨last, ⟨?_, ?_⟩, ?_⟩
      · rw [List.getElem?_append_left hlt, hlast]
      · intro later hbehind hsome
        rcases Nat.lt_trichotomy later front.length with hin | rfl | hout
        · rw [List.getElem?_append_left hin] at hsome
          exact hlater later hbehind hsome
        · rw [List.getElem?_concat_length] at hsome
          exact hcommand (Option.some.inj hsome)
        · rw [List.getElem?_eq_none (by rw [List.length_append]; exact hout)] at hsome
          exact absurd hsome (by simp)
      · rw [wordsBefore, wordsBefore, List.take_append_of_le_length (Nat.le_of_lt hlt)]

theorem IsLastMarker.unique {commands : List Command} {id : LabelId} {first second : Nat}
    (hfirst : IsLastMarker commands id first) (hsecond : IsLastMarker commands id second) :
    first = second := by
  rcases Nat.lt_trichotomy first second with hlt | heq | hgt
  · exact absurd hsecond.1 (hfirst.2 second hlt)
  · exact heq
  · exact absurd hfirst.1 (hsecond.2 first hgt)

/-- The offset that is looked up for a label is that of its last marker. -/
theorem lastOffset?_eq_some_iff {commands : List Command} {id : LabelId} {offset : Nat} :
    lastOffset? (markerOffsets 0 commands) id = some offset ↔
      ∃ last, IsLastMarker commands id last ∧ wordsBefore commands last = offset := by
  constructor
  · exact exists_last_of_lastOffset?
  · rintro ⟨last, hlast, rfl⟩
    obtain ⟨found, hfound⟩ := exists_lastOffset?_of_mem
      ((mem_markerOffsets_iff_index commands id _).mpr ⟨last, hlast.1, rfl⟩)
    obtain ⟨other, hother, rfl⟩ := exists_last_of_lastOffset? hfound
    rw [hfound, hlast.unique hother]

/-- Two indices are the same place in the stream if only markers stand between them. -/
theorem wordsBefore_eq_iff {commands : List Command} {first last : Nat} (hle : first ≤ last)
    (hlast : last ≤ commands.length) :
    wordsBefore commands first = wordsBefore commands last ↔
      ∀ between command, first ≤ between → between < last →
        commands[between]? = some command → command.isLabel = true := by
  induction last, hle using Nat.le_induction with
  | base =>
    exact iff_of_true rfl fun between _ hfirst hlast _ ↦ absurd hfirst (Nat.not_le.mpr hlast)
  | succ last hle ih =>
    have hget := List.getElem?_eq_getElem hlast
    have hmono := wordsBefore_le commands hle
    rw [wordsBefore_succ hget]
    constructor
    · intro hsame between command hfirst hbetween hcommand
      rcases Nat.eq_or_lt_of_le (Nat.le_of_lt_succ hbetween) with rfl | hearlier
      · obtain rfl := Option.some.inj (hget.symm.trans hcommand)
        rw [← Instruction.wordLen_eq_zero_iff]
        omega
      · exact (ih (Nat.le_of_lt hlast)).mp (by omega) between command hfirst hearlier hcommand
    · intro hmarkers
      have hzero := (Instruction.wordLen_eq_zero_iff _).mpr
        (hmarkers last _ hle (Nat.lt_succ_self last) hget)
      rw [hzero, Nat.add_zero]
      exact (ih (Nat.le_of_lt hlast)).mpr fun between command hfirst hbetween ↦
        hmarkers between command hfirst (Nat.lt_succ_of_lt hbetween)

theorem findLabel?_le {list : CommandList} {id : LabelId} {first index : Nat}
    (hfirst : list.findLabel? id = some first) (h : list.get? index = some (.label id)) :
    first ≤ index := by
  obtain ⟨_, -, hearlier⟩ := List.findIdx?_eq_some_iff_getElem.mp hfirst
  by_contra hlt
  obtain ⟨hindex, hlabel⟩ := List.getElem?_eq_some_iff.mp h
  exact hearlier index (Nat.lt_of_not_le hlt) (beq_iff_eq.mpr hlabel)

/-! ### Compiled jumps -/

/-- A jump to a free label is assembled with the word offset of the label's last marker. That is the
word offset of the first one, which the list's consumers jump to, exactly if no instruction stands
between the two. -/
theorem jump_compiles_to_last_marker {list : CommandList} {assembled : Assembled} {index : Nat}
    {command : Command} {id : LabelId} (hassembled : assemble list = .ok assembled)
    (hget : list.get? index = some command) (hjump : command.jumpTarget? = some id)
    (hfree : ∀ name, list.labelName? id = some name → LabelName.unescape? name = none) :
    ∃ offset raw rest target first last,
      list.wordOffset? index = some offset ∧
      Instruction.decode (assembled.words.drop offset) = .ok (raw, rest) ∧
      raw.jumpTarget? = some target ∧
      list.findLabel? id = some first ∧ IsLastMarker list.commands id last ∧
      list.wordOffset? last = some target.toNat ∧
      (list.wordOffset? first = some target.toNat ↔
        ∀ between other, first ≤ between → between < last →
          list.get? between = some other → other.isLabel = true) := by
  have hlabel := not_isLabel_of_jumpTarget? hjump
  obtain ⟨raw, front, slice, back, hraw, hencode, hwords, hfront⟩ :=
    exists_slice_of_assemble hassembled hget hlabel
  obtain ⟨target, htarget⟩ := Instruction.exists_of_mapTargetM hraw hjump
  obtain ⟨name, hname⟩ := labelName?_of_jumpWord htarget
  have hoffset := htarget
  rw [jumpWord_of_labelName? hname, jumpPosition_eq_ok_iff (hfree name hname)] at hoffset
  obtain ⟨last, hlast, hlastWords⟩ := exists_last_of_lastOffset? hoffset
  obtain ⟨first, hfirst⟩ := exists_findLabel?_of_mem (mem_of_lastOffset? hoffset)
  have hle := findLabel?_le hfirst hlast.1
  have hlastLength := Nat.le_of_lt (List.getElem?_eq_some_iff.mp hlast.1).1
  have hindexLength := Nat.le_of_lt (List.getElem?_eq_some_iff.mp hget).1
  refine ⟨wordsBefore list.commands index, raw, back, target, first, last,
    wordOffset?_of_le hindexLength, ?_, ?_, hfirst, hlast, ?_, ?_⟩
  · rw [hwords, ← hfront, List.drop_left]
    exact Instruction.decode_of_encode hencode
      ((Instruction.isLabel_of_mapTargetM hraw).trans hlabel) back
  · exact (Instruction.jumpTarget?_of_mapTargetM hraw target).mpr ⟨id, hjump, htarget⟩
  · rw [wordOffset?_of_le hlastLength, hlastWords]
  · rw [wordOffset?_of_le (Nat.le_trans hle hlastLength), Option.some.injEq, ← hlastWords]
    exact wordsBefore_eq_iff hle hlastLength

/-- A label with markers on both sides of a wait, and a goto to it. -/
def markedTwice : CommandList := ⟨[.label ⟨0⟩, .wait 2, .label ⟨0⟩, .goto ⟨0⟩], ["A"]⟩

/-- The word of the goto is the second marker's. -/
theorem jump_compiles_to_last_marker_repeated :
    ∃ offset raw rest target last,
      Instruction.decode ([0x0002, 0x2001].drop offset) = .ok (raw, rest) ∧
      raw.jumpTarget? = some target ∧ IsLastMarker markedTwice.commands ⟨0⟩ last ∧
      markedTwice.wordOffset? last = some target.toNat := by
  have hassembled : assemble markedTwice =
      .ok ⟨[0x0002, 0x2001], ⟨[(0, "A"), (1, "A")]⟩⟩ := by decide +kernel
  have hget : markedTwice.get? 3 = some (.goto ⟨0⟩) := rfl
  have hfree : ∀ name, markedTwice.labelName? ⟨0⟩ = some name →
      LabelName.unescape? name = none := by
    rintro _ ⟨⟩
    decide
  obtain ⟨offset, raw, rest, target, _, last, -, hdecode, htarget, -, hlast, hoffset, -⟩ :=
    jump_compiles_to_last_marker hassembled hget rfl hfree
  exact ⟨offset, raw, rest, target, last, hdecode, htarget, hlast, hoffset⟩

/-- The same list, as edits make it. Its goto is written with the second word of the stream, and
the list finds the label at the first. -/
theorem not_jump_compiles_to_first_marker :
    ∃ list hints,
      list = (((((CommandList.empty.addLabel "A").list.push (.label ⟨0⟩)).list.push
        (.wait 2)).list.push (.label ⟨0⟩)).list.push (.goto ⟨0⟩)).list ∧
      assemble list = .ok ⟨[0x0002, 0x2001], hints⟩ ∧
      Instruction.decode ([0x0002, 0x2001].drop 1) = .ok (.goto 1, []) ∧
      (list.findLabel? ⟨0⟩).bind list.wordOffset? = some 0 :=
  ⟨_, ⟨[(0, "A"), (1, "A")]⟩, rfl, by decide +kernel, by decide +kernel, by decide +kernel⟩

end SpriteBytecode
