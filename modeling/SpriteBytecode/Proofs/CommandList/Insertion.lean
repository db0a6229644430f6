import Mathlib.Data.List.InsertIdx
import SpriteBytecode.CommandList.Edit
import SpriteBytecode.Proofs.CommandList.Place

/-!
A command put into a list. The commands from its index on stand one index further
(`getElem?_insertIdx_pushed`), and as many words further as the new command takes up
(`wordsBefore_insertIdx_pushed`). A marker on either side of the index may stand at the same word,
and only the one behind it moves. Taking the new command out again gives the list back
(`CommandList.remove_of_insert?`).
-/

set_option autoImplicit false
set_option relaxedAutoImplicit false

namespace SpriteBytecode

/-- The index at which the command at `place` stands once another has been put in at `index`. -/
def pushed (index place : Nat) : Nat := if place < index then place else place + 1

theorem pushed_lt_pushed_iff (index first second : Nat) :
    pushed index first < pushed index second ↔ first < second := by
  unfold pushed
  split <;> split <;> omega

theorem exists_pushed {index place : Nat} (h : place ≠ index) :
    ∃ before, pushed index before = place := by
  rcases Nat.lt_or_gt_of_ne h with hlt | hgt
  · exact ⟨place, if_pos hlt⟩
  · refine ⟨place - 1, ?_⟩
    unfold pushed
    split <;> omega

section InsertIdx

variable {commands : List Command} {index place : Nat} (inserted : Command)

theorem getElem?_insertIdx_pushed :
    (commands.insertIdx index inserted)[pushed index place]? = commands[place]? := by
  unfold pushed
  split
  · next hlt => exact List.getElem?_insertIdx_of_lt hlt
  · next hge =>
    exact List.getElem?_insertIdx_of_gt (Nat.lt_succ_of_le (Nat.le_of_not_lt hge))

theorem wordsBefore_insertIdx_of_le (h : place ≤ index) :
    wordsBefore (commands.insertIdx index inserted) place = wordsBefore commands place := by
  rw [wordsBefore, List.take_insertIdx_eq_take_of_le _ _ _ _ h, wordsBefore]

theorem wordsBefore_insertIdx_succ (hindex : index ≤ commands.length) (h : index ≤ place) :
    wordsBefore (commands.insertIdx index inserted) (place + 1) =
      wordsBefore commands place + inserted.wordLen := by
  induction index generalizing commands place with
  | zero =>
    rw [List.insertIdx_zero, wordsBefore, List.take_succ_cons, streamLen_cons, Nat.add_comm,
      wordsBefore]
  | succ index ih =>
    obtain ⟨first, rest, rfl⟩ := List.exists_cons_of_length_pos (Nat.lt_of_lt_of_le
      (Nat.succ_pos index) hindex)
    obtain ⟨place, rfl⟩ := Nat.exists_eq_add_one_of_ne_zero (Nat.ne_zero_of_lt h)
    have hrest := ih (Nat.le_of_succ_le_succ hindex) (Nat.le_of_succ_le_succ h)
    unfold wordsBefore at hrest ⊢
    rw [List.insertIdx_succ_cons, List.take_succ_cons, List.take_succ_cons, streamLen_cons,
      streamLen_cons, hrest, Nat.add_assoc]

/-- What stands behind the index is as many words further as the new command takes up. -/
theorem wordsBefore_insertIdx_pushed (hindex : index ≤ commands.length) :
    wordsBefore (commands.insertIdx index inserted) (pushed index place) =
      wordsBefore commands place + if index ≤ place then inserted.wordLen else 0 := by
  unfold pushed
  split
  · next hlt =>
    rw [if_neg (Nat.not_le.mpr hlt), wordsBefore_insertIdx_of_le inserted (Nat.le_of_lt hlt),
      Nat.add_zero]
  · next hge =>
    rw [if_pos (Nat.le_of_not_lt hge),
      wordsBefore_insertIdx_succ inserted hindex (Nat.le_of_not_lt hge)]

end InsertIdx

namespace CommandList

variable {list : CommandList} {index : Nat} {command : Command} {edited : Edited Unit}

theorem commands_of_insert? (h : list.insert? index command = some edited) :
    edited.list.commands = list.commands.insertIdx index command := by
  obtain ⟨-, rfl⟩ := insert?_eq_some_iff.mp h
  rfl

theorem labelName?_of_insert? (h : list.insert? index command = some edited) (id : LabelId) :
    edited.list.labelName? id = list.labelName? id := by
  obtain ⟨-, rfl⟩ := insert?_eq_some_iff.mp h
  rfl

theorem get?_pushed_of_insert? (h : list.insert? index command = some edited) (place : Nat) :
    edited.list.get? (pushed index place) = list.get? place := by
  rw [get?, commands_of_insert? h]
  exact getElem?_insertIdx_pushed command

theorem wordLen_of_insert? (h : list.insert? index command = some edited) :
    edited.list.wordLen = list.wordLen + command.wordLen := by
  obtain ⟨hindex, -⟩ := insert?_eq_some_iff.mp h
  have hend := wordsBefore_insertIdx_succ command hindex hindex
  unfold wordsBefore at hend
  rw [← commands_of_insert? h, List.take_of_length_le, List.take_of_length_le] at hend
  · rwa [wordLen, wordCount_eq_streamLen, wordLen, wordCount_eq_streamLen]
  · exact Nat.le_refl _
  · rw [commands_of_insert? h, List.length_insertIdx_of_le_length hindex]
    exact Nat.le_refl _

/-- What has been put in can be taken out again, and then the list is as it was. -/
theorem remove_of_insert? (h : list.insert? index command = some edited) :
    edited.list.remove index = ⟨list, some command, some (.removed index)⟩ := by
  rw [remove, get?_self_of_insert? h]
  obtain ⟨-, rfl⟩ := insert?_eq_some_iff.mp h
  simp only [List.eraseIdx_insertIdx_self]

end CommandList

end SpriteBytecode
