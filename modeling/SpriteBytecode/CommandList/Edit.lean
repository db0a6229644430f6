import SpriteBytecode.CommandList.Basic

/-!
Edits of a command list. Every edit gives the list after it, its own outcome, and the change that
an observer of the list is told of. An edit that fails leaves the list alone and tells nothing.
Beside every edit stands what is found in the list behind it, index by index or handle by handle.
-/

set_option autoImplicit false
set_option relaxedAutoImplicit false

namespace SpriteBytecode

/-- What an observer learns of an edit; indices are those of the commands. -/
inductive ListChange where
  | inserted (index : Nat)
  | removed (index : Nat)
  | replaced (index : Nat)
  | moved (source destination : Nat)
  | renamed (id : LabelId)
  | reloaded
  deriving DecidableEq

structure Edited (α : Type) where
  list : CommandList
  outcome : α
  change? : Option ListChange

theorem getElem?_concat {α : Type} (values : List α) (last : α) (index : Nat) :
    (values ++ [last])[index]? = if index = values.length then some last else values[index]? := by
  grind

namespace CommandList

variable (list : CommandList)

/-- Registers a name. The label has no marker yet, so no command changes. -/
def addLabel (list : CommandList) (name : String) : Edited LabelId where
  list := { list with labelNames := list.labelNames ++ [name] }
  outcome := ⟨list.labelNames.length⟩
  change? := none

theorem labelName?_addLabel (name : String) (id : LabelId) :
    (list.addLabel name).list.labelName? id =
      if id = (list.addLabel name).outcome then some name else list.labelName? id := by
  have hnew : id = (list.addLabel name).outcome ↔ id.index = list.labelNames.length := by
    rw [addLabel, ← LabelId.mk.injEq]
  simp only [hnew]
  exact getElem?_concat list.labelNames name id.index

/-- Fails for a handle from another list. -/
def renameLabel (list : CommandList) (id : LabelId) (name : String) : Edited Bool :=
  if id.index < list.labelNames.length then
    ⟨{ list with labelNames := list.labelNames.set id.index name }, true, some (.renamed id)⟩
  else ⟨list, false, none⟩

theorem commands_renameLabel (id : LabelId) (name : String) :
    (list.renameLabel id name).list.commands = list.commands := by
  unfold renameLabel
  split <;> rfl

theorem length_labelNames_renameLabel (id : LabelId) (name : String) :
    (list.renameLabel id name).list.labelNames.length = list.labelNames.length := by
  unfold renameLabel
  split
  · exact List.length_set
  · rfl

/-- A rename gives a label of the arena its name, and no other label. -/
theorem labelName?_renameLabel (id other : LabelId) (name : String) :
    (list.renameLabel id name).list.labelName? other =
      if other = id then (list.labelName? id).map fun _ ↦ name else list.labelName? other := by
  have hindex : id.index = other.index ↔ other = id := by
    rw [eq_comm, ← LabelId.mk.injEq]
  unfold renameLabel labelName?
  by_cases hid : other = id
  · subst hid
    split
    · next h => simp [h]
    · next h => simp [List.getElem?_eq_none (Nat.le_of_not_lt h)]
  · rw [if_neg hid]
    split
    · exact List.getElem?_set_ne (mt hindex.mp hid)
    · rfl

def push (list : CommandList) (command : Command) : Edited Unit where
  list := { list with commands := list.commands ++ [command] }
  outcome := ()
  change? := some (.inserted list.length)

theorem get?_push (command : Command) (index : Nat) :
    (list.push command).list.get? index =
      if index = list.length then some command else list.get? index :=
  getElem?_concat list.commands command index

/-- Later commands move up by one. There is no place beyond the end to insert at. -/
def insert? (list : CommandList) (index : Nat) (command : Command) : Option (Edited Unit) :=
  if index ≤ list.length then
    some ⟨{ list with commands := list.commands.insertIdx index command }, (),
      some (.inserted index)⟩
  else none

section Insert

variable {list} {index : Nat} {command : Command} {edited : Edited Unit}

theorem insert?_eq_some_iff :
    list.insert? index command = some edited ↔
      index ≤ list.length ∧
        edited = ⟨{ list with commands := list.commands.insertIdx index command }, (),
          some (.inserted index)⟩ := by
  unfold insert?
  split
  · next hle => simp [hle, eq_comm]
  · next hgt => simp [hgt]

theorem get?_of_insert? (h : list.insert? index command = some edited) (other : Nat) :
    edited.list.get? other =
      if other < index then list.get? other
      else if other = index then some command else list.get? (other - 1) := by
  obtain ⟨hle, rfl⟩ := insert?_eq_some_iff.mp h
  have hle : index ≤ list.commands.length := hle
  unfold get?
  rw [List.getElem?_insertIdx]
  by_cases hother : other = index
  · simp only [hother, if_pos hle]
  · simp only [if_neg hother]

theorem get?_self_of_insert? (h : list.insert? index command = some edited) :
    edited.list.get? index = some command := by
  rw [get?_of_insert? h, if_neg (Nat.lt_irrefl index), if_pos rfl]

end Insert

/-- The outcome is the command taken out. -/
def remove (list : CommandList) (index : Nat) : Edited (Option Command) :=
  match list.get? index with
  | some command =>
    ⟨{ list with commands := list.commands.eraseIdx index }, some command, some (.removed index)⟩
  | none => ⟨list, none, none⟩

theorem outcome_remove (index : Nat) : (list.remove index).outcome = list.get? index := by
  unfold remove
  split
  · next hget => exact hget.symm
  · next hget => exact hget.symm

/-- Later commands move down by one. -/
theorem get?_remove (index other : Nat) :
    (list.remove index).list.get? other =
      list.get? (if other < index then other else other + 1) := by
  unfold remove
  split
  · show (list.commands.eraseIdx index)[other]? = _
    rw [List.getElem?_eraseIdx]
    split <;> rfl
  · next hnone =>
    have hlength := List.getElem?_eq_none_iff.mp hnone
    show list.commands[other]? = list.commands[if other < index then other else other + 1]?
    split
    · rfl
    · rw [List.getElem?_eq_none (by omega), List.getElem?_eq_none (by omega)]

/-- The outcome is the command that stood there before. -/
def replace (list : CommandList) (index : Nat) (command : Command) : Edited (Option Command) :=
  match list.get? index with
  | some previous =>
    ⟨{ list with commands := list.commands.set index command }, some previous,
      some (.replaced index)⟩
  | none => ⟨list, none, none⟩

theorem outcome_replace (index : Nat) (command : Command) :
    (list.replace index command).outcome = list.get? index := by
  unfold replace
  split
  · next hget => exact hget.symm
  · next hget => exact hget.symm

theorem get?_replace (index other : Nat) (command : Command) :
    (list.replace index command).list.get? other =
      if other = index then (list.get? index).map fun _ ↦ command else list.get? other := by
  unfold replace
  by_cases hother : other = index
  · subst hother
    rw [if_pos rfl]
    split
    · next previous hget =>
      rw [hget, Option.map_some]
      exact List.getElem?_set_self (List.getElem?_eq_some_iff.mp hget).1
    · next hget => rw [hget, Option.map_none]
  · rw [if_neg hother]
    split
    · exact List.getElem?_set_ne (Ne.symm hother)
    · rfl

/-- The command at `source` ends up at `destination`. -/
def move (list : CommandList) (source destination : Nat) : Edited Bool :=
  match list.get? source with
  | some command =>
    if destination < list.length then
      ⟨{ list with commands := (list.commands.eraseIdx source).insertIdx destination command },
        true, some (.moved source destination)⟩
    else ⟨list, false, none⟩
  | none => ⟨list, false, none⟩

section Move

variable {source destination : Nat} {command : Command} (hsource : list.get? source = some command)
  (hdestination : destination < list.length)

include hsource hdestination

theorem move_eq :
    list.move source destination =
      ⟨{ list with commands := (list.commands.eraseIdx source).insertIdx destination command },
        true, some (.moved source destination)⟩ := by
  unfold move
  rw [hsource]
  exact if_pos hdestination

theorem get?_move_destination :
    (list.move source destination).list.get? destination = some command := by
  have hlength := List.length_eraseIdx_of_lt (List.getElem?_eq_some_iff.mp hsource).1
  unfold length at hdestination
  rw [list.move_eq hsource hdestination, get?, List.getElem?_insertIdx_self,
    if_pos (by omega)]

/-- The other commands keep their order: what is left without the command is the same as before. -/
theorem remove_move :
    ((list.move source destination).list.remove destination).list = (list.remove source).list := by
  have hmoved := list.get?_move_destination hsource hdestination
  unfold remove
  rw [hmoved, hsource, list.move_eq hsource hdestination]
  exact congrArg (CommandList.mk · list.labelNames) (List.eraseIdx_insertIdx_self command)

end Move

/-- Takes over the commands and labels of `other`. -/
def reload (_list other : CommandList) : Edited Unit := ⟨other, (), some .reloaded⟩

theorem list_reload (other : CommandList) : (list.reload other).list = other := rfl

end CommandList

/-- A list that an observer may be watching. -/
structure WatchedList where
  list : CommandList
  observed : Bool

namespace WatchedList

/-- Puts an edit into effect; the second part is what the observer sees of it. -/
def commit {α : Type} (watched : WatchedList) (edited : Edited α) :
    WatchedList × List ListChange :=
  ({ watched with list := edited.list }, if watched.observed then edited.change?.toList else [])

end WatchedList

end SpriteBytecode
