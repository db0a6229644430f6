import SpriteBytecode.CommandList.LabelTable

/-!
A command list made ready for being run: its commands by index, and the table of its labels. Both
say what the list says (`get?_eq`, `findLabel?_eq`, `labelName?_eq`).
-/

set_option autoImplicit false
set_option relaxedAutoImplicit false

namespace SpriteBytecode

structure Program where
  list : CommandList
  commands : Array Command
  labels : LabelTable
  commands_eq : commands = list.commands.toArray
  labels_eq : labels = list.labelTable

def CommandList.program (list : CommandList) : Program where
  list := list
  commands := list.commands.toArray
  labels := list.labelTable
  commands_eq := rfl
  labels_eq := rfl

namespace Program

@[inline] def get? (program : Program) (index : Nat) : Option Command := program.commands[index]?

@[inline] def findLabel? (program : Program) (id : LabelId) : Option Nat := program.labels.place? id

def labelName? (program : Program) (id : LabelId) : Option String := program.labels.name? id

@[simp] theorem get?_eq (program : Program) (index : Nat) :
    program.get? index = program.list.get? index := by
  rw [get?, program.commands_eq, List.getElem?_toArray]
  rfl

@[simp] theorem findLabel?_eq (program : Program) (id : LabelId) :
    program.findLabel? id = program.list.findLabel? id := by
  rw [findLabel?, program.labels_eq, CommandList.place?_labelTable]

@[simp] theorem labelName?_eq (program : Program) (id : LabelId) :
    program.labelName? id = program.list.labelName? id := by
  rw [labelName?, program.labels_eq, CommandList.name?_labelTable]

end Program

end SpriteBytecode
