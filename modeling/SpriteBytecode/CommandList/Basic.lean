import SpriteBytecode.Instruction.Basic

/-!
The editable form of an animation: commands in order, among them zero-width label markers. Jumps
refer to labels by handles into the list's arena of names, so that renaming a label or moving its
marker leaves the jumps to it alone. A handle can outlive its marker, and a handle from another
list may name nothing here.
-/

set_option autoImplicit false
set_option relaxedAutoImplicit false

namespace SpriteBytecode

/-- A label's place in the arena of its list. -/
structure LabelId where
  index : Nat
  deriving DecidableEq

abbrev Command := Instruction LabelId

/-- Stream words that commands take up together. -/
def wordCount : List Command → Nat
  | [] => 0
  | command :: rest => command.wordLen + wordCount rest

structure CommandList where
  commands : List Command
  labelNames : List String
  deriving DecidableEq

namespace CommandList

def empty : CommandList := ⟨[], []⟩

def length (list : CommandList) : Nat := list.commands.length

def get? (list : CommandList) (index : Nat) : Option Command := list.commands[index]?

/-- Words that the list assembles to. -/
def wordLen (list : CommandList) : Nat := wordCount list.commands

/-- Words in front of the command at `index`; the end of the list counts as an index. -/
def wordOffset? (list : CommandList) (index : Nat) : Option Nat :=
  if index ≤ list.length then some (wordCount (list.commands.take index)) else none

/-- Running sums of word lengths, from `offset` on. -/
def offsetsFrom (offset : Nat) : List Command → List Nat
  | [] => [offset]
  | command :: rest => offset :: offsetsFrom (offset + command.wordLen) rest

/-- The word offset of every index, the end of the list included. -/
def wordOffsets (list : CommandList) : List Nat := offsetsFrom 0 list.commands

def labelName? (list : CommandList) (id : LabelId) : Option String := list.labelNames[id.index]?

/-- The index of the label's first marker. -/
def findLabel? (list : CommandList) (id : LabelId) : Option Nat :=
  list.commands.findIdx? (· == .label id)

def labelOf? : Command → Option LabelId
  | .label id => some id
  | _ => none

/-- Labels that have a marker, in list order. -/
def labels (list : CommandList) : List LabelId := list.commands.filterMap labelOf?

/-- The first placed label of that name. -/
def labelByName? (list : CommandList) (name : String) : Option LabelId :=
  list.labels.find? fun id ↦ list.labelName? id == some name

theorem wordCount_append (front back : List Command) :
    wordCount (front ++ back) = wordCount front + wordCount back := by
  induction front with
  | nil => simp [wordCount]
  | cons command rest ih => simp [wordCount, ih, Nat.add_assoc]

theorem length_offsetsFrom (offset : Nat) (commands : List Command) :
    (offsetsFrom offset commands).length = commands.length + 1 := by
  induction commands generalizing offset with
  | nil => rfl
  | cons command rest ih => simp [offsetsFrom, ih]

theorem getElem?_offsetsFrom (offset index : Nat) (commands : List Command) :
    (offsetsFrom offset commands)[index]? =
      if index ≤ commands.length then some (offset + wordCount (commands.take index))
      else none := by
  induction commands generalizing offset index with
  | nil => cases index <;> simp [offsetsFrom, wordCount]
  | cons command rest ih =>
    cases index with
    | zero => simp [offsetsFrom, wordCount]
    | succ index => simp [offsetsFrom, wordCount, ih, Nat.add_assoc]

theorem getElem?_wordOffsets (list : CommandList) (index : Nat) :
    list.wordOffsets[index]? = list.wordOffset? index := by
  rw [wordOffsets, getElem?_offsetsFrom, Nat.zero_add]
  rfl

theorem wordOffset?_length (list : CommandList) :
    list.wordOffset? list.length = some list.wordLen := by
  simp [wordOffset?, wordLen, length]

end CommandList

end SpriteBytecode
