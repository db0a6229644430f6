import SpriteBytecode.CommandList.Basic

/-!
What a command list says of its labels, found once and not at every jump: the names of the arena,
and the place of every label's first marker. A table answers as its list does (`name?_labelTable`,
`place?_labelTable`), also for handles that come from other lists.
-/

set_option autoImplicit false
set_option relaxedAutoImplicit false

namespace SpriteBytecode

structure LabelTable where
  names : Array String
  /-- Places of first markers, for the labels of the arena. -/
  places : Array (Option Nat)
  /-- Places of first markers that stand for labels of other lists. -/
  strays : List (LabelId × Nat)

namespace LabelTable

def name? (table : LabelTable) (id : LabelId) : Option String := table.names[id.index]?

@[inline] def place? (table : LabelTable) (id : LabelId) : Option Nat :=
  match table.places[id.index]? with
  | some place? => place?
  | none => (table.strays.find? (·.1 == id)).map (·.2)

end LabelTable

namespace CommandList

/-- Places of first markers by label, for `size` labels; `index` is that of the first command. -/
def placesFrom (size index : Nat) : List Command → Array (Option Nat)
  | [] => Array.replicate size none
  | command :: rest =>
    match labelOf? command with
    | some id => (placesFrom size (index + 1) rest).setIfInBounds id.index (some index)
    | none => placesFrom size (index + 1) rest

/-- Places of first markers whose labels are not among the `size` labels of the arena. -/
def straysFrom (size index : Nat) : List Command → List (LabelId × Nat)
  | [] => []
  | command :: rest =>
    match labelOf? command with
    | some id =>
      if id.index < size then straysFrom size (index + 1) rest
      else (id, index) :: (straysFrom size (index + 1) rest).filter (·.1 != id)
    | none => straysFrom size (index + 1) rest

def labelTable (list : CommandList) : LabelTable where
  names := list.labelNames.toArray
  places := placesFrom list.labelNames.length 0 list.commands
  strays := straysFrom list.labelNames.length 0 list.commands

theorem size_placesFrom (size index : Nat) (commands : List Command) :
    (placesFrom size index commands).size = size := by
  induction commands generalizing index with
  | nil => simp [placesFrom]
  | cons command rest ih =>
    unfold placesFrom
    split <;> simp [ih]

theorem labelOf?_eq_some_iff (command : Command) (id : LabelId) :
    labelOf? command = some id ↔ command = .label id := by
  cases command <;> simp [labelOf?]

/-- The first marker of a label is the first command or a later one. -/
theorem findIdx?_label_cons (command : Command) (rest : List Command) (id : LabelId)
    (index : Nat) :
    ((command :: rest).findIdx? (· == .label id)).map (· + index) =
      if labelOf? command = some id then some index
      else (rest.findIdx? (· == .label id)).map (· + (index + 1)) := by
  rw [List.findIdx?_cons]
  by_cases h : command = .label id
  · simp [h, labelOf?]
  · rw [if_neg fun hl ↦ h ((labelOf?_eq_some_iff command id).mp hl), beq_eq_false_iff_ne.mpr h]
    simp [Function.comp_def, Nat.add_assoc, Nat.add_comm 1]

theorem getElem?_placesFrom (size index : Nat) (commands : List Command) {id : LabelId}
    (h : id.index < size) :
    (placesFrom size index commands)[id.index]? =
      some ((commands.findIdx? (· == .label id)).map (· + index)) := by
  induction commands generalizing index with
  | nil => simp [placesFrom, h]
  | cons command rest ih =>
    rw [findIdx?_label_cons, placesFrom]
    cases hl : labelOf? command with
    | none => simp [ih]
    | some other =>
      simp only [Option.some.injEq, Array.getElem?_setIfInBounds, size_placesFrom, ih]
      by_cases hid : other = id
      · simp [hid, h]
      · have hne : ¬ other.index = id.index := fun heq ↦ hid (by cases other; cases id; simp_all)
        simp [hid, hne]

theorem find?_straysFrom (size index : Nat) (commands : List Command) {id : LabelId}
    (h : ¬ id.index < size) :
    ((straysFrom size index commands).find? (·.1 == id)).map (·.2) =
      (commands.findIdx? (· == .label id)).map (· + index) := by
  induction commands generalizing index with
  | nil => rfl
  | cons command rest ih =>
    rw [findIdx?_label_cons, straysFrom, ← ih]
    cases hl : labelOf? command with
    | none => simp
    | some other =>
      by_cases hid : other = id
      · simp [hid, h]
      · have hfilter : (fun entry : LabelId × Nat ↦
            decide ((entry.1 != other) = true ∧ (entry.1 == id) = true)) = (·.1 == id) := by
          funext entry
          by_cases he : entry.1 = id
          · simp [he, Ne.symm hid]
          · simp [he]
        by_cases hs : other.index < size
        · simp [hid, hs]
        · simp only [if_neg hs, List.find?_cons, beq_eq_false_iff_ne.mpr hid, List.find?_filter,
            hfilter, Option.some.injEq, if_neg hid]

@[simp] theorem name?_labelTable (list : CommandList) (id : LabelId) :
    list.labelTable.name? id = list.labelName? id := by
  simp [labelTable, LabelTable.name?, labelName?]

@[simp] theorem place?_labelTable (list : CommandList) (id : LabelId) :
    list.labelTable.place? id = list.findLabel? id := by
  unfold LabelTable.place?
  by_cases h : id.index < list.labelNames.length
  · simp [labelTable, getElem?_placesFrom _ _ _ h, findLabel?]
  · have hsize : list.labelTable.places.size ≤ id.index := by
      simpa [labelTable, size_placesFrom] using h
    rw [Array.getElem?_eq_none hsize]
    simpa [labelTable, findLabel?] using find?_straysFrom _ 0 list.commands h

end CommandList

end SpriteBytecode
