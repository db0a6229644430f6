/-!
Label hints: names by word position, kept beside a stream so that a later reading of it can give
its jump targets their names back. Positions stand in ascending order, one name for each.
-/

set_option autoImplicit false
set_option relaxedAutoImplicit false

namespace SpriteBytecode

structure LabelHints where
  entries : List (UInt16 × String)
  deriving DecidableEq

namespace LabelHints

def empty : LabelHints := ⟨[]⟩

def get? (hints : LabelHints) (position : UInt16) : Option String :=
  hints.entries.lookup position

def insertEntry (position : UInt16) (name : String) :
    List (UInt16 × String) → List (UInt16 × String)
  | [] => [(position, name)]
  | (other, otherName) :: rest =>
    if position.toNat < other.toNat then (position, name) :: (other, otherName) :: rest
    else if position = other then (position, name) :: rest
    else (other, otherName) :: insertEntry position name rest

/-- A position that already has a name gets the new one. -/
def insert (hints : LabelHints) (position : UInt16) (name : String) : LabelHints :=
  ⟨insertEntry position name hints.entries⟩

def size (hints : LabelHints) : Nat := hints.entries.length

@[simp] theorem get?_empty (position : UInt16) : empty.get? position = none := rfl

theorem lookup_cons_ite (position key : UInt16) (name : String)
    (rest : List (UInt16 × String)) :
    ((key, name) :: rest).lookup position =
      if position = key then some name else rest.lookup position := by
  rw [List.lookup_cons]
  by_cases h : position = key
  · simp [h]
  · have : (position == key) = false := by simpa using h
    simp [this, h]

theorem lookup_insertEntry (position other : UInt16) (name : String)
    (entries : List (UInt16 × String)) :
    (insertEntry position name entries).lookup other =
      if other = position then some name else entries.lookup other := by
  induction entries with
  | nil => rw [insertEntry, lookup_cons_ite]
  | cons entry rest ih =>
    obtain ⟨key, keyName⟩ := entry
    unfold insertEntry
    split
    · rw [lookup_cons_ite]
    · split
      · next h => subst h; simp only [lookup_cons_ite]; split <;> rfl
      · next h =>
        simp only [lookup_cons_ite, ih]
        by_cases hk : other = key
        · subst hk; simp [Ne.symm h]
        · simp [hk]

theorem get?_insert (hints : LabelHints) (position other : UInt16) (name : String) :
    (hints.insert position name).get? other =
      if other = position then some name else hints.get? other :=
  lookup_insertEntry position other name hints.entries

end LabelHints

end SpriteBytecode
