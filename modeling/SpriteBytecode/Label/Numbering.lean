/-!
Numbers for word positions, in the order in which they first occur. Marks and numbers are kept by
position, so that neither has to be searched for; what comes out is what a search in the list of
positions finds (`firsts_eq`, `number_ofList`).
-/

set_option autoImplicit false
set_option relaxedAutoImplicit false

namespace SpriteBytecode

namespace Numbering

/-- All positions lie below it. -/
def bound : List UInt16 → Nat
  | [] => 0
  | position :: rest => max (position.toNat + 1) (bound rest)

/-- First occurrences of the positions that have no mark yet. -/
def firstsFrom (marks : Array Bool) : List UInt16 → List UInt16
  | [] => []
  | position :: rest =>
    if marks[position.toNat]?.getD false then firstsFrom marks rest
    else position :: firstsFrom (marks.setIfInBounds position.toNat true) rest

/-- Distinct positions in the order of their first occurrence. -/
def firsts (positions : List UInt16) : List UInt16 :=
  firstsFrom (Array.replicate (bound positions) false) positions

/-- Numbers by position, from `number` on; a position that does not occur has the one behind the
last. -/
def numbersFrom (size number : Nat) : List UInt16 → Array Nat
  | [] => Array.replicate size number
  | position :: rest =>
    (numbersFrom size (number + 1) rest).setIfInBounds position.toNat number

end Numbering

structure Numbering where
  numbers : Array Nat
  /-- The number of a position beyond the others. -/
  next : Nat

namespace Numbering

def ofList (positions : List UInt16) : Numbering :=
  ⟨numbersFrom (bound positions) 0 positions, positions.length⟩

def number (numbering : Numbering) (position : UInt16) : Nat :=
  numbering.numbers[position.toNat]?.getD numbering.next

theorem lt_bound_of_mem {positions : List UInt16} {position : UInt16} (h : position ∈ positions) :
    position.toNat < bound positions := by
  induction positions with
  | nil => simp at h
  | cons other rest ih =>
    rw [bound]
    rcases List.mem_cons.mp h with rfl | h
    · omega
    · have := ih h
      omega

theorem firstsFrom_eq (marks : Array Bool) (positions : List UInt16)
    (h : ∀ position ∈ positions, position.toNat < marks.size) :
    firstsFrom marks positions =
      (positions.filter fun position ↦ !marks[position.toNat]?.getD false).eraseDups := by
  induction positions generalizing marks with
  | nil => simp [firstsFrom]
  | cons position rest ih =>
    have hrest : ∀ other ∈ rest, other.toNat < marks.size :=
      fun other ho ↦ h other (List.mem_cons_of_mem position ho)
    rw [firstsFrom]
    cases hm : marks[position.toNat]?.getD false
    · rw [if_neg Bool.false_ne_true, ih _ (by simpa using hrest), List.filter_cons_of_pos
        (by simp [hm]), List.eraseDups_cons, List.filter_filter]
      congr 3
      funext other
      rw [Array.getElem?_setIfInBounds]
      by_cases ho : position = other
      · subst ho
        simp [h position List.mem_cons_self]
      · have hne : ¬ position.toNat = other.toNat := fun heq ↦ ho (UInt16.toNat_inj.mp heq)
        simp [hne, Ne.symm ho]
    · simp [hm, ih _ hrest]

theorem firsts_eq (positions : List UInt16) : firsts positions = positions.eraseDups := by
  rw [firsts, firstsFrom_eq _ _ (by simpa using fun _ h ↦ lt_bound_of_mem h),
    List.filter_eq_self.mpr]
  intro position h
  simp [lt_bound_of_mem h]

theorem size_numbersFrom (size number : Nat) (positions : List UInt16) :
    (numbersFrom size number positions).size = size := by
  induction positions generalizing number with
  | nil => simp [numbersFrom]
  | cons position rest ih => simp [numbersFrom, ih]

theorem getElem?_numbersFrom (size number : Nat) (positions : List UInt16) {position : UInt16}
    (h : position.toNat < size) :
    (numbersFrom size number positions)[position.toNat]? =
      some (positions.idxOf position + number) := by
  induction positions generalizing number with
  | nil => simp [numbersFrom, h]
  | cons other rest ih =>
    rw [numbersFrom, Array.getElem?_setIfInBounds, List.idxOf_cons]
    by_cases ho : other = position
    · simp [ho, size_numbersFrom, h]
    · have hne : ¬ other.toNat = position.toNat := fun heq ↦ ho (UInt16.toNat_inj.mp heq)
      simp [hne, ih, beq_eq_false_iff_ne.mpr ho, Nat.add_assoc, Nat.add_comm 1]

@[simp] theorem number_ofList (positions : List UInt16) (position : UInt16) :
    (ofList positions).number position = positions.idxOf position := by
  rw [number, ofList]
  by_cases h : position.toNat < bound positions
  · simp [getElem?_numbersFrom _ _ _ h]
  · rw [Array.getElem?_eq_none (by simpa [size_numbersFrom] using h),
      List.idxOf_eq_length fun hm ↦ h (lt_bound_of_mem hm)]
    rfl

end Numbering

end SpriteBytecode
