/-!
Classes of characters as tables of code points. A table lists closed ranges in ascending order, so
that a search can stop at the first range behind the character; for such a table the search finds
what a look at every range would find.
-/

set_option autoImplicit false
set_option relaxedAutoImplicit false

namespace SpriteBytecode

/-- The first and the last code point of a run. -/
abbrev CodeRange := Nat × Nat

namespace CodeRange

/-- No range is empty, and each starts behind the one before it. -/
def ascending : List CodeRange → Bool
  | [] => true
  | [range] => range.1 ≤ range.2
  | range :: next :: rest => range.1 ≤ range.2 && range.2 < next.1 && ascending (next :: rest)

/-- Looks a code point up in an ascending table. -/
def covers (code : Nat) : List CodeRange → Bool
  | [] => false
  | range :: rest => if code < range.1 then false else code ≤ range.2 || covers code rest

theorem first_le_of_mem {range : CodeRange} {rest : List CodeRange}
    (h : ascending (range :: rest) = true) {other : CodeRange} (hm : other ∈ rest) :
    range.1 ≤ other.1 := by
  induction rest generalizing range with
  | nil => cases hm
  | cons next rest ih =>
    simp only [ascending, Bool.and_eq_true, decide_eq_true_eq] at h
    rcases List.mem_cons.mp hm with rfl | hm
    · omega
    · have := ih h.2 hm
      omega

theorem ascending_tail {range : CodeRange} {rest : List CodeRange}
    (h : ascending (range :: rest) = true) : ascending rest = true := by
  cases rest with
  | nil => rfl
  | cons next rest =>
    simp only [ascending, Bool.and_eq_true] at h
    exact h.2

theorem covers_iff {ranges : List CodeRange} (h : ascending ranges = true) (code : Nat) :
    covers code ranges = true ↔ ∃ range ∈ ranges, range.1 ≤ code ∧ code ≤ range.2 := by
  induction ranges with
  | nil => simp [covers]
  | cons range rest ih =>
    unfold covers
    split
    · next hlt =>
      simp only [Bool.false_eq_true, List.mem_cons, false_iff, not_exists, not_and]
      rintro other (rfl | hm) hle
      · omega
      · have := first_le_of_mem h hm
        omega
    · next hge =>
      simp only [Bool.or_eq_true, decide_eq_true_eq, ih (ascending_tail h), List.mem_cons,
        exists_eq_or_imp]
      constructor
      · rintro (hle | hr)
        · exact .inl ⟨by omega, hle⟩
        · exact .inr hr
      · rintro (hr | hr)
        · exact .inl hr.2
        · exact .inr hr

end CodeRange

end SpriteBytecode
