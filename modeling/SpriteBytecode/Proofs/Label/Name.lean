import SpriteBytecode.Label.Name

/-!
Which names pin a position. An escape pins the position that it was made for, and no name that is
made without a hint pins any (`unescape?_escape`, `unescape?_unhinted`), so that a given name pins a
position only if its hint does (`unescape?_ofPosition`). Names made without a hint tell their
positions apart (`unhinted_inj`).
-/

set_option autoImplicit false
set_option relaxedAutoImplicit false

namespace SpriteBytecode.Hexadecimal

/-- Numbers are told apart by their digits. -/
theorem ofNat_inj {first second : Nat} : ofNat first = ofNat second ↔ first = second := by
  constructor
  · intro h
    have hdigits : digits first = digits second := String.ofList_injective h
    rw [← Option.some.injEq, ← value?_digits first, hdigits, value?_digits]
  · rintro rfl
    rfl

end SpriteBytecode.Hexadecimal

namespace SpriteBytecode.LabelName

theorem digits_ne_nil (n : Nat) : Hexadecimal.digits n ≠ [] := by
  unfold Hexadecimal.digits
  split <;> simp

theorem unescape?_escape (position : UInt16) : unescape? (escape position) = some position := by
  have hempty : (Hexadecimal.digits position.toNat).isEmpty = false := by
    rw [List.isEmpty_eq_false_iff]
    exact digits_ne_nil position.toNat
  have hlt : position.toNat < 0x10000 := position.toNat_lt
  have hchars : (escape position).toList = '#' :: Hexadecimal.digits position.toNat := by
    simp [escape, Hexadecimal.ofNat]
  rw [unescape?, hchars, unescapeChars?, hempty, Hexadecimal.value?_digits]
  simp [hlt]

theorem unescapeChars?_cons_of_ne {c : Char} (h : c ≠ '#') (rest : List Char) :
    unescapeChars? (c :: rest) = none := by
  unfold unescapeChars?
  split
  · next heq => exact absurd (List.cons_eq_cons.mp heq).1 h
  · rfl

theorem unescape?_empty : unescape? "" = none := rfl

theorem unescape?_start : unescape? start = none := rfl

theorem unescape?_unhinted (position : UInt16) :
    unescape? (ofPosition.unhinted position) = none := by
  unfold ofPosition.unhinted
  split
  · exact unescape?_start
  · have hchars : ("Pos_" ++ Hexadecimal.ofNat position.toNat).toList =
        'P' :: 'o' :: 's' :: '_' :: Hexadecimal.digits position.toNat := by
      simp [Hexadecimal.ofNat]
    rw [unescape?, hchars]
    exact unescapeChars?_cons_of_ne (by decide) _

/-- A given name pins what its hint pins. -/
theorem unescape?_ofPosition (hints : LabelHints) (position : UInt16) :
    unescape? (ofPosition hints position) = (hints.get? position).bind unescape? := by
  unfold ofPosition
  split
  · next name hname =>
    rw [hname, Option.bind_some]
    split
    · next hempty => rw [String.isEmpty_iff.mp hempty, unescape?_unhinted, unescape?_empty]
    · rfl
  · next hnone => rw [hnone, Option.bind_none, unescape?_unhinted]

theorem unhinted_ne_empty (position : UInt16) : ofPosition.unhinted position ≠ "" := by
  unfold ofPosition.unhinted
  split
  · decide
  · simp

theorem ofPosition_ne_empty (hints : LabelHints) (position : UInt16) :
    ofPosition hints position ≠ "" := by
  unfold ofPosition
  split
  · next name _ =>
    split
    · exact unhinted_ne_empty position
    · next hempty => exact mt String.isEmpty_iff.mpr hempty
  · exact unhinted_ne_empty position

theorem ofPosition_of_get? {hints : LabelHints} {position : UInt16} {name : String}
    (h : hints.get? position = some name) (hname : name ≠ "") :
    ofPosition hints position = name := by
  unfold ofPosition
  rw [h]
  exact if_neg (mt String.isEmpty_iff.mp hname)

theorem ofPosition_of_get?_eq_none {hints : LabelHints} {position : UInt16}
    (h : hints.get? position = none) :
    ofPosition hints position = ofPosition.unhinted position := by
  unfold ofPosition
  rw [h]

theorem start_ne_pos (position : UInt16) : start ≠ "Pos_" ++ Hexadecimal.ofNat position.toNat := by
  intro h
  have hchars := congrArg String.toList h
  rw [String.toList_append] at hchars
  exact absurd (List.cons_eq_cons.mp hchars).1 (by decide)

theorem unhinted_inj {first second : UInt16} :
    ofPosition.unhinted first = ofPosition.unhinted second ↔ first = second := by
  constructor
  · intro h
    unfold ofPosition.unhinted at h
    split at h
    · next hfirst =>
      split at h
      · next hsecond => rw [hfirst, hsecond]
      · exact absurd h (start_ne_pos second)
    · split at h
      · exact absurd h.symm (start_ne_pos first)
      · rw [String.append_right_inj, Hexadecimal.ofNat_inj] at h
        exact UInt16.toNat_inj.mp h
  · rintro rfl
    rfl

end SpriteBytecode.LabelName
