import Mathlib.Data.List.Forall2
import SpriteBytecode.Proofs.Text.Hexadecimal
import SpriteBytecode.Stream.Text

/-!
Which texts are words, and which words they are. A text is accepted exactly if it consists of digits
in fours, once its separators are taken out (`exists_parse_eq_ok_iff`), and its words are the
numbers of the fours in order (`words?_eq_some_iff`). So neither the case of a digit nor a separator
has a say (`words?_of_respelled`): what was written is read again in all its spellings
(`parse_of_respelled`), and writing what was read gives the one text in capital letters with a blank
between words (`format_of_parse`).
-/

set_option autoImplicit false
set_option relaxedAutoImplicit false

namespace SpriteBytecode.StreamText

open Hexadecimal

/-! ### Groups of four -/

/-- Groups of four; what is left over is in none. -/
def quads {α : Type} : List α → List (List α)
  | a :: b :: c :: d :: rest => [a, b, c, d] :: quads rest
  | _ => []

/-- The group has four digits, and its number is the word. -/
structure Reads (group : List Char) (word : UInt16) : Prop where
  length_eq : group.length = 4
  value_eq : value? group = some word.toNat

theorem words?_cons (a b c d : Char) (rest : List Char) :
    words? (a :: b :: c :: d :: rest) =
      (value? [a, b, c, d]).bind fun value ↦ (words? rest).map (UInt16.ofNat value :: ·) := by
  rw [words?]
  rcases value? [a, b, c, d] with - | value
  · rfl
  · rcases words? rest with - | words <;> rfl

theorem words?_eq_some_iff : ∀ (digits : List Char) (words : List UInt16),
    words? digits = some words ↔ 4 ∣ digits.length ∧ List.Forall₂ Reads (quads digits) words
  | [], words => by
    simp [words?, quads, eq_comm]
  | [_], words | [_, _], words | [_, _, _], words => by
    refine iff_of_false (by simp [words?]) ?_
    rintro ⟨hlength, -⟩
    exact absurd hlength (by simp)
  | a :: b :: c :: d :: rest, words => by
    have hlength : 4 ∣ (a :: b :: c :: d :: rest).length ↔ 4 ∣ rest.length :=
      Nat.dvd_add_self_right
    rw [words?_cons, quads, List.forall₂_cons_left_iff, hlength]
    simp only [Option.bind_eq_some_iff, Option.map_eq_some_iff, words?_eq_some_iff rest]
    constructor
    · rintro ⟨value, hvalue, others, ⟨hfours, hothers⟩, rfl⟩
      have hlt : value < 16 ^ 4 := value?_lt hvalue
      have hword : (UInt16.ofNat value).toNat = value :=
        UInt16.toNat_ofNat_of_lt' (Nat.lt_of_lt_of_le hlt (by decide))
      exact ⟨hfours, _, others, ⟨rfl, hvalue.trans (congrArg some hword.symm)⟩, hothers, rfl⟩
    · rintro ⟨hfours, word, others, hreads, hothers, rfl⟩
      refine ⟨word.toNat, hreads.value_eq, others, ⟨hfours, hothers⟩, ?_⟩
      rw [UInt16.ofNat_toNat]

theorem isSome_words?_iff : ∀ digits : List Char,
    (words? digits).isSome = true ↔ (∀ c ∈ digits, IsDigit c) ∧ 4 ∣ digits.length
  | [] => by simp [words?]
  | [_] | [_, _] | [_, _, _] => by simp [words?]
  | a :: b :: c :: d :: rest => by
    have hrest := isSome_words?_iff rest
    have hgroup := isSome_value?_iff [a, b, c, d]
    have hlength : 4 ∣ (a :: b :: c :: d :: rest).length ↔ 4 ∣ rest.length :=
      Nat.dvd_add_self_right
    have hsplit : (∀ e ∈ a :: b :: c :: d :: rest, IsDigit e) ↔
        (∀ e ∈ [a, b, c, d], IsDigit e) ∧ ∀ e ∈ rest, IsDigit e := by
      rw [← List.forall_mem_append]
      rfl
    rw [words?_cons, hlength, hsplit, and_assoc, ← hgroup, ← hrest]
    rcases value? [a, b, c, d] with - | value
    · simp
    · simp

/-! ### Reading -/

theorem utf8Size_of_lt {c : Char} (h : c.toNat < 128) : c.utf8Size = 1 := by
  rw [Char.utf8Size_eq_one_iff, UInt32.le_iff_toNat_le]
  exact Nat.le_of_lt_succ h

/-- What a text is as bytes. -/
def bytesOf (text : List Char) : List UInt8 := text.flatMap String.utf8EncodeChar

theorem utf8ByteSize_ofList (text : List Char) :
    (String.ofList text).utf8ByteSize = (bytesOf text).length := by
  rw [String.utf8ByteSize, String.toByteArray_ofList, List.utf8Encode, List.size_toByteArray,
    bytesOf]

/-- Digits are one byte each. -/
theorem bytesOf_digits {digits : List Char} (h : ∀ c ∈ digits, IsDigit c) :
    bytesOf digits = digits.map Char.toUInt8 := by
  rw [bytesOf, List.map_eq_flatMap]
  apply List.flatMap_congr
  intro c hc
  exact String.utf8EncodeChar_eq_singleton (utf8Size_of_lt (toNat_lt_of_isDigit (h c hc)))

/-- The number of bytes decides only which fault it is. -/
theorem parse_eq_ok_iff (text : String) (words : List UInt16) :
    parse text = .ok words ↔ words? (strip text.toList) = some words := by
  unfold parse
  dsimp only
  by_cases hsize : (String.ofList (strip text.toList)).utf8ByteSize % 4 = 0
  · rw [if_pos hsize]
    rcases words? (strip text.toList) with - | others
    · simp
    · simp
  · rw [if_neg hsize]
    refine iff_of_false (by simp) fun hwords ↦ hsize ?_
    obtain ⟨hdigits, hfours⟩ :=
      (isSome_words?_iff _).mp (Option.isSome_iff_exists.mpr ⟨words, hwords⟩)
    rw [utf8ByteSize_ofList, bytesOf_digits hdigits, List.length_map]
    exact Nat.mod_eq_zero_of_dvd hfours

/-- The words of a text are its groups of four. -/
theorem reads_of_parse {text : String} {words : List UInt16} (h : parse text = .ok words) :
    List.Forall₂ Reads (quads (strip text.toList)) words :=
  ((words?_eq_some_iff _ _).mp ((parse_eq_ok_iff _ _).mp h)).2

theorem exists_parse_eq_ok_iff (text : String) :
    (∃ words, parse text = .ok words) ↔
      (∀ c ∈ strip text.toList, IsDigit c) ∧ 4 ∣ (strip text.toList).length := by
  rw [← isSome_words?_iff, Option.isSome_iff_exists]
  exact exists_congr fun words ↦ parse_eq_ok_iff text words

/-! ### Other spellings -/

theorem not_isSeparator_of_isDigit {c : Char} (h : IsDigit c) : isSeparator c = false := by
  have hdigits : ∀ n : Fin 16,
      isSeparator (digit n.val) = false ∧ isSeparator (digit n.val).toLower = false := by
    decide
  obtain ⟨value, hvalue⟩ := Option.isSome_iff_exists.mp ((isSome_digitValue?_iff c).mpr h)
  obtain ⟨hlt, rfl | rfl⟩ := eq_digit_of_digitValue? hvalue
  · exact (hdigits ⟨value, hlt⟩).1
  · exact (hdigits ⟨value, hlt⟩).2

theorem isDigit_of_toUpper_eq {c d : Char} (h : IsDigit c) (hcase : d.toUpper = c.toUpper) :
    IsDigit d := by
  rwa [← isSome_digitValue?_iff, ← digitValue?_toUpper, hcase, digitValue?_toUpper,
    isSome_digitValue?_iff]

/-- What becomes of a text when digits change their case and separators come and go. -/
inductive Respelled (text : List Char) : List Char → Prop
  | same : Respelled text text
  | recase {front back : List Char} {c d : Char} (h : Respelled text (front ++ c :: back))
      (hdigit : IsDigit c) (hcase : d.toUpper = c.toUpper) : Respelled text (front ++ d :: back)
  | insert {front back : List Char} {c : Char} (h : Respelled text (front ++ back))
      (hseparator : isSeparator c = true) : Respelled text (front ++ c :: back)
  | delete {front back : List Char} {c : Char} (h : Respelled text (front ++ c :: back))
      (hseparator : isSeparator c = true) : Respelled text (front ++ back)

theorem strip_append (front back : List Char) : strip (front ++ back) = strip front ++ strip back :=
  List.filter_append front back

theorem strip_cons_of_isSeparator {c : Char} (h : isSeparator c = true) (back : List Char) :
    strip (c :: back) = strip back :=
  List.filter_cons_of_neg (by simp [h])

theorem strip_cons_of_isDigit {c : Char} (h : IsDigit c) (back : List Char) :
    strip (c :: back) = c :: strip back :=
  List.filter_cons_of_pos (by simp [not_isSeparator_of_isDigit h])

/-- In capital letters and without separators the text stays the same. -/
theorem map_toUpper_strip_of_respelled {text other : List Char} (h : Respelled text other) :
    (strip other).map Char.toUpper = (strip text).map Char.toUpper := by
  induction h with
  | same => rfl
  | recase _ hdigit hcase ih =>
    rw [← ih, strip_append, strip_append, strip_cons_of_isDigit hdigit,
      strip_cons_of_isDigit (isDigit_of_toUpper_eq hdigit hcase), List.map_append, List.map_append,
      List.map_cons, List.map_cons, hcase]
  | insert _ hseparator ih =>
    rw [← ih, strip_append, strip_append, strip_cons_of_isSeparator hseparator]
  | delete _ hseparator ih =>
    rw [← ih, strip_append, strip_append, strip_cons_of_isSeparator hseparator]

theorem quads_map {α β : Type} (f : α → β) : ∀ l : List α, quads (l.map f) = (quads l).map (·.map f)
  | [] | [_] | [_, _] | [_, _, _] => rfl
  | a :: b :: c :: d :: rest => congrArg ([f a, f b, f c, f d] :: ·) (quads_map f rest)

theorem reads_map_toUpper (group : List Char) (word : UInt16) :
    Reads (group.map Char.toUpper) word ↔ Reads group word := by
  constructor
  · rintro ⟨hlength, hvalue⟩
    exact ⟨by rwa [List.length_map] at hlength, by rwa [value?_map_toUpper] at hvalue⟩
  · rintro ⟨hlength, hvalue⟩
    exact ⟨by rwa [List.length_map], by rwa [value?_map_toUpper]⟩

theorem words?_map_toUpper (digits : List Char) :
    words? (digits.map Char.toUpper) = words? digits := by
  apply Option.ext
  intro words
  rw [words?_eq_some_iff, words?_eq_some_iff, List.length_map, quads_map,
    List.forall₂_map_left_iff]
  simp only [reads_map_toUpper]

theorem words?_of_respelled {text other : List Char} (h : Respelled text other) :
    words? (strip other) = words? (strip text) := by
  rw [← words?_map_toUpper, map_toUpper_strip_of_respelled h, words?_map_toUpper]

/-! ### Writing -/

/-- Capital letters, and one blank between groups of four. -/
def canonical (text : String) : String :=
  " ".intercalate ((quads ((strip text.toList).map Char.toUpper)).map String.ofList)

theorem formatWord_of_reads {group : List Char} {word : UInt16} (h : Reads group word) :
    formatWord word = String.ofList (group.map Char.toUpper) := by
  have hempty : group ≠ [] := by
    rintro rfl
    exact absurd h.length_eq (by decide)
  rw [formatWord, padded, ← leftpad_of_value? hempty h.value_eq, h.length_eq]

/-- Writing what was read. -/
theorem format_of_parse {text : String} {words : List UInt16} (h : parse text = .ok words) :
    format words = canonical text := by
  have hwords : (quads ((strip text.toList).map Char.toUpper)).map String.ofList =
      words.map formatWord := by
    rw [quads_map, List.map_map, ← List.forall₂_eq_eq_eq, List.forall₂_map_left_iff,
      List.forall₂_map_right_iff]
    exact (reads_of_parse h).imp fun group word hword ↦ (formatWord_of_reads hword).symm
  rw [format, canonical, hwords]

theorem toList_formatWord (word : UInt16) :
    (formatWord word).toList =
      [digit (word.toNat / 16 / 16 / 16), digit (word.toNat / 16 / 16 % 16),
        digit (word.toNat / 16 % 16), digit (word.toNat % 16)] := by
  have hlt : word.toNat / 16 / 16 / 16 < 16 := by
    have := word.toNat_lt
    omega
  rw [formatWord, padded, String.toList_ofList, leftpad_digits (by decide),
    leftpad_digits (by decide), leftpad_digits (by decide), digits_of_lt hlt]
  rfl

theorem reads_formatWord (word : UInt16) : Reads (formatWord word).toList word where
  length_eq := by
    rw [toList_formatWord]
    rfl
  value_eq := by
    rw [formatWord, padded, String.toList_ofList, value?_leftpad, value?_digits]

theorem strip_of_digits {digits : List Char} (h : ∀ c ∈ digits, IsDigit c) :
    strip digits = digits := by
  apply List.filter_eq_self.mpr
  intro c hc
  simp [not_isSeparator_of_isDigit (h c hc)]

theorem strip_formatWord (word : UInt16) :
    strip (formatWord word).toList = (formatWord word).toList := by
  apply strip_of_digits
  rw [← isSome_value?_iff, (reads_formatWord word).value_eq]
  rfl

theorem strip_intercalate {separator : List Char} (h : strip separator = [])
    (pieces : List (List Char)) :
    strip (separator.intercalate pieces) = pieces.flatMap strip := by
  induction pieces with
  | nil => rfl
  | cons piece rest ih =>
    rcases rest with - | ⟨next, others⟩
    · rw [List.intercalate_singleton, List.flatMap_singleton]
    · rw [List.intercalate_cons_cons, strip_append, strip_append, h, List.append_nil, ih]
      rfl

theorem words?_flatMap (words : List UInt16) :
    words? (words.flatMap fun word ↦ (formatWord word).toList) = some words := by
  induction words with
  | nil => rfl
  | cons word rest ih =>
    have hvalue := (reads_formatWord word).value_eq
    rw [toList_formatWord] at hvalue
    rw [List.flatMap_cons, toList_formatWord, List.cons_append, List.cons_append, List.cons_append,
      List.cons_append, List.nil_append, words?_cons, hvalue, ih, Option.bind_some,
      UInt16.ofNat_toNat]
    rfl

theorem words?_format (words : List UInt16) :
    words? (strip (format words).toList) = some words := by
  have hstrip : strip (format words).toList =
      words.flatMap fun word ↦ (formatWord word).toList := by
    rw [format, String.toList_intercalate, strip_intercalate (by decide), List.map_map,
      List.flatMap_map]
    apply List.flatMap_congr
    intro word _
    exact strip_formatWord word
  rw [hstrip, words?_flatMap]

/-- However the written words are spelled, they are read again. -/
theorem parse_of_respelled {words : List UInt16} {text : String}
    (h : Respelled (format words).toList text.toList) : parse text = .ok words := by
  rw [parse_eq_ok_iff, words?_of_respelled h, words?_format]

end SpriteBytecode.StreamText
