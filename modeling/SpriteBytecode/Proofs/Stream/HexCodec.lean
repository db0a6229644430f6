import SpriteBytecode.Proofs.Stream.Text

/-!
Words as text by way of bytes. A codec makes two digits into one byte and one byte into two digits,
and two bytes are a word. A character that is no digit has a byte that is none
(`isDigit_of_utf8EncodeChar`), so that the codec refuses exactly what is not digits, and reading and
writing by way of bytes is reading and writing of words at once (`parseBy_eq`, `formatBy_eq`).
-/

set_option autoImplicit false
set_option relaxedAutoImplicit false

namespace SpriteBytecode.StreamText

open Hexadecimal

/-! ### Codecs -/

/-- Bytes from their digits, and digits from bytes. -/
structure HexCodec where
  decode? : List UInt8 → Option (List UInt8)
  encodeUpper : List UInt8 → List Char

/-- The byte that two digits spell, the high one first. -/
def byteOf? (high low : UInt8) : Option UInt8 :=
  (value? [Char.ofNat high.toNat, Char.ofNat low.toNat]).map UInt8.ofNat

/-- Two digits of either case are read as one byte, and nothing else is read. Two capital digits are
written for each byte. -/
structure HexCodec.Documented (codec : HexCodec) : Prop where
  decode_nil : codec.decode? [] = some []
  decode_singleton (byte : UInt8) : codec.decode? [byte] = none
  decode_pair (high low : UInt8) (rest : List UInt8) :
    codec.decode? (high :: low :: rest) =
      (byteOf? high low).bind fun byte ↦ (codec.decode? rest).map (byte :: ·)
  encode_nil : codec.encodeUpper [] = []
  encode_cons (byte : UInt8) (rest : List UInt8) :
    codec.encodeUpper (byte :: rest) =
      digit (byte.toNat / 16) :: digit (byte.toNat % 16) :: codec.encodeUpper rest

/-- Words from pairs of bytes, the high one first. -/
def wordsOfBytes : List UInt8 → List UInt16
  | high :: low :: rest => UInt16.ofNat (256 * high.toNat + low.toNat) :: wordsOfBytes rest
  | _ => []

def bytesOfWord (word : UInt16) : List UInt8 :=
  [UInt8.ofNat (word.toNat / 256), UInt8.ofNat (word.toNat % 256)]

/-- Reading by way of bytes. -/
def parseBy (codec : HexCodec) (text : String) : Except Fault (List UInt16) :=
  let digits := bytesOf (strip text.toList)
  if digits.length % 4 = 0 then
    match codec.decode? digits with
    | some bytes => .ok (wordsOfBytes bytes)
    | none => .error .notHexadecimal
  else .error (.unevenDigits digits.length)

/-- Writing by way of bytes. -/
def formatBy (codec : HexCodec) (words : List UInt16) : String :=
  " ".intercalate (words.map fun word ↦ String.ofList (codec.encodeUpper (bytesOfWord word)))

theorem ofNat_toUInt8 {c : Char} (h : c.toNat < 128) : Char.ofNat c.toUInt8.toNat = c := by
  have hbyte : c.toUInt8.toNat = c.toNat % 256 := rfl
  rw [hbyte, Nat.mod_eq_of_lt (by omega), Char.ofNat_toNat]

/-- The digits of bytes are those of the characters. -/
theorem byteOf?_toUInt8 {high low : Char} (hhigh : IsDigit high) (hlow : IsDigit low) :
    byteOf? high.toUInt8 low.toUInt8 = (value? [high, low]).map UInt8.ofNat := by
  rw [byteOf?, ofNat_toUInt8 (toNat_lt_of_isDigit hhigh), ofNat_toUInt8 (toNat_lt_of_isDigit hlow)]

theorem toNat_byte_of_value? {high low : Char} {value : Nat} (h : value? [high, low] = some value) :
    (UInt8.ofNat value).toNat = value := by
  have hlt : value < 16 ^ 2 := value?_lt h
  rw [UInt8.toNat_ofNat']
  omega

section Codec

variable {codec : HexCodec} (hcodec : codec.Documented)

include hcodec

theorem formatBy_eq (words : List UInt16) : formatBy codec words = format words := by
  have hword (word : UInt16) :
      String.ofList (codec.encodeUpper (bytesOfWord word)) = formatWord word := by
    have hlt := word.toNat_lt
    have hhigh : (UInt8.ofNat (word.toNat / 256)).toNat = word.toNat / 16 / 16 := by
      rw [UInt8.toNat_ofNat']
      omega
    have hlow : (UInt8.ofNat (word.toNat % 256)).toNat = word.toNat % 256 := by
      rw [UInt8.toNat_ofNat']
      omega
    have htens : word.toNat % 256 / 16 = word.toNat / 16 % 16 := by omega
    have hones : word.toNat % 256 % 16 = word.toNat % 16 := by omega
    rw [bytesOfWord, hcodec.encode_cons, hcodec.encode_cons, hcodec.encode_nil, hhigh, hlow, htens,
      hones, ← toList_formatWord, String.ofList_toList]
  simp only [formatBy, format, hword]

theorem isDigit_of_decode? : ∀ {bytes decoded : List UInt8}, codec.decode? bytes = some decoded →
    ∀ byte ∈ bytes, IsDigit (Char.ofNat byte.toNat)
  | [], _, _ => by simp
  | [byte], _, h => by
    rw [hcodec.decode_singleton] at h
    exact absurd h (by simp)
  | high :: low :: rest, decoded, h => by
    rw [hcodec.decode_pair, Option.bind_eq_some_iff] at h
    obtain ⟨byte, hbyte, hrest⟩ := h
    obtain ⟨others, hothers, -⟩ := Option.map_eq_some_iff.mp hrest
    obtain ⟨value, hvalue, -⟩ := Option.map_eq_some_iff.mp hbyte
    have hpair := (isSome_value?_iff _).mp (Option.isSome_iff_exists.mpr ⟨value, hvalue⟩)
    refine List.forall_mem_cons.mpr ⟨hpair _ List.mem_cons_self, List.forall_mem_cons.mpr ⟨?_, ?_⟩⟩
    · exact hpair _ (List.mem_cons_of_mem _ List.mem_cons_self)
    · exact isDigit_of_decode? hothers

/-- Four digits are two bytes and one word. -/
theorem map_wordsOfBytes_decode? : ∀ {digits : List Char}, 4 ∣ digits.length →
    (∀ c ∈ digits, IsDigit c) →
      (codec.decode? (digits.map Char.toUInt8)).map wordsOfBytes = words? digits
  | [], _, _ => by
    rw [List.map_nil, hcodec.decode_nil]
    rfl
  | [_], h, _ | [_, _], h, _ | [_, _, _], h, _ => absurd h (by simp)
  | a :: b :: c :: d :: rest, hlength, hdigits => by
    simp only [List.forall_mem_cons] at hdigits
    obtain ⟨ha, hb, hc, hd, hrest⟩ := hdigits
    have hothers : (codec.decode? (rest.map Char.toUInt8)).map wordsOfBytes = words? rest :=
      map_wordsOfBytes_decode? (Nat.dvd_add_self_right.mp hlength) hrest
    have hquad : value? [a, b, c, d] =
        (value? [a, b]).bind fun high ↦ (value? [c, d]).map (256 * high + ·) :=
      value?_append [a, b] [c, d]
    rw [words?_cons, ← hothers, hquad, List.map_cons, List.map_cons, List.map_cons, List.map_cons,
      hcodec.decode_pair, hcodec.decode_pair, byteOf?_toUInt8 ha hb, byteOf?_toUInt8 hc hd]
    rcases hhigh : value? [a, b] with - | high
    · rfl
    · rcases hlow : value? [c, d] with - | low
      · rfl
      · rcases codec.decode? (rest.map Char.toUInt8) with - | others
        · rfl
        · simp [wordsOfBytes, toNat_byte_of_value? hhigh, toNat_byte_of_value? hlow]

end Codec

/-- A character of several bytes begins with one that is no character by itself. -/
theorem exists_large_byte {c : Char} (h : 128 ≤ c.toNat) :
    ∃ byte ∈ String.utf8EncodeChar c, 192 ≤ byte.toNat := by
  have hlarge (lead offset : Nat) (hlead : 192 ≤ lead) (hbyte : offset + lead < 256) :
      192 ≤ (UInt8.ofNat (offset + lead)).toNat := by
    rw [UInt8.toNat_ofNat']
    omega
  have hmore : ¬ c.val.toNat ≤ 127 := Nat.not_le_of_lt h
  unfold String.utf8EncodeChar
  dsimp only
  rw [if_neg hmore]
  by_cases htwo : c.val.toNat ≤ 2047
  · rw [if_pos htwo]
    exact ⟨_, List.mem_cons_self, hlarge _ _ (by decide) (by omega)⟩
  · rw [if_neg htwo]
    by_cases hthree : c.val.toNat ≤ 65535
    · rw [if_pos hthree]
      exact ⟨_, List.mem_cons_self, hlarge _ _ (by decide) (by omega)⟩
    · rw [if_neg hthree]
      exact ⟨_, List.mem_cons_self, hlarge _ _ (by decide) (by omega)⟩

theorem toNat_ofNat_byte (byte : UInt8) : (Char.ofNat byte.toNat).toNat = byte.toNat := by
  have hvalid : byte.toNat.isValidChar := Or.inl (Nat.lt_trans byte.toNat_lt (by decide))
  rw [Char.ofNat, dif_pos hvalid]
  rfl

/-- Only digits have the bytes of digits. -/
theorem isDigit_of_utf8EncodeChar {c : Char}
    (h : ∀ byte ∈ String.utf8EncodeChar c, IsDigit (Char.ofNat byte.toNat)) : IsDigit c := by
  by_cases hlarge : 128 ≤ c.toNat
  · obtain ⟨byte, hbyte, hle⟩ := exists_large_byte hlarge
    have hdigit := h byte hbyte
    rw [isDigit_iff_toNat, toNat_ofNat_byte] at hdigit
    omega
  · have hsmall : c.toNat < 128 := Nat.lt_of_not_le hlarge
    have hbytes : String.utf8EncodeChar c = [c.toUInt8] :=
      String.utf8EncodeChar_eq_singleton (utf8Size_of_lt hsmall)
    have hdigit := h c.toUInt8 (hbytes ▸ List.mem_cons_self)
    rwa [ofNat_toUInt8 hsmall] at hdigit

/-- Bytes in between make no difference to what is read. -/
theorem parseBy_eq {codec : HexCodec} (hcodec : codec.Documented) (text : String) :
    parseBy codec text = parse text := by
  unfold parseBy parse
  dsimp only
  rw [utf8ByteSize_ofList]
  by_cases hsize : (bytesOf (strip text.toList)).length % 4 = 0
  · rw [if_pos hsize, if_pos hsize]
    by_cases hdigits : ∀ c ∈ strip text.toList, IsDigit c
    · rw [bytesOf_digits hdigits, List.length_map] at hsize
      rw [bytesOf_digits hdigits,
        ← map_wordsOfBytes_decode? hcodec (Nat.dvd_of_mod_eq_zero hsize) hdigits]
      rcases codec.decode? ((strip text.toList).map Char.toUInt8) with - | bytes <;> rfl
    · have hwords : words? (strip text.toList) = none := by
        rw [← Option.not_isSome_iff_eq_none, isSome_words?_iff]
        exact fun h ↦ hdigits h.1
      have hbytes : codec.decode? (bytesOf (strip text.toList)) = none := by
        by_contra hsome
        obtain ⟨decoded, hdecoded⟩ := Option.ne_none_iff_exists'.mp hsome
        refine hdigits fun c hc ↦ isDigit_of_utf8EncodeChar fun byte hbyte ↦ ?_
        exact isDigit_of_decode? hcodec hdecoded byte (List.mem_flatMap.mpr ⟨c, hc, hbyte⟩)
      rw [hwords, hbytes]
  · rw [if_neg hsize, if_neg hsize]

/-! ### All texts -/

/-- A text is accepted exactly if it is digits in fours without its blanks and commas, and its words
are the numbers of the fours. What is written for words is read again in all its spellings, and
writing what was read gives the text in capital letters with one blank between words. All of this
holds of reading and writing by way of bytes as well, which is the same. -/
theorem parse_accepts_iff {codec : HexCodec} (hcodec : codec.Documented) :
    (∀ text, parseBy codec text = parse text) ∧
    (∀ words, formatBy codec words = format words) ∧
    (∀ text, (∃ words, parse text = .ok words) ↔
      (∀ c ∈ strip text.toList, IsDigit c) ∧ 4 ∣ (strip text.toList).length) ∧
    (∀ text words, parse text = .ok words →
      List.Forall₂ Reads (quads (strip text.toList)) words) ∧
    (∀ words text, Respelled (format words).toList text.toList → parse text = .ok words) ∧
    ∀ text words, parse text = .ok words → format words = canonical text := by
  refine ⟨parseBy_eq hcodec, formatBy_eq hcodec, exists_parse_eq_ok_iff, ?_, ?_, ?_⟩
  · intro text words hwords
    exact reads_of_parse hwords
  · intro words text hspelled
    exact parse_of_respelled hspelled
  · intro text words hwords
    exact format_of_parse hwords

/-- Reads pairs of digits from the front. -/
def readPairs : List UInt8 → Option (List UInt8)
  | [] => some []
  | [_] => none
  | high :: low :: rest =>
    (byteOf? high low).bind fun byte ↦ (readPairs rest).map (byte :: ·)

def hexCodec : HexCodec where
  decode? := readPairs
  encodeUpper bytes :=
    bytes.flatMap fun byte ↦ [digit (byte.toNat / 16), digit (byte.toNat % 16)]

theorem documented_hexCodec : hexCodec.Documented where
  decode_nil := rfl
  decode_singleton _ := rfl
  decode_pair _ _ _ := rfl
  encode_nil := rfl
  encode_cons _ _ := rfl

/-- A small letter, and a comma in the middle of a word. -/
theorem parse_accepts_iff_small_letter :
    hexCodec.Documented ∧ Respelled (format [0x7FFF]).toList "7f,FF".toList ∧
      parseBy hexCodec "7f,FF" = .ok [0x7FFF] ∧ format [0x7FFF] = canonical "7f,FF" := by
  have hformat : (format [0x7FFF]).toList = ['7'] ++ 'F' :: ['F', 'F'] := by decide +kernel
  have hwritten : Respelled (format [0x7FFF]).toList (['7'] ++ 'F' :: ['F', 'F']) :=
    hformat ▸ Respelled.same
  have hsmall : Respelled (format [0x7FFF]).toList (['7', 'f'] ++ ['F', 'F']) :=
    hwritten.recase (by decide) (show 'f'.toUpper = 'F'.toUpper by decide)
  have hspelled : Respelled (format [0x7FFF]).toList "7f,FF".toList :=
    hsmall.insert (show isSeparator ',' = true by decide)
  obtain ⟨hby, -, -, -, hrespelled, hcanonical⟩ := parse_accepts_iff documented_hexCodec
  have hparse := hrespelled [0x7FFF] "7f,FF" hspelled
  exact ⟨documented_hexCodec, hspelled, (hby _).trans hparse, hcanonical _ _ hparse⟩

end SpriteBytecode.StreamText
