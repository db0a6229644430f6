import SpriteBytecode.Assembly
import SpriteBytecode.Proofs.Label.Name

/-!
The hints that assembly leaves beside a stream. A hint is the free name of a label with a marker at
the hint's position, or the default name of the stream's start (`marker_or_start_of_hint`). Hence no
hint pins a position (`unescape?_of_hint`). Where every free name at a position is the same, the
hint is that name (`hint_of_marker`).
-/

set_option autoImplicit false
set_option relaxedAutoImplicit false

namespace SpriteBytecode

theorem LabelHints.get?_foldl_insert (entries : List (UInt16 × String)) :
    ∀ (hints : LabelHints) (position : UInt16),
      (entries.foldl (fun hints (position, name) ↦ hints.insert position name)
        hints).get? position =
        ((entries.reverse.find? (·.1 == position)).map (·.2)).or (hints.get? position) := by
  induction entries with
  | nil => intro hints position; rfl
  | cons entry rest ih =>
    intro hints position
    rw [List.foldl_cons, ih, List.reverse_cons, List.find?_append, LabelHints.get?_insert]
    by_cases hentry : position = entry.1
    · subst hentry
      cases rest.reverse.find? (·.1 == entry.1) <;> simp
    · have hne : (entry.1 == position) = false := beq_eq_false_iff_ne.mpr (Ne.symm hentry)
      cases rest.reverse.find? (·.1 == position) <;> simp [hentry, hne]

theorem freeName?_eq_some_iff (name free : String) :
    freeName? name = some free ↔ name = free ∧ LabelName.unescape? free = none := by
  unfold freeName?
  split
  · next hpin =>
    rw [Option.isNone_iff_eq_none] at hpin
    constructor
    · intro h
      obtain rfl := Option.some.inj h
      exact ⟨rfl, hpin⟩
    · rintro ⟨rfl, -⟩
      rfl
  · next hpin =>
    rw [Option.isNone_iff_eq_none] at hpin
    refine iff_of_false (by simp) ?_
    rintro ⟨rfl, hfree⟩
    exact hpin hfree

namespace CommandList

/-- A marker names its offset: its label has this name, which pins no position. -/
def Names (list : CommandList) (marker : LabelId × Nat) (position : UInt16) (name : String) :
    Prop :=
  list.labelName? marker.1 = some name ∧ LabelName.unescape? name = none ∧
    marker.2 = position.toNat

variable {list : CommandList} {markers : List (LabelId × Nat)} {position : UInt16} {name : String}

theorem hintOf?_eq_some_iff (list : CommandList) (marker : LabelId × Nat) (position : UInt16)
    (name : String) :
    hintOf? (list.labelNames.toArray.map freeName?) marker = some (position, name) ↔
      list.Names marker position name := by
  have hname : (list.labelNames.toArray.map freeName?)[marker.1.index]? =
      (list.labelName? marker.1).map freeName? := by
    rw [Array.getElem?_map, List.getElem?_toArray, labelName?]
  unfold hintOf? Names
  rw [hname]
  rcases list.labelName? marker.1 with - | given
  · simp
  · rw [Option.map_some]
    rcases hfree : freeName? given with - | free
    · have hpin : ¬ (given = name ∧ LabelName.unescape? name = none) := by
        rw [← freeName?_eq_some_iff, hfree]
        simp
      refine iff_of_false (by simp) ?_
      rintro ⟨hgiven, hname, -⟩
      exact hpin ⟨Option.some.inj hgiven, hname⟩
    · obtain ⟨rfl, hpin⟩ := (freeName?_eq_some_iff given free).mp hfree
      by_cases hlt : marker.2 < 0x10000
      · have hoffset : UInt16.ofNat marker.2 = position ↔ marker.2 = position.toNat := by
          rw [← UInt16.toNat_inj, UInt16.toNat_ofNat_of_lt' (by exact hlt)]
        simp only [hlt, if_true, Option.some.injEq, Prod.mk.injEq, hoffset]
        constructor
        · rintro ⟨hposition, rfl⟩
          exact ⟨rfl, hpin, hposition⟩
        · rintro ⟨rfl, -, hposition⟩
          exact ⟨hposition, rfl⟩
      · have hbeyond : marker.2 ≠ position.toNat := by
          have := position.toNat_lt
          omega
        simp [hlt, hbeyond]

/-- What the markers name, in list order. -/
def hintEntries (list : CommandList) (markers : List (LabelId × Nat)) : List (UInt16 × String) :=
  markers.filterMap (hintOf? (list.labelNames.toArray.map freeName?))

theorem mem_hintEntries_iff :
    (position, name) ∈ list.hintEntries markers ↔
      ∃ marker ∈ markers, list.Names marker position name := by
  simp only [hintEntries, List.mem_filterMap, hintOf?_eq_some_iff]

theorem get?_labelHints (list : CommandList) (markers : List (LabelId × Nat))
    (position : UInt16) :
    (list.labelHints markers).get? position =
      (((list.hintEntries markers).reverse.find? (·.1 == position)).map (·.2)).or
        (if position = 0 then some LabelName.start else none) := by
  rw [labelHints, LabelHints.get?_foldl_insert, LabelHints.get?_insert, LabelHints.get?_empty]
  rfl

theorem marker_or_start_of_hint (h : (list.labelHints markers).get? position = some name) :
    (∃ marker ∈ markers, list.Names marker position name) ∨
      position = 0 ∧ name = LabelName.start := by
  rw [get?_labelHints, Option.or_eq_some_iff] at h
  rcases h with hfound | ⟨-, hstart⟩
  · obtain ⟨⟨found, _⟩, hfind, rfl⟩ := Option.map_eq_some_iff.mp hfound
    obtain rfl : found = position := eq_of_beq (List.find?_some hfind :)
    exact Or.inl (mem_hintEntries_iff.mp (List.mem_reverse.mp (List.mem_of_find?_eq_some hfind)))
  · split at hstart
    · next hzero => exact Or.inr ⟨hzero, (Option.some.inj hstart).symm⟩
    · exact absurd hstart (by simp)

/-- No hint of an assembled list pins a position. -/
theorem unescape?_of_hint (h : (list.labelHints markers).get? position = some name) :
    LabelName.unescape? name = none := by
  rcases marker_or_start_of_hint h with ⟨_, -, -, hfree, -⟩ | ⟨-, rfl⟩
  · exact hfree
  · exact LabelName.unescape?_start

/-- Markers that agree on the name of their offset leave it as the hint. -/
theorem hint_of_marker {marker : LabelId × Nat} (hmarker : marker ∈ markers)
    (hnames : list.Names marker position name)
    (hagree : ∀ other ∈ markers, ∀ otherName,
      list.Names other position otherName → otherName = name) :
    (list.labelHints markers).get? position = some name := by
  have hentry := mem_hintEntries_iff.mpr ⟨marker, hmarker, hnames⟩
  rw [get?_labelHints]
  rcases hfind : (list.hintEntries markers).reverse.find? (·.1 == position) with
    - | ⟨found, foundName⟩
  · have habsent := List.find?_eq_none.mp hfind (position, name) (List.mem_reverse.mpr hentry)
    exact absurd (beq_self_eq_true position) habsent
  · obtain rfl : found = position := eq_of_beq (List.find?_some hfind :)
    obtain ⟨other, hother, hothernames⟩ :=
      mem_hintEntries_iff.mp (List.mem_reverse.mp (List.mem_of_find?_eq_some hfind))
    rw [hfind, Option.map_some, Option.some_or, hagree other hother foundName hothernames]

end CommandList

end SpriteBytecode
