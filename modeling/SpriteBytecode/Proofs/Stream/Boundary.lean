import SpriteBytecode.CommandList.Basic

/-!
Where instructions begin. A boundary of a stream is a word at which an instruction begins, or the
stream's end. The landing of a position is the least boundary that is not in front of it
(`landing_le_of_beginsAt`, `le_landing`), or the end for a position behind all of them
(`landing_of_streamLen_lt`). Labels take no words, so that neither lengths nor landings see them.
-/

set_option autoImplicit false
set_option relaxedAutoImplicit false

namespace SpriteBytecode

variable {τ υ : Type}

/-- Words that instructions take up together. -/
def streamLen : List (Instruction τ) → Nat
  | [] => 0
  | i :: rest => i.wordLen + streamLen rest

/-- An instruction begins at this word. -/
def BeginsAt (instructions : List (Instruction τ)) (position : Nat) : Prop :=
  ∃ front i back, instructions = front ++ i :: back ∧ streamLen front = position

/-- This instruction begins at this word. -/
def StandsAt (instructions : List (Instruction τ)) (i : Instruction τ) (position : Nat) : Prop :=
  ∃ front back, instructions = front ++ i :: back ∧ streamLen front = position

/-- The first boundary at a position or behind it. -/
def landing (position : Nat) : List (Instruction τ) → Nat
  | [] => 0
  | i :: rest => if position = 0 then 0 else i.wordLen + landing (position - i.wordLen) rest

/-- The instructions among commands. -/
def withoutLabels (commands : List (Instruction τ)) : List (Instruction τ) :=
  commands.filter (!·.isLabel)

/-! ### Lengths -/

@[simp] theorem streamLen_nil : streamLen ([] : List (Instruction τ)) = 0 := rfl

@[simp] theorem streamLen_cons (i : Instruction τ) (rest : List (Instruction τ)) :
    streamLen (i :: rest) = i.wordLen + streamLen rest := rfl

@[simp] theorem streamLen_append (front back : List (Instruction τ)) :
    streamLen (front ++ back) = streamLen front + streamLen back := by
  induction front with
  | nil => exact (Nat.zero_add _).symm
  | cons i rest ih => rw [List.cons_append, streamLen_cons, streamLen_cons, ih, Nat.add_assoc]

@[simp] theorem streamLen_map (f : τ → υ) (instructions : List (Instruction τ)) :
    streamLen (instructions.map (·.mapTarget f)) = streamLen instructions := by
  induction instructions with
  | nil => rfl
  | cons i rest ih => rw [List.map_cons, streamLen_cons, streamLen_cons, ih,
      Instruction.wordLen_mapTarget]

@[simp] theorem streamLen_replicate (count : Nat) (i : Instruction τ) :
    streamLen (List.replicate count i) = count * i.wordLen := by
  induction count with
  | zero => exact (Nat.zero_mul _).symm
  | succ count ih => rw [List.replicate_succ, streamLen_cons, ih, Nat.succ_mul, Nat.add_comm]

theorem wordCount_eq_streamLen (commands : List Command) :
    wordCount commands = streamLen commands := by
  induction commands with
  | nil => rfl
  | cons command rest ih => rw [wordCount, streamLen_cons, ih]

theorem streamLen_withoutLabels (commands : List (Instruction τ)) :
    streamLen (withoutLabels commands) = streamLen commands := by
  induction commands with
  | nil => rfl
  | cons command rest ih =>
    unfold withoutLabels at ih ⊢
    cases hlabel : command.isLabel
    · rw [List.filter_cons_of_pos (by simp [hlabel]), streamLen_cons, streamLen_cons, ih]
    · have hzero := (Instruction.wordLen_eq_zero_iff command).mpr hlabel
      rw [List.filter_cons_of_neg (by simp [hlabel]), streamLen_cons, hzero, Nat.zero_add, ih]

/-! ### Beginnings -/

theorem not_beginsAt_nil (position : Nat) : ¬ BeginsAt ([] : List (Instruction τ)) position := by
  rintro ⟨front, i, back, h, -⟩
  exact List.cons_ne_nil i back (List.append_eq_nil_iff.mp h.symm).2

theorem beginsAt_iff_exists_standsAt (instructions : List (Instruction τ)) (position : Nat) :
    BeginsAt instructions position ↔ ∃ i, StandsAt instructions i position :=
  exists_comm

theorem StandsAt.mem {instructions : List (Instruction τ)} {i : Instruction τ} {position : Nat}
    (h : StandsAt instructions i position) : i ∈ instructions := by
  obtain ⟨front, back, rfl, -⟩ := h
  exact List.mem_append_right front List.mem_cons_self

theorem standsAt_map_iff (f : τ → υ) (instructions : List (Instruction τ)) (i : Instruction υ)
    (position : Nat) :
    StandsAt (instructions.map (·.mapTarget f)) i position ↔
      ∃ j, StandsAt instructions j position ∧ j.mapTarget f = i := by
  constructor
  · rintro ⟨front, back, hsplit, rfl⟩
    obtain ⟨before, rest, rfl, rfl, hrest⟩ := List.map_eq_append_iff.mp hsplit
    obtain ⟨j, after, rfl, rfl, rfl⟩ := List.map_eq_cons_iff.mp hrest
    exact ⟨j, ⟨before, after, rfl, (streamLen_map f before).symm⟩, rfl⟩
  · rintro ⟨j, ⟨front, back, rfl, rfl⟩, rfl⟩
    exact ⟨_, back.map (·.mapTarget f), by simp, streamLen_map f front⟩

theorem beginsAt_cons_iff (i : Instruction τ) (rest : List (Instruction τ)) (position : Nat) :
    BeginsAt (i :: rest) position ↔
      position = 0 ∨ i.wordLen ≤ position ∧ BeginsAt rest (position - i.wordLen) := by
  constructor
  · rintro ⟨front, j, back, h, rfl⟩
    cases front with
    | nil => exact Or.inl rfl
    | cons first others =>
      obtain ⟨rfl, hrest⟩ := List.cons_eq_cons.mp h
      refine Or.inr ⟨by simp, others, j, back, hrest, by simp⟩
  · rintro (rfl | ⟨hle, front, j, back, rfl, hlen⟩)
    · exact ⟨[], i, rest, rfl, rfl⟩
    · refine ⟨i :: front, j, back, rfl, ?_⟩
      rw [streamLen_cons]
      omega

theorem beginsAt_map_iff (f : τ → υ) (instructions : List (Instruction τ)) (position : Nat) :
    BeginsAt (instructions.map (·.mapTarget f)) position ↔ BeginsAt instructions position := by
  induction instructions generalizing position with
  | nil => simp [not_beginsAt_nil]
  | cons i rest ih => rw [List.map_cons, beginsAt_cons_iff, beginsAt_cons_iff, ih]; simp

theorem le_streamLen_of_beginsAt_concat {front : List (Instruction τ)} {last : Instruction τ}
    {position : Nat} (h : BeginsAt (front ++ [last]) position) : position ≤ streamLen front := by
  induction front generalizing position with
  | nil =>
    rcases (beginsAt_cons_iff last [] position).mp h with rfl | ⟨-, hnil⟩
    · exact Nat.le_refl 0
    · exact absurd hnil (not_beginsAt_nil _)
  | cons i rest ih =>
    rcases (beginsAt_cons_iff i (rest ++ [last]) position).mp h with rfl | ⟨-, hrest⟩
    · exact Nat.zero_le _
    · have hle := ih hrest
      rw [streamLen_cons]
      omega

/-! ### Landings -/

theorem landing_map (f : τ → υ) (position : Nat) (instructions : List (Instruction τ)) :
    landing position (instructions.map (·.mapTarget f)) = landing position instructions := by
  induction instructions generalizing position with
  | nil => rfl
  | cons i rest ih => simp only [List.map_cons, landing, Instruction.wordLen_mapTarget, ih]

theorem landing_zero (instructions : List (Instruction τ)) : landing 0 instructions = 0 := by
  cases instructions <;> simp [landing]

theorem landing_withoutLabels (position : Nat) (commands : List (Instruction τ)) :
    landing position (withoutLabels commands) = landing position commands := by
  induction commands generalizing position with
  | nil => rfl
  | cons command rest ih =>
    unfold withoutLabels at ih ⊢
    cases hlabel : command.isLabel
    · rw [List.filter_cons_of_pos (by simp [hlabel]), landing, landing, ih]
    · have hzero := (Instruction.wordLen_eq_zero_iff command).mpr hlabel
      rw [List.filter_cons_of_neg (by simp [hlabel]), landing, hzero, ih]
      split
      · next h => rw [h, landing_zero]
      · simp

theorem landing_le_streamLen (position : Nat) (instructions : List (Instruction τ)) :
    landing position instructions ≤ streamLen instructions := by
  induction instructions generalizing position with
  | nil => exact Nat.le_refl 0
  | cons i rest ih =>
    rw [landing, streamLen_cons]
    split
    · exact Nat.zero_le _
    · exact Nat.add_le_add_left (ih _) _

theorem le_landing {position : Nat} {instructions : List (Instruction τ)}
    (h : position ≤ streamLen instructions) : position ≤ landing position instructions := by
  induction instructions generalizing position with
  | nil => exact h
  | cons i rest ih =>
    rw [streamLen_cons] at h
    rw [landing]
    split
    · omega
    · have hrest : position - i.wordLen ≤ landing (position - i.wordLen) rest := ih (by omega)
      omega

theorem landing_of_streamLen_lt {position : Nat} {instructions : List (Instruction τ)}
    (h : streamLen instructions < position) :
    landing position instructions = streamLen instructions := by
  induction instructions generalizing position with
  | nil => rfl
  | cons i rest ih =>
    rw [streamLen_cons] at h
    rw [landing, if_neg (by omega), ih (by omega), streamLen_cons]

theorem landing_eq_streamLen_or_beginsAt (position : Nat) (instructions : List (Instruction τ)) :
    landing position instructions = streamLen instructions ∨
      BeginsAt instructions (landing position instructions) := by
  induction instructions generalizing position with
  | nil => exact Or.inl rfl
  | cons i rest ih =>
    rw [landing, streamLen_cons, beginsAt_cons_iff]
    split
    · exact Or.inr (Or.inl rfl)
    · rcases ih (position - i.wordLen) with hend | hbegins
      · exact Or.inl (by rw [hend])
      · refine Or.inr (Or.inr ⟨by omega, ?_⟩)
        rwa [Nat.add_sub_cancel_left]

/-- No boundary lies between a position and its landing. -/
theorem landing_le_of_beginsAt {position boundary : Nat} {instructions : List (Instruction τ)}
    (h : BeginsAt instructions boundary) (hle : position ≤ boundary) :
    landing position instructions ≤ boundary := by
  induction instructions generalizing position boundary with
  | nil => exact absurd h (not_beginsAt_nil boundary)
  | cons i rest ih =>
    rw [landing]
    split
    · exact Nat.zero_le _
    · rcases (beginsAt_cons_iff i rest boundary).mp h with rfl | ⟨hlen, hrest⟩
      · omega
      · have hle' : landing (position - i.wordLen) rest ≤ boundary - i.wordLen :=
          ih hrest (by omega)
        omega

/-- A position lands in front of an instruction, or where it begins, exactly if it is not behind
that word itself. -/
theorem landing_le_iff {i : Instruction τ} {position : Nat} {instructions : List (Instruction τ)}
    (h : StandsAt instructions i position) (hlabel : i.isLabel = false) (target : Nat) :
    landing target instructions ≤ position ↔ target ≤ position := by
  have hpos : 0 < i.wordLen :=
    Nat.pos_of_ne_zero (mt (Instruction.wordLen_eq_zero_iff i).mp (by simp [hlabel]))
  obtain ⟨front, back, hsplit, hlen⟩ := h
  constructor
  · intro hle
    by_cases hend : target ≤ streamLen instructions
    · exact Nat.le_trans (le_landing hend) hle
    · rw [landing_of_streamLen_lt (Nat.lt_of_not_le hend), hsplit, streamLen_append,
        streamLen_cons] at hle
      omega
  · exact landing_le_of_beginsAt ⟨front, i, back, hsplit, hlen⟩

theorem landing_of_beginsAt {position : Nat} {instructions : List (Instruction τ)}
    (h : BeginsAt instructions position) : landing position instructions = position := by
  apply Nat.le_antisymm (landing_le_of_beginsAt h (Nat.le_refl position))
  apply le_landing
  obtain ⟨front, i, back, rfl, rfl⟩ := h
  rw [streamLen_append]
  exact Nat.le_add_right _ _

theorem landing_streamLen (instructions : List (Instruction τ)) :
    landing (streamLen instructions) instructions = streamLen instructions :=
  Nat.le_antisymm (landing_le_streamLen _ _) (le_landing (Nat.le_refl _))

end SpriteBytecode
