import SpriteBytecode.Proofs.Disassembly.Layout
import SpriteBytecode.Proofs.Record.NormalForm

/-!
Where the destinations of records lead. Labels can be numbered while records are read, with a table
of what each name stands for so far: in a first pass the label records, of which the first of a name
takes the name, and in a second pass the destinations that the table does not have yet
(`twoPasses`). The table always has the first label of every name (`Scope.Indexed`), so that this is
the list of the records (`twoPasses_eq_ofRecords`), whose destinations are looked up in the finished
arena. Behind the label records the arena holds the other destinations in the order in which records
first use them (`pairwise_firstUse`). A marker stands where its record does, so that the label of a
name is placed where the first label record of that name is (`findIdx?_commandsFrom`).
-/

set_option autoImplicit false
set_option relaxedAutoImplicit false

namespace SpriteBytecode

namespace Import

/-! ### Destinations in order of first use -/

/-- The place of the first jump to a name. -/
def firstUse (records : List CommandRecord) (name : String) : Nat :=
  records.findIdx fun record ↦ record.destination? == some name

theorem firstUse_cons_of_ne {record : CommandRecord} {name : String}
    (h : record.destination? ≠ some name) (rest : List CommandRecord) :
    firstUse (record :: rest) name = firstUse rest name + 1 := by
  rw [firstUse, List.findIdx_cons, beq_eq_false_iff_ne.mpr h]
  rfl

theorem firstUse_cons_self {record : CommandRecord} {name : String}
    (h : record.destination? = some name) (rest : List CommandRecord) :
    firstUse (record :: rest) name = 0 := by
  rw [firstUse, List.findIdx_cons, h, beq_self_eq_true]
  rfl

/-- Each of the names is in the place of its first use. -/
theorem pairwise_firstUse (keep : String → Bool) (records : List CommandRecord) :
    ((records.filterMap (·.destination?)).filter keep).eraseDups.Pairwise fun first second ↦
      firstUse records first < firstUse records second := by
  induction records generalizing keep with
  | nil => exact List.Pairwise.nil
  | cons record rest ih =>
    -- names that the record does not use move one place back together
    have hlater (keep : String → Bool)
        (hkeep : ∀ name, keep name = true → record.destination? ≠ some name) :
        ((rest.filterMap (·.destination?)).filter keep).eraseDups.Pairwise fun first second ↦
          firstUse (record :: rest) first < firstUse (record :: rest) second := by
      refine List.Pairwise.imp_of_mem ?_ (ih keep)
      intro first second hfirst hsecond hlt
      have hfirst := hkeep first (List.mem_filter.mp (List.mem_eraseDups.mp hfirst)).2
      have hsecond := hkeep second (List.mem_filter.mp (List.mem_eraseDups.mp hsecond)).2
      rw [firstUse_cons_of_ne hfirst, firstUse_cons_of_ne hsecond]
      exact Nat.succ_lt_succ hlt
    rcases hdestination : record.destination? with - | name
    · rw [List.filterMap_cons_none hdestination]
      refine hlater keep fun name _ ↦ ?_
      rw [hdestination]
      exact Option.some_ne_none name |>.symm
    · rw [List.filterMap_cons_some hdestination]
      rcases hname : keep name with - | -
      · rw [List.filter_cons_of_neg (by simp [hname])]
        refine hlater keep fun other hother hsame ↦ ?_
        obtain rfl := Option.some.inj (hdestination.symm.trans hsame)
        exact Bool.noConfusion (hname.symm.trans hother)
      · rw [List.filter_cons_of_pos hname, List.eraseDups_cons, List.filter_filter,
          List.pairwise_cons]
        refine ⟨?_, hlater _ ?_⟩
        · intro other hother
          have hkept := (List.mem_filter.mp (List.mem_eraseDups.mp hother)).2
          have hne : other ≠ name := by
            rintro rfl
            simp at hkept
          rw [firstUse_cons_self hdestination, firstUse_cons_of_ne]
          · exact Nat.succ_pos _
          · rw [hdestination]
            exact fun hsame ↦ hne (Option.some.inj hsame).symm
        · intro other hother hsame
          rw [hdestination] at hsame
          simp [Option.some.inj hsame] at hother

/-! ### Numbering in two passes -/

/-- The names of the labels so far, and the label that each name stands for. -/
structure Scope where
  names : List String
  label? : String → Option LabelId

namespace Scope

def empty : Scope := ⟨[], fun _ ↦ none⟩

/-- A new label; a name that stands for a label already goes on to stand for it. -/
def add (scope : Scope) (name : String) : Scope where
  names := scope.names ++ [name]
  label? other :=
    if other = name then (scope.label? name).or (some ⟨scope.names.length⟩) else scope.label? other

/-- The label of a destination, which is new if the name stands for none. -/
def target (scope : Scope) (destination : String) : LabelId × Scope :=
  match scope.label? destination with
  | some id => (id, scope)
  | none => (⟨scope.names.length⟩, scope.add destination)

/-- Every name of a label stands for the first label of that name. -/
def Indexed (scope : Scope) : Prop :=
  ∀ name, scope.label? name =
    if name ∈ scope.names then some (labelFor scope.names name) else none

theorem indexed_empty : empty.Indexed := fun _ ↦ rfl

variable {scope : Scope}

theorem Indexed.add (h : scope.Indexed) (name : String) : (scope.add name).Indexed := by
  intro other
  have hfirst := h other
  by_cases hother : other ∈ scope.names
  · rw [if_pos hother] at hfirst
    have hsame : labelFor (scope.names ++ [name]) other = labelFor scope.names other := by
      rw [labelFor, labelFor, List.idxOf_append_of_mem hother]
    rw [Scope.add, if_pos (List.mem_append_left _ hother), hsame]
    dsimp only
    split
    · next heq => rw [← heq, hfirst, Option.some_or]
    · exact hfirst
  · rw [if_neg hother] at hfirst
    rw [Scope.add]
    dsimp only
    split
    · next heq =>
      subst heq
      rw [hfirst, Option.none_or, if_pos (List.mem_append_right _ (List.mem_singleton_self _)),
        labelFor, List.idxOf_append_of_notMem hother, List.idxOf_cons_self, Nat.add_zero]
    · next hne => rw [hfirst, if_neg (by simp [hother, hne])]

end Scope

/-- The labels of the label records, each a new one, and what names stand for behind them. -/
def firstPass (scope : Scope) : List CommandRecord → List LabelId × Scope
  | [] => ([], scope)
  | .label name :: rest =>
    let pass := firstPass (scope.add name) rest
    (⟨scope.names.length⟩ :: pass.1, pass.2)
  | _ :: rest => firstPass scope rest

/-- The commands, with the labels of the first pass for the label records, and what names stand for
behind them. -/
def secondPass (assets : Assets) (markers : List LabelId) (scope : Scope) :
    List CommandRecord → List Command × Scope
  | [] => ([], scope)
  | .label _ :: rest =>
    match markers with
    | [] => secondPass assets [] scope rest
    | marker :: markers =>
      let pass := secondPass assets markers scope rest
      (.label marker :: pass.1, pass.2)
  | .goto destination :: rest =>
    let target := scope.target destination
    let pass := secondPass assets markers target.2 rest
    (.goto target.1 :: pass.1, pass.2)
  | .loop destination count :: rest =>
    let target := scope.target destination
    let pass := secondPass assets markers target.2 rest
    (.loop target.1 count :: pass.1, pass.2)
  | record :: rest =>
    let pass := secondPass assets markers scope rest
    (command assets [] ⟨0⟩ record :: pass.1, pass.2)

/-- The list of the records, with labels numbered as they are met. -/
def twoPasses (records : List CommandRecord) (assets : Assets) : CommandList :=
  let labels := firstPass .empty records
  let pass := secondPass assets labels.1 labels.2 records
  { commands := pass.1, labelNames := pass.2.names }

/-- Names that have labels, and behind them the destinations that they lack. -/
def arenaFrom (names : List String) (records : List CommandRecord) : List String :=
  names ++ ((records.filterMap (·.destination?)).filter (!names.contains ·)).eraseDups

theorem arenaFrom_cons {names : List String} {record : CommandRecord}
    (h : ∀ name, record.destination? = some name → name ∈ names) (rest : List CommandRecord) :
    arenaFrom names (record :: rest) = arenaFrom names rest := by
  rw [arenaFrom, arenaFrom, List.filterMap_cons]
  rcases hdestination : record.destination? with - | name
  · rfl
  · dsimp only
    rw [List.filter_cons_of_neg (by simp [h name hdestination])]

theorem arenaFrom_cons_of_notMem {names : List String} {record : CommandRecord} {name : String}
    (hdestination : record.destination? = some name) (hname : name ∉ names)
    (rest : List CommandRecord) :
    arenaFrom names (record :: rest) = arenaFrom (names ++ [name]) rest := by
  have hkeep : (fun other ↦ !(names ++ [name]).contains other) =
      fun other ↦ !other == name && !names.contains other := by
    funext other
    rw [List.contains_append, List.contains_cons, List.contains_nil, Bool.or_false, Bool.not_or,
      Bool.and_comm]
  rw [arenaFrom, arenaFrom, List.filterMap_cons_some hdestination,
    List.filter_cons_of_pos (by simp [hname]), List.eraseDups_cons, List.filter_filter,
    List.append_assoc, List.singleton_append, hkeep]

theorem labelFor_arenaFrom {names : List String} {name : String} (h : name ∈ names)
    (records : List CommandRecord) :
    labelFor (arenaFrom names records) name = labelFor names name := by
  rw [labelFor, labelFor, arenaFrom, List.idxOf_append_of_mem h]

/-- Labels from `marker` on, one for each label record. -/
def markersFrom (marker : Nat) (records : List CommandRecord) : List LabelId :=
  (List.range' marker (labelNames records).length).map LabelId.mk

theorem firstPass_eq (scope : Scope) (records : List CommandRecord) :
    (firstPass scope records).1 = markersFrom scope.names.length records ∧
      (firstPass scope records).2.names = scope.names ++ labelNames records ∧
      (scope.Indexed → (firstPass scope records).2.Indexed) := by
  induction records generalizing scope with
  | nil => exact ⟨rfl, (List.append_nil _).symm, id⟩
  | cons record rest ih =>
    cases record with
    | label name =>
      obtain ⟨hmarkers, hnames, hindexed⟩ := ih (scope.add name)
      have hadd : (scope.add name).names = scope.names ++ [name] := rfl
      rw [hadd, List.length_append, List.length_singleton] at hmarkers
      rw [hadd, List.append_assoc] at hnames
      refine ⟨?_, hnames, fun h ↦ hindexed (h.add name)⟩
      exact congrArg (⟨scope.names.length⟩ :: ·) hmarkers
    | _ => exact ih scope

/-- The label of a destination is the one that the finished arena has for it. -/
theorem Scope.Indexed.target {scope : Scope} (h : scope.Indexed) (record : CommandRecord)
    {destination : String} (hdestination : record.destination? = some destination)
    (rest : List CommandRecord) :
    (scope.target destination).1 =
        labelFor (arenaFrom scope.names (record :: rest)) destination ∧
      arenaFrom (scope.target destination).2.names rest =
        arenaFrom scope.names (record :: rest) ∧
      (scope.target destination).2.Indexed := by
  have hlookup := h destination
  rw [Scope.target]
  by_cases hname : destination ∈ scope.names
  · have harena : arenaFrom scope.names (record :: rest) = arenaFrom scope.names rest := by
      refine arenaFrom_cons ?_ rest
      intro name hsame
      rwa [← Option.some.inj (hdestination.symm.trans hsame)]
    rw [hlookup, if_pos hname, harena]
    exact ⟨(labelFor_arenaFrom hname rest).symm, rfl, h⟩
  · have harena := arenaFrom_cons_of_notMem hdestination hname rest
    rw [hlookup, if_neg hname, harena]
    refine ⟨?_, rfl, h.add destination⟩
    rw [labelFor_arenaFrom (List.mem_append_right _ (List.mem_singleton_self _)), labelFor,
      List.idxOf_append_of_notMem hname, List.idxOf_cons_self, Nat.add_zero]

theorem secondPass_eq (assets : Assets) {scope : Scope} (h : scope.Indexed) (marker : Nat)
    (records : List CommandRecord) :
    (secondPass assets (markersFrom marker records) scope records).1 =
        commandsFrom assets (arenaFrom scope.names records) marker records ∧
      (secondPass assets (markersFrom marker records) scope records).2.names =
        arenaFrom scope.names records := by
  induction records generalizing scope marker with
  | nil => exact ⟨rfl, (List.append_nil _).symm⟩
  | cons record rest ih =>
    have hplain : record.destination? = none →
        arenaFrom scope.names (record :: rest) = arenaFrom scope.names rest := by
      intro hnone
      refine arenaFrom_cons ?_ rest
      simp [hnone]
    cases record with
    | label name =>
      obtain ⟨hcommands, hnames⟩ := ih h (marker + 1)
      rw [hplain rfl]
      exact ⟨congrArg (List.cons (Instruction.label (LabelId.mk marker))) hcommands, hnames⟩
    | goto destination =>
      obtain ⟨htarget, harena, hnext⟩ := h.target (.goto destination) rfl rest
      obtain ⟨hcommands, hnames⟩ := ih hnext marker
      rw [harena] at hcommands hnames
      exact ⟨congrArg₂ List.cons (congrArg Instruction.goto htarget) hcommands, hnames⟩
    | loop destination count =>
      obtain ⟨htarget, harena, hnext⟩ := h.target (.loop destination count) rfl rest
      obtain ⟨hcommands, hnames⟩ := ih hnext marker
      rw [harena] at hcommands hnames
      exact ⟨congrArg₂ List.cons (congrArg (Instruction.loop · count) htarget) hcommands, hnames⟩
    | _ =>
      obtain ⟨hcommands, hnames⟩ := ih h marker
      rw [hplain rfl]
      exact ⟨congrArg (List.cons _) hcommands, hnames⟩

/-- Labels that are numbered while records are read are those of the finished arena. -/
theorem twoPasses_eq_ofRecords (records : List CommandRecord) (assets : Assets) :
    twoPasses records assets = CommandList.ofRecords records assets := by
  obtain ⟨hmarkers, hnames, hindexed⟩ := firstPass_eq .empty records
  obtain ⟨hcommands, harena⟩ := secondPass_eq assets (hindexed Scope.indexed_empty) 0 records
  have hlength : Scope.empty.names.length = 0 := rfl
  rw [hlength] at hmarkers
  rw [hnames] at hcommands harena
  rw [twoPasses, hmarkers, hcommands, harena]
  rfl

/-! ### Places of the labels -/

theorem getElem?_commandsFrom (assets : Assets) (arena : List String) (marker : Nat)
    (records : List CommandRecord) (index : Nat) :
    (commandsFrom assets arena marker records)[index]? =
      records[index]?.map
        (command assets arena ⟨marker + (labelNames (records.take index)).length⟩) := by
  induction records generalizing marker index with
  | nil => rfl
  | cons record rest ih =>
    cases index with
    | zero => rfl
    | succ index =>
      rw [commandsFrom, List.getElem?_cons_succ, List.getElem?_cons_succ, ih, List.take_succ_cons,
        labelNames_cons, List.length_append, Nat.add_assoc]

theorem length_commandsFrom (assets : Assets) (arena : List String) (marker : Nat)
    (records : List CommandRecord) :
    (commandsFrom assets arena marker records).length = records.length := by
  induction records generalizing marker with
  | nil => rfl
  | cons record rest ih => rw [commandsFrom, List.length_cons, List.length_cons, ih]

theorem labelOf?_command (assets : Assets) (arena : List String) (marker : LabelId)
    (record : CommandRecord) :
    CommandList.labelOf? (command assets arena marker record) =
      record.labelName?.map fun _ ↦ marker := by
  cases record <;> rfl

theorem labelFor_append_cons_eq_iff {front : List String} {name : String} (hfront : name ∉ front)
    (other : String) (back : List String) :
    ⟨front.length⟩ = labelFor (front ++ other :: back) name ↔ other = name := by
  rw [labelFor, List.idxOf_append_of_notMem hfront, LabelId.mk.injEq]
  by_cases hname : other = name
  · simp [hname]
  · simp [List.idxOf_cons_ne _ hname, hname]

/-- The first label of a name is placed where the first label record of the name is. -/
theorem findIdx?_commandsFrom (assets : Assets) {arena front back : List String} {name : String}
    (hfront : name ∉ front) {records : List CommandRecord}
    (harena : arena = front ++ (labelNames records ++ back)) :
    (commandsFrom assets arena front.length records).findIdx? (· == .label (labelFor arena name)) =
      records.findIdx? (·.labelName? == some name) := by
  induction records generalizing front with
  | nil => rfl
  | cons record rest ih =>
    have hmarks : command assets arena ⟨front.length⟩ record = .label (labelFor arena name) ↔
        record.labelName?.map (fun _ ↦ LabelId.mk front.length) = some (labelFor arena name) := by
      rw [← CommandList.labelOf?_eq_some_iff, labelOf?_command]
    rw [labelNames_cons] at harena
    rw [commandsFrom, List.findIdx?_cons, List.findIdx?_cons]
    simp only [beq_iff_eq, hmarks]
    rcases hlabel : record.labelName? with - | other
    · rw [hlabel] at harena
      exact congrArg (Option.map (· + 1)) (ih hfront harena)
    · rw [hlabel, Option.toList_some, List.singleton_append, List.cons_append] at harena
      have hhere := labelFor_append_cons_eq_iff hfront other (labelNames rest ++ back)
      rw [← harena] at hhere
      simp only [Option.map_some, Option.some.injEq, hhere]
      by_cases hname : other = name
      · rw [if_pos hname, if_pos hname]
      · rw [if_neg hname, if_neg hname]
        have hrest := @ih (front ++ [other]) (by simp [hfront, Ne.symm hname])
          (by rw [harena, List.append_assoc]; rfl)
        rw [List.length_append] at hrest
        exact congrArg (Option.map (· + 1)) hrest

/-- A name dangles if a jump goes to it and no label has it. -/
theorem mem_danglingNames_iff (records : List CommandRecord) (name : String) :
    name ∈ danglingNames records ↔ (∃ record ∈ records, record.destination? = some name) ∧
      ∀ record ∈ records, record.labelName? ≠ some name := by
  simp only [danglingNames, List.mem_eraseDups, List.mem_filter, List.mem_filterMap, labelNames,
    List.contains_eq_mem, Bool.not_eq_true', decide_eq_false_iff_not, not_exists, not_and]

theorem jumpTarget?_command (assets : Assets) (arena : List String) (marker : LabelId)
    {record : CommandRecord} {name : String} (h : record.destination? = some name) :
    (command assets arena marker record).jumpTarget? = some (labelFor arena name) := by
  cases record with
  | goto destination | loop destination count =>
    rw [← Option.some.inj h]
    rfl
  | _ => exact absurd h.symm (Option.some_ne_none name)

end Import

namespace CommandList

variable (records : List CommandRecord) (assets : Assets)

theorem get?_ofRecords (index : Nat) :
    (ofRecords records assets).get? index =
      records[index]?.map (Import.command assets (Import.arena records)
        ⟨(records.take index).countP (·.labelName?.isSome)⟩) := by
  rw [get?, ofRecords, Import.getElem?_commandsFrom, Nat.zero_add, Import.labelNames,
    List.length_filterMap_eq_countP]

theorem labelName?_labelFor {record : CommandRecord} {name : String} (hrecord : record ∈ records)
    (hname : record.destination? = some name) :
    (ofRecords records assets).labelName? (Import.labelFor (Import.arena records) name) =
      some name :=
  List.getElem?_idxOf (Import.mem_arena_of_destination? hrecord hname)

theorem findLabel?_labelFor (name : String) :
    (ofRecords records assets).findLabel? (Import.labelFor (Import.arena records) name) =
      records.findIdx? (·.labelName? == some name) :=
  Import.findIdx?_commandsFrom assets List.not_mem_nil rfl

end CommandList

/-- Every record has its command in its place. The arena holds the names of the label records in
order, and behind them the destinations that none of them has, each once and in order of first use.
A name has one label for all jumps to it, before or behind its label records: it is placed where the
first label record of that name is, and nowhere if there is none. -/
theorem ofRecords_resolves (records : List CommandRecord) (assets : Assets) :
    ∃ (list : CommandList) (dangling : List String) (handle : String → LabelId),
      CommandList.ofRecords records assets = list ∧
      Import.twoPasses records assets = list ∧
      list.length = records.length ∧
      (∀ index, list.get? index = records[index]?.map (Import.command assets list.labelNames
        ⟨(records.take index).countP (·.labelName?.isSome)⟩)) ∧
      list.labelNames = records.filterMap (·.labelName?) ++ dangling ∧
      dangling.Nodup ∧
      (∀ name, name ∈ dangling ↔ (∃ record ∈ records, record.destination? = some name) ∧
        ∀ record ∈ records, record.labelName? ≠ some name) ∧
      (dangling.Pairwise fun first second ↦
        Import.firstUse records first < Import.firstUse records second) ∧
      ∀ index record name, records[index]? = some record → record.destination? = some name →
        ∃ jump, list.get? index = some jump ∧ jump.jumpTarget? = some (handle name) ∧
          list.labelName? (handle name) = some name ∧
          list.findLabel? (handle name) = records.findIdx? (·.labelName? == some name) := by
  have hget := CommandList.get?_ofRecords records assets
  refine ⟨_, Import.danglingNames records, Import.labelFor (Import.arena records), rfl,
    Import.twoPasses_eq_ofRecords records assets, Import.length_commandsFrom assets _ 0 records,
    hget, rfl, nodup_eraseDups _, Import.mem_danglingNames_iff records,
    Import.pairwise_firstUse _ records, ?_⟩
  intro index record name hrecord hname
  exact ⟨_, (hget index).trans (congrArg _ hrecord), Import.jumpTarget?_command assets _ _ hname,
    CommandList.labelName?_labelFor records assets (List.mem_of_getElem? hrecord) hname,
    CommandList.findLabel?_labelFor records assets name⟩

/-- A jump ahead to the first of two labels of its name, around jumps to a name without a label. -/
example :
    CommandList.ofRecords [.goto "End", .goto "Away", .label "Start", .label "End", .label "End",
        .loop "Away" 2] (Assets.anonymous 0 0 0) =
      { commands := [.goto ⟨1⟩, .goto ⟨3⟩, .label ⟨0⟩, .label ⟨1⟩, .label ⟨2⟩, .loop ⟨3⟩ 2],
        labelNames := ["Start", "End", "End", "Away"] } := by
  decide

end SpriteBytecode
