import SpriteBytecode.Proofs.Record.Resolution
import SpriteBytecode.Proofs.Validation.Report

/-!
Which component a parent record attaches to. A reference means the component of its index, or the
first one of its name (`AssetRef.resolve?_eq_some_iff`), and where that index fits a byte, it is the
parent (`AssetRef.parentOperand_of_means`). Every other reference, to an unknown name or to a
component beyond the byte, has the parent 255 (`AssetRef.parentOperand_of_not_means`), which is a
component of a container with more than 255 of them. In smaller containers it is reported as
dangling (`parent_of_setParent`).
-/

set_option autoImplicit false
set_option relaxedAutoImplicit false

namespace SpriteBytecode

namespace AssetRef

/-- The asset of that index, or the first one of that name. -/
def Means (assets : Assets) (kind : AssetKind) (index : Nat) : AssetRef → Prop
  | .index value => value = index
  | .named name =>
    index < assets.count kind ∧ assets.name? kind index = some name ∧
      ∀ earlier < index, assets.name? kind earlier ≠ some name

variable {assets : Assets} {reference : AssetRef}

theorem resolve?_named_eq_some_iff {kind : AssetKind} {name : String} {value : Int} :
    (named name).resolve? assets kind = some value ↔
      ∃ index : Nat, value = index ∧ (named name).Means assets kind index := by
  rw [resolve?, Option.map_eq_some_iff]
  refine exists_congr fun index ↦ ?_
  rw [assets.find?_eq, List.find?_range_eq_some, and_comm, Means, List.mem_range, beq_iff_eq]
  refine and_congr eq_comm ⟨?_, ?_⟩
  · rintro ⟨hname, hlt, hearlier⟩
    exact ⟨hlt, hname, fun earlier h ↦ by simpa using hearlier earlier h⟩
  · rintro ⟨hlt, hname, hearlier⟩
    exact ⟨hname, hlt, fun earlier h ↦ by simpa using hearlier earlier h⟩

theorem resolve?_eq_some_iff {kind : AssetKind} {index : Nat} :
    reference.resolve? assets kind = some (index : Int) ↔ reference.Means assets kind index := by
  cases reference with
  | index value => rw [resolve?, Option.some.injEq, Means]
  | named name =>
    rw [resolve?_named_eq_some_iff]
    constructor
    · rintro ⟨other, hother, hmeans⟩
      rwa [Int.ofNat_inj.mp hother]
    · exact fun hmeans ↦ ⟨index, rfl, hmeans⟩

theorem parentOperand_of_means {component : Nat}
    (h : reference.Means assets .component component) (hbyte : component < 256) :
    (reference.parentOperand assets).toNat = component := by
  rw [parentOperand, resolve?_eq_some_iff.mpr h]
  dsimp only
  rw [if_pos ⟨Int.natCast_nonneg _, by omega⟩, Int.toNat_natCast]
  exact UInt8.toNat_ofNat_of_lt' hbyte

theorem parentOperand_of_not_means
    (h : ∀ component < 256, ¬ reference.Means assets .component component) :
    reference.parentOperand assets = unresolvedParent := by
  rw [parentOperand]
  rcases hresolve : reference.resolve? assets .component with - | value
  · rfl
  · refine if_neg fun hfits ↦ h value.toNat (by omega) (resolve?_eq_some_iff.mp ?_)
    rw [hresolve, Int.toNat_of_nonneg hfits.1]

/-- What a parent resolves to is what the reference means, or the component of an operand that stands
for no component. -/
theorem means_or_unresolved (hassets : assets.ResolvesByIndex) {component : Nat}
    (h : assets.resolve? .component (reference.parentOperand assets).toNat = some component) :
    reference.Means assets .component component ∨
      component = 255 ∧ ∀ other < 256, ¬ reference.Means assets .component other := by
  obtain ⟨hparent, -⟩ := (hassets.resolve?_eq_some_iff _ _ _).mp h
  rw [Int.ofNat_inj] at hparent
  by_cases hmeans : ∃ other < 256, reference.Means assets .component other
  · obtain ⟨other, hbyte, hother⟩ := hmeans
    rw [parentOperand_of_means hother hbyte] at hparent
    exact Or.inl (hparent ▸ hother)
  · have hnone : ∀ other < 256, ¬ reference.Means assets .component other :=
      fun other hbyte hother ↦ hmeans ⟨other, hbyte, hother⟩
    rw [parentOperand_of_not_means hnone] at hparent
    exact Or.inr ⟨hparent.symm, hnone⟩

end AssetRef

/-- A parent is reported as dangling if there is no component of that index. -/
theorem CommandList.danglingParent_mem_validate_iff {list : CommandList} {index : Nat}
    {parent : UInt8} (hget : list.get? index = some (.setParent parent)) {assets : Assets}
    (hassets : assets.ResolvesByIndex) (owner : Option Nat) :
    ⟨index, .danglingParent parent⟩ ∈ list.validate assets owner ↔
      assets.count .component ≤ parent.toNat := by
  have hproblem : list.labelTable.problem? assets owner index (.setParent parent) =
      some (.danglingParent parent) ↔ assets.resolve? .component parent.toNat = none := by
    rw [LabelTable.problem?]
    split
    · next hnone => simp [hnone]
    · next hsome =>
      simp only [hsome, iff_false]
      split <;> simp
  rw [list.mem_validate_iff]
  constructor
  · rintro ⟨command, hcommand, hdangling⟩
    obtain rfl := Option.some.inj (hget.symm.trans hcommand)
    have hnone := hproblem.mp hdangling
    by_contra hlt
    have hsome := (hassets.resolve?_eq_some_iff .component parent.toNat parent.toNat).mpr
      ⟨rfl, Nat.lt_of_not_le hlt⟩
    exact absurd (hnone.symm.trans hsome) (Option.some_ne_none _).symm
  · intro hle
    refine ⟨_, hget, hproblem.mpr ?_⟩
    rw [Option.eq_none_iff_forall_ne_some]
    intro component hsome
    obtain ⟨hparent, hlt⟩ := (hassets.resolve?_eq_some_iff _ _ _).mp hsome
    omega

theorem CommandList.get?_ofRecords_setParent {records : List CommandRecord} {index : Nat}
    {reference : AssetRef} (hrecord : records[index]? = some (.setParent reference))
    (assets : Assets) :
    (ofRecords records assets).get? index = some (.setParent (reference.parentOperand assets)) := by
  rw [get?_ofRecords, hrecord]
  rfl

/-- Where operands select by index, a parent record attaches to the component that it means, if that
has an index of a byte, and else to component 255. So what it attaches to is what it means, or it is component 255 and the
record means none. The latter is reported as dangling if and only if there are at most 255
components. -/
theorem parent_of_setParent {records : List CommandRecord} {index : Nat} {reference : AssetRef}
    (hrecord : records[index]? = some (.setParent reference)) {assets : Assets}
    (hassets : assets.ResolvesByIndex) (owner : Option Nat) :
    ∃ (list : CommandList) (parent : UInt8), CommandList.ofRecords records assets = list ∧
      list.get? index = some (.setParent parent) ∧
      (∀ component, assets.resolve? .component parent.toNat = some component →
        reference.Means assets .component component ∨
          component = 255 ∧ ∀ other < 256, ¬ reference.Means assets .component other) ∧
      (∀ component < 256, reference.Means assets .component component →
        parent.toNat = component ∧
          (⟨index, .danglingParent parent⟩ ∈ list.validate assets owner ↔
            assets.count .component ≤ component)) ∧
      ((∀ component < 256, ¬ reference.Means assets .component component) →
        parent.toNat = 255 ∧
          (⟨index, .danglingParent parent⟩ ∈ list.validate assets owner ↔
            assets.count .component ≤ 255)) := by
  have hget := CommandList.get?_ofRecords_setParent hrecord assets
  have hdangling := CommandList.danglingParent_mem_validate_iff hget hassets owner
  refine ⟨_, _, rfl, hget, fun _ hresolve ↦ AssetRef.means_or_unresolved hassets hresolve, ?_, ?_⟩
  · intro component hbyte hmeans
    have hparent := AssetRef.parentOperand_of_means hmeans hbyte
    rw [hdangling, hparent]
    exact ⟨rfl, Iff.rfl⟩
  · intro hnone
    have hparent := AssetRef.parentOperand_of_not_means hnone
    rw [hdangling, hparent]
    exact ⟨rfl, Iff.rfl⟩

/-- One component. -/
def oneBody : Inventory := ⟨#[], #[], #["Body"]⟩

/-- With one component a parent of another name is reported. -/
theorem parent_of_setParent_nobody :
    ∃ list, CommandList.ofRecords [.wait 2, .setParent (.named "nobody")] oneBody.assets = list ∧
      list.get? 1 = some (.setParent 255) ∧
      ⟨1, .danglingParent 255⟩ ∈ list.validate oneBody.assets (some 0) := by
  obtain ⟨list, parent, hlist, hget, -, -, hnone⟩ :=
    @parent_of_setParent [.wait 2, .setParent (.named "nobody")] 1 _ rfl _
      oneBody.resolvesByIndex_assets (some 0)
  obtain ⟨hparent, hdangling⟩ := hnone (by
    rintro component - ⟨hlt, hname, -⟩
    obtain rfl : component = 0 := Nat.lt_one_iff.mp hlt
    exact absurd hname (by decide))
  obtain rfl : parent = 255 := UInt8.toNat_inj.mp hparent
  exact ⟨list, hlist, hget, hdangling.mpr (by decide)⟩

theorem Inventory.count_component_withCounts (rasters palettes components : Nat) :
    (withCounts rasters palettes components).assets.count .component = components := by
  simp [names, withCounts, numbered]

/-- A container of counts has components of generated names only. -/
theorem Inventory.exists_of_means_withCounts {rasters palettes components index : Nat}
    {name : String}
    (h : (AssetRef.named name).Means (withCounts rasters palettes components).assets .component
      index) : ∃ number : Nat, "Comp_" ++ toString number = name := by
  obtain ⟨-, hname, -⟩ := h
  obtain ⟨number, -, hnumber⟩ := Array.mem_map.mp (Array.mem_of_getElem? hname)
  exact ⟨number, hnumber⟩

/-- With 256 components a parent of another name attaches to the last of them, unreported. -/
theorem not_parent_of_setParent :
    ¬ ∀ (records : List CommandRecord) (inventory : Inventory) (index : Nat)
        (reference : AssetRef) (owner : Option Nat),
      records[index]? = some (.setParent reference) →
      ∃ (list : CommandList) (parent : UInt8),
        CommandList.ofRecords records inventory.assets = list ∧
        list.get? index = some (.setParent parent) ∧
        (∀ component, inventory.assets.resolve? .component parent.toNat = some component →
          reference.Means inventory.assets .component component) ∧
        ((∀ component < 256, ¬ reference.Means inventory.assets .component component) →
          ⟨index, .danglingParent parent⟩ ∈ list.validate inventory.assets owner) := by
  intro hclaim
  have hrecords := hclaim [.setParent (.named "nobody")] (.withCounts 0 0 256) 0 (.named "nobody")
    none rfl
  have hcount := Inventory.count_component_withCounts 0 0 256
  have hnobody (component : Nat) :
      ¬ (AssetRef.named "nobody").Means (Inventory.withCounts 0 0 256).assets .component
        component := by
    intro hmeans
    obtain ⟨number, hnumber⟩ := Inventory.exists_of_means_withCounts hmeans
    have hfirst := congrArg (·.toList.head?) hnumber
    simp at hfirst
  -- what the components are called is not needed any more, and would only be computed
  generalize Inventory.withCounts 0 0 256 = inventory at hrecords hcount hnobody
  obtain ⟨list, parent, rfl, hget, hnamed, -⟩ := hrecords
  obtain rfl : unresolvedParent = parent := by
    have hparent := @CommandList.get?_ofRecords_setParent [.setParent (.named "nobody")] 0 _ rfl
      inventory.assets
    rw [AssetRef.parentOperand_of_not_means fun component _ ↦ hnobody component] at hparent
    exact Instruction.setParent.inj (Option.some.inj (hparent.symm.trans hget))
  have hresolve := (inventory.resolvesByIndex_assets.resolve?_eq_some_iff .component
    unresolvedParent.toNat 255).mpr ⟨rfl, by rw [hcount]; decide⟩
  exact hnobody 255 (hnamed 255 hresolve)

end SpriteBytecode
