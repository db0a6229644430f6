/-!
The rasters, palettes and sibling components that an animation refers to. Commands carry indices
only; a container says how many assets of each kind there are and which of them have names, finds the
first asset of a name, and resolves the operands of commands. It may resolve them as it likes, and
most do so by index (`Assets.ResolvesByIndex`).
-/

set_option autoImplicit false
set_option relaxedAutoImplicit false

namespace SpriteBytecode

inductive AssetKind where
  | raster
  | palette
  | component
  deriving DecidableEq

def AssetKind.name : AssetKind → String
  | raster => "Raster"
  | palette => "Palette"
  | component => "Component"

/-- An operand as an index below this count, if it is neither negative nor too large. -/
def indexBelow? (count : Nat) (operand : Int) : Option Nat :=
  if 0 ≤ operand ∧ operand < count then some operand.toNat else none

theorem indexBelow?_eq_some_iff (count : Nat) (operand : Int) (index : Nat) :
    indexBelow? count operand = some index ↔ operand = index ∧ index < count := by
  unfold indexBelow?
  split
  · simp only [Option.some.injEq]
    omega
  · simp only [reduceCtorEq, false_iff]
    omega

/-- What playback, validation and records see of an asset container. -/
structure Assets where
  count : AssetKind → Nat
  name? : AssetKind → Nat → Option String
  /-- The first asset of a name. -/
  find? : AssetKind → String → Option Nat
  find?_eq : ∀ kind name, find? kind name =
    (List.range (count kind)).find? fun index ↦ name? kind index == some name
  /-- The asset that an operand selects. -/
  resolve? (kind : AssetKind) (operand : Int) : Option Nat := indexBelow? (count kind) operand

namespace Assets

/-- An operand selects the asset of that index, wherever there is one. -/
def ResolvesByIndex (assets : Assets) : Prop :=
  ∀ kind operand, assets.resolve? kind operand = indexBelow? (assets.count kind) operand

theorem ResolvesByIndex.resolve?_eq_some_iff {assets : Assets} (h : assets.ResolvesByIndex)
    (kind : AssetKind) (operand : Int) (index : Nat) :
    assets.resolve? kind operand = some index ↔
      operand = index ∧ index < assets.count kind := by
  rw [h, indexBelow?_eq_some_iff]

/-- A container whose assets have no names. -/
def anonymous (rasters palettes components : Nat) : Assets where
  count
    | .raster => rasters
    | .palette => palettes
    | .component => components
  name? _ _ := none
  find? _ _ := none
  find?_eq _ _ := (List.find?_eq_none.mpr (by simp)).symm

end Assets

/-- A container that lists the names of its assets by index. -/
structure Inventory where
  rasters : Array String
  palettes : Array String
  components : Array String
  deriving DecidableEq

namespace Inventory

def empty : Inventory := ⟨#[], #[], #[]⟩

def names (inventory : Inventory) : AssetKind → Array String
  | .raster => inventory.rasters
  | .palette => inventory.palettes
  | .component => inventory.components

theorem findIdx?_eq_find?_range (names : List String) (name : String) :
    names.findIdx? (· == name) =
      (List.range names.length).find? fun index ↦ names[index]? == some name := by
  induction names with
  | nil => rfl
  | cons other rest ih =>
    have hrest : ((fun index ↦ (other :: rest)[index]? == some name) ∘ Nat.succ) =
        fun index ↦ rest[index]? == some name := rfl
    rw [List.findIdx?_cons, List.length_cons, List.range_succ_eq_map, List.find?_cons,
      List.find?_map, hrest, ← ih]
    cases h : other == name <;> simp [h]

def assets (inventory : Inventory) : Assets where
  count kind := (inventory.names kind).size
  name? kind index := (inventory.names kind)[index]?
  find? kind name := (inventory.names kind).findIdx? (· == name)
  find?_eq kind name := by
    cases inventory.names kind
    simp [findIdx?_eq_find?_range]

def numbered (stem : String) (count : Nat) : Array String :=
  (Array.range count).map fun index ↦ stem ++ toString index

/-- Generated names: a stem for each kind and the index behind it. -/
def withCounts (rasters palettes components : Nat) : Inventory where
  rasters := numbered "Raster_" rasters
  palettes := numbered "Pal_" palettes
  components := numbered "Comp_" components

@[simp] theorem count_assets (inventory : Inventory) (kind : AssetKind) :
    inventory.assets.count kind = (inventory.names kind).size := rfl

@[simp] theorem name?_assets (inventory : Inventory) (kind : AssetKind) (index : Nat) :
    inventory.assets.name? kind index = (inventory.names kind)[index]? := rfl

theorem resolvesByIndex_assets (inventory : Inventory) : inventory.assets.ResolvesByIndex :=
  fun _ _ ↦ rfl

end Inventory

end SpriteBytecode
