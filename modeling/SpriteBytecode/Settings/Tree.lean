/-!
Settings as a tree of named values. A value is put in place by the path that leads to it, by names
through tables and by numbers through lists; what stands in the way gives way, and a list is filled
up as far as needed. Of a table that is put in place of another the entries are put in one by one,
so that the other entries stay.
-/

set_option autoImplicit false
set_option relaxedAutoImplicit false

namespace SpriteBytecode

inductive Setting where
  | integer (value : Int)
  | real (value : Float)
  | flag (value : Bool)
  | text (value : String)
  /-- Nothing has been put here yet. -/
  | blank
  | list (items : List Setting)
  | table (entries : List (String × Setting))

/-- One step on the way to a setting. Negative item numbers count from the end. -/
inductive SettingStep where
  | child (name : String)
  | item (number : Int)
  deriving DecidableEq

/-- The way to a setting from the outermost table. -/
abbrev SettingPath := List SettingStep

namespace Setting

def entries : Setting → List (String × Setting)
  | table entries => entries
  | _ => []

def child? (setting : Setting) (name : String) : Option Setting := setting.entries.lookup name

def items : Setting → List Setting
  | list items => items
  | _ => []

/-- The items with blank ones added so that the one with this number is there, and its index. -/
def reach (items : List Setting) (number : Int) : List Setting × Nat :=
  if 0 ≤ number then
    (items ++ List.replicate (number.toNat + 1 - items.length) blank, number.toNat)
  else
    let fromEnd := number.natAbs
    (List.replicate (fromEnd - items.length) blank ++ items, items.length - fromEnd)

/-- The table with `value` under `name`, in the place of what had the name before. -/
def put (setting : Setting) (name : String) (value : Setting) : Setting :=
  table (setting.entries.filter (·.1 != name) ++ [(name, value)])

mutual

/-- What stands in a place where `below` stood when a value is put there. -/
def overlay (below : Setting) : Setting → Setting
  | table entries => overlayEntries (table below.entries) entries
  | value => value

def overlayEntries (below : Setting) : List (String × Setting) → Setting
  | [] => below
  | (name, value) :: rest =>
    overlayEntries (below.put name (overlay ((below.child? name).getD blank) value)) rest

end

def assign (value : Setting) : SettingPath → Setting → Setting
  | [], below => overlay below value
  | .child name :: path, setting =>
    setting.put name (assign value path ((setting.child? name).getD blank))
  | .item number :: path, setting =>
    let (items, index) := reach setting.items number
    list (items.modify index (assign value path))

theorem lookup_append_self (name : String) (value : Setting) (front : List (String × Setting))
    (h : ∀ entry ∈ front, entry.1 ≠ name) :
    (front ++ [(name, value)]).lookup name = some value := by
  induction front with
  | nil => rw [List.nil_append, List.lookup_cons, beq_self_eq_true]
  | cons entry rest ih =>
    have hne : (name == entry.1) = false := by
      simpa using Ne.symm (h entry (List.mem_cons_self ..))
    rw [List.cons_append, List.lookup_cons, hne]
    exact ih fun other hm ↦ h other (List.mem_cons_of_mem _ hm)

theorem lt_length_reach (items : List Setting) (number : Int) :
    (reach items number).2 < (reach items number).1.length := by
  unfold reach
  split
  · simp
    omega
  · simp
    omega

theorem child?_put (setting : Setting) (name : String) (value : Setting) :
    (setting.put name value).child? name = some value :=
  lookup_append_self name value _ fun entry hm ↦ by simpa using (List.mem_filter.mp hm).2

end Setting

end SpriteBytecode
