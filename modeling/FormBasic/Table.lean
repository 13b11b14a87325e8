import FormBasic.Text.Basic

/-!
# Tables

A table maps names to values and remembers the order in which names were first added: writing to a
name that is present keeps its place.

## Main definitions

* `Table` - the entries in order
* `Table.get?`, `Table.contains` - look-up
* `Table.set`, `Table.setAll` - writing
* `Table.keys`, `Table.values` - the entries' two sides, in order
-/

namespace FormBasic

/-- Names with values, in the order in which the names were added. -/
structure Table (β : Type) where
  entries : List (Text × β) := []
  deriving Repr, BEq

namespace Table

variable {β : Type}

/-- The table without entries. -/
def empty : Table β := ⟨[]⟩

instance : Inhabited (Table β) := ⟨empty⟩

/-- Looks a name up in a list of entries. -/
def lookup (name : Text) : List (Text × β) → Option β
  | [] => none
  | (key, value) :: rest => if key = name then some value else lookup name rest

/-- Writes to a name in a list of entries. -/
def write (name : Text) (value : β) : List (Text × β) → List (Text × β)
  | [] => [(name, value)]
  | (key, old) :: rest =>
    if key = name then (key, value) :: rest else (key, old) :: write name value rest

/-- The value of a name. -/
def get? (t : Table β) (name : Text) : Option β := lookup name t.entries

/-- Whether the name is present. -/
def contains (t : Table β) (name : Text) : Bool := (t.get? name).isSome

/-- The table with a value written to a name. -/
def set (t : Table β) (name : Text) (value : β) : Table β := ⟨write name value t.entries⟩

/-- The names in order. -/
def keys (t : Table β) : List Text := t.entries.map Prod.fst

/-- The values in order. -/
def values (t : Table β) : List β := t.entries.map Prod.snd

/-- Number of names. -/
def size (t : Table β) : Nat := t.entries.length

/-- Writes entries one after the other. -/
def setAll (t : Table β) (entries : List (Text × β)) : Table β :=
  entries.foldl (fun t e => t.set e.1 e.2) t

/-- The table of a list of entries: of several values for a name the last one wins, at the first
one's place. -/
def ofList (entries : List (Text × β)) : Table β := setAll empty entries

-- ════════════════════════════════════════════════════════════════════════════
-- Look-up after writing
-- ════════════════════════════════════════════════════════════════════════════

theorem lookup_write (name other : Text) (value : β) (entries : List (Text × β)) :
    lookup other (write name value entries) =
      if other = name then some value else lookup other entries := by
  induction entries with
  | nil =>
    by_cases h : other = name
    · subst h; simp [write, lookup]
    · simp [write, lookup, h, Ne.symm h]
  | cons e rest ih =>
    obtain ⟨key, old⟩ := e
    by_cases hk : key = name
    · subst hk
      by_cases h : other = key
      · subst h; simp [write, lookup]
      · simp [write, lookup, h, Ne.symm h]
    · by_cases h : key = other
      · subst h
        simp [write, lookup, hk]
      · simp [write, lookup, hk, h, ih]

/-- Looking a name up after a write gives the written value or the old one. -/
@[simp]
theorem get?_set (t : Table β) (name other : Text) (value : β) :
    (t.set name value).get? other = if other = name then some value else t.get? other :=
  lookup_write name other value t.entries

@[simp]
theorem get?_empty (name : Text) : (empty : Table β).get? name = none := rfl

theorem contains_set (t : Table β) (name other : Text) (value : β) :
    (t.set name value).contains other = (decide (other = name) || t.contains other) := by
  by_cases h : other = name <;> simp [contains, h]

end Table

end FormBasic
