import FormBasic.Value.Entries

/-!
# Equal values

Equality of values: numbers and truth values by exact value, texts by their characters, lists item
by item, dictionaries entry by entry in any order, objects and marked NaNs by identity.

## Main definitions

* `Value.equal` - equality of values
-/

namespace FormBasic

mutual

/-- Whether two values are equal as parts of collections. -/
def Value.equal : Value → Value → Bool
  | .nothing, .nothing => true
  | .text s, .text t => s == t
  | .object g, .object h => g == h
  | .nan m, .nan n => m == n
  | .list xs, .list ys => equalItems xs ys
  | .dict es, .dict fs => es.length == fs.length && equalEntries es fs
  | a, b =>
    match a.number?, b.number? with
    | some m, some n => m.same n
    | _, _ => false
termination_by structural v => v

/-- Whether two lists hold equal values. -/
def equalItems : List Value → List Value → Bool
  | [], [] => true
  | x :: xs, y :: ys => x.equal y && equalItems xs ys
  | _, _ => false
termination_by structural xs => xs

/-- Whether every entry is found, with an equal value, in other entries. -/
def equalEntries : List (Key × Value) → List (Key × Value) → Bool
  | [], _ => true
  | e :: es, fs => equalEntry e fs && equalEntries es fs
termination_by structural es => es

/-- Whether an entry is found, with an equal value, in other entries. -/
def equalEntry : Key × Value → List (Key × Value) → Bool
  | (k, v), fs =>
    match Entries.get? fs k with
    | some w => v.equal w
    | none => false
termination_by structural e => e

end

end FormBasic
