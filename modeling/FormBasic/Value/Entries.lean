import FormBasic.Value.Basic

/-!
# Entries

Keys with values, in the order in which the keys were added: the contents of a dictionary, the
properties of a component. Numbers and truth values are the same key when they have the same value.
Writing to a key that is present keeps its place and its form.

## Main definitions

* `Key.equal` - whether two keys are the same
* `Entries` - keys with values
* `Entries.get?`, `Entries.contains` - look-up
* `Entries.set`, `Entries.erase` - writing and removing
-/

namespace FormBasic

/-- Numbers and truth values as numbers; none for other keys. -/
def Key.number? (k : Key) : Option Number := k.toValue.number?

/-- Whether two keys are the same key. -/
def Key.equal (a b : Key) : Bool :=
  match a, b with
  | .nothing, .nothing => true
  | .text s, .text t => s == t
  | .object g, .object h => g == h
  | .nan m, .nan n => m == n
  | a, b =>
    match a.number?, b.number? with
    | some m, some n => m.same n
    | _, _ => false

/-- Keys with values, in the order in which the keys were added. -/
abbrev Entries (β : Type) := List (Key × β)

namespace Entries

variable {β : Type}

/-- The value of a key. -/
def get? (es : Entries β) (key : Key) : Option β :=
  match es with
  | [] => none
  | (k, v) :: rest => if k.equal key then some v else get? rest key

/-- Whether the key is present. -/
def contains (es : Entries β) (key : Key) : Bool := (es.get? key).isSome

/-- The entries with a value written to a key. -/
def set (es : Entries β) (key : Key) (value : β) : Entries β :=
  match es with
  | [] => [(key, value)]
  | (k, v) :: rest => if k.equal key then (k, value) :: rest else (k, v) :: set rest key value

/-- The entries without a key. -/
def erase (es : Entries β) (key : Key) : Entries β := es.filter fun e => !e.1.equal key

/-- The keys in order. -/
def keys (es : Entries β) : List Key := es.map Prod.fst

/-- The values in order. -/
def values (es : Entries β) : List β := es.map Prod.snd

/-- Entries written one after the other: of several values for a key the last one wins, at the first
one's place. -/
def ofList (es : List (Key × β)) : Entries β := es.foldl (fun es e => es.set e.1 e.2) []

end Entries

@[simp]
theorem Key.equal_text (s t : Text) : (Key.text s).equal (.text t) = (s == t) := rfl

/-- A text is the same key as no other sort of key. -/
theorem Key.eq_text_of_equal {k : Key} {s : Text} (h : k.equal (.text s) = true) :
    k = .text s := by
  cases k <;> simp_all [Key.equal, Key.number?, Key.toValue, Value.number?]

theorem Key.eq_text_of_text_equal {k : Key} {s : Text} (h : (Key.text s).equal k = true) :
    k = .text s := by
  cases k <;> simp_all [Key.equal, Key.number?, Key.toValue, Value.number?]

namespace Entries

variable {β : Type}

/-- Looking a text up after a write to any key gives the written value or the old one. -/
theorem get?_set (es : Entries β) (k : Key) (value : β) (t : Text) :
    (es.set k value).get? (.text t) = if k.equal (.text t) then some value else es.get? (.text t) := by
  induction es with
  | nil => simp only [Entries.set, Entries.get?]
  | cons e rest ih =>
    obtain ⟨k', v⟩ := e
    by_cases hk : k'.equal k = true
    · by_cases ht : k.equal (.text t) = true
      · obtain rfl := Key.eq_text_of_equal ht
        simp [Entries.set, Entries.get?, hk]
      · have hk' : k'.equal (.text t) = false := by
          refine Bool.eq_false_iff.2 fun h => ht ?_
          obtain rfl := Key.eq_text_of_equal h
          rw [Key.eq_text_of_text_equal hk]
          exact hk ▸ h
        simp [Entries.set, Entries.get?, hk, ht, hk']
    · by_cases ht : k.equal (.text t) = true
      · obtain rfl := Key.eq_text_of_equal ht
        simpa [Entries.set, Entries.get?, hk] using ih
      · simp [Entries.set, Entries.get?, hk, ht, ih]

/-- Looking a text up after any key is removed gives nothing or the old value. -/
theorem get?_erase (es : Entries β) (k : Key) (t : Text) :
    (es.erase k).get? (.text t) = if k.equal (.text t) then none else es.get? (.text t) := by
  induction es with
  | nil => simp [Entries.erase, Entries.get?]
  | cons e rest ih =>
    obtain ⟨k', v⟩ := e
    simp only [Entries.erase] at ih ⊢
    by_cases hk : k'.equal k = true
    · have hk' : k.equal (.text t) = false → k'.equal (.text t) = false := by
        intro ht
        refine Bool.eq_false_iff.2 fun h => ?_
        obtain rfl := Key.eq_text_of_equal h
        rw [Key.eq_text_of_text_equal hk, h] at ht
        cases ht
      by_cases ht : k.equal (.text t) = true
      · simpa [hk, ht] using ih
      · simpa [Entries.get?, hk, ht, hk' (by simpa using ht)] using ih
    · by_cases ht : k.equal (.text t) = true
      · obtain rfl := Key.eq_text_of_equal ht
        simpa [Entries.get?, hk] using ih
      · simp [Entries.get?, hk, ht, ih]

theorem contains_set (es : Entries β) (k : Key) (value : β) (t : Text) :
    (es.set k value).contains (.text t) = (k.equal (.text t) || es.contains (.text t)) := by
  rw [contains, get?_set]
  cases k.equal (.text t) <;> rfl

theorem contains_erase (es : Entries β) (k : Key) (t : Text) :
    (es.erase k).contains (.text t) = (!k.equal (.text t) && es.contains (.text t)) := by
  rw [contains, get?_erase]
  cases k.equal (.text t) <;> rfl

/-- A key that is not present is added behind the others. -/
theorem set_of_not_contains {es : Entries β} {k : Key} (h : es.contains k = false) (value : β) :
    es.set k value = es ++ [(k, value)] := by
  induction es with
  | nil => rfl
  | cons e rest ih =>
    obtain ⟨k', v⟩ := e
    rw [contains, Entries.get?] at h
    split at h
    · cases h
    · next hk => rw [Entries.set, if_neg hk, ih h, List.cons_append]

theorem mem_values_of_get? {es : Entries β} {k : Key} {value : β} (h : es.get? k = some value) :
    value ∈ es.values := by
  induction es with
  | nil => cases h
  | cons e rest ih =>
    obtain ⟨k', v⟩ := e
    rw [Entries.get?] at h
    split at h
    · rw [← Option.some.inj h]
      exact List.mem_cons_self
    · exact List.mem_cons_of_mem _ (ih h)

/-- The value of a key that is removed is gone, if no other key has it. -/
theorem notMem_values_erase {es : Entries β} (hnodup : es.values.Nodup) {k : Key} {value : β}
    (h : es.get? k = some value) : value ∉ (es.erase k).values := by
  induction es with
  | nil => cases h
  | cons e rest ih =>
    obtain ⟨k', v⟩ := e
    obtain ⟨hv, hrest⟩ := List.nodup_cons.1 hnodup
    rw [Entries.get?] at h
    rw [erase, List.filter_cons]
    split at h
    · next hk =>
      obtain rfl := Option.some.inj h
      rw [hk, if_neg (by simp)]
      exact fun hmem => hv ((List.filter_sublist.map _).subset hmem)
    · next hk =>
      rw [if_pos (by simpa using hk)]
      intro hmem
      obtain heq | hmem := List.mem_cons.1 hmem
      · exact hv (heq ▸ mem_values_of_get? h)
      · exact ih hrest h hmem

theorem mem_keys_of_get? {es : Entries β} {t : Text} {value : β}
    (h : es.get? (.text t) = some value) : Key.text t ∈ es.keys := by
  induction es with
  | nil => cases h
  | cons e rest ih =>
    obtain ⟨k, v⟩ := e
    rw [Entries.get?] at h
    split at h
    · next hk =>
      rw [← Key.eq_text_of_equal hk]
      exact List.mem_cons_self
    · exact List.mem_cons_of_mem _ (ih h)

end Entries

end FormBasic
