import FormBasic.Table

/-!
# Names and entries of tables

## Main statements

* `Table.keys_write` - a new name comes last, and a name that is present keeps its place
* `Table.entries_setAll` - writing entries under different names keeps them all
* `Table.get?_setAll`, `Table.keys_setAll` - the last value written to a name wins, at the place
  where the name was first
* `lookup_of_mem` - under different names every entry is found
-/

namespace FormBasic.Table

variable {β : Type}

theorem mem_write {name : Text} {value : β} {entries : List (Text × β)}
    {e : Text × β} (h : e ∈ write name value entries) : e.2 = value ∨ e ∈ entries := by
  induction entries with
  | nil =>
    rw [write, List.mem_singleton] at h
    exact .inl (h ▸ rfl)
  | cons f rest ih =>
    obtain ⟨key, old⟩ := f
    rw [write] at h
    split at h
    · rcases List.mem_cons.1 h with rfl | h
      · exact .inl rfl
      · exact .inr (List.mem_cons_of_mem _ h)
    · rcases List.mem_cons.1 h with rfl | h
      · exact .inr List.mem_cons_self
      · exact (ih h).imp_right (List.mem_cons_of_mem _)

theorem keys_write (name : Text) (value : β) (entries : List (Text × β)) :
    (write name value entries).map Prod.fst =
      if name ∈ entries.map Prod.fst then entries.map Prod.fst
      else entries.map Prod.fst ++ [name] := by
  induction entries with
  | nil => rfl
  | cons f rest ih =>
    obtain ⟨key, old⟩ := f
    rw [write]
    by_cases hk : key = name
    · simp [hk]
    · have hk' : ¬ name = key := fun h => hk h.symm
      simp only [hk, if_false, List.map_cons, ih, List.mem_cons, hk', false_or]
      split <;> rfl

/-- Writing the value that a name has already changes nothing. -/
theorem set_of_get? {t : Table β} {name : Text} {value : β} (h : t.get? name = some value) :
    t.set name value = t := by
  obtain ⟨entries⟩ := t
  rw [set, mk.injEq]
  simp only [get?] at h
  induction entries with
  | nil => cases h
  | cons e rest ih =>
    obtain ⟨key, old⟩ := e
    rw [lookup] at h
    rw [write]
    split at h
    · next hkey =>
      cases h
      rw [if_pos hkey]
    · next hkey => rw [if_neg hkey, ih h]

theorem mem_keys_of_get? {t : Table β} {name : Text} {value : β}
    (h : t.get? name = some value) : name ∈ t.keys := by
  obtain ⟨entries⟩ := t
  simp only [get?, keys] at h ⊢
  induction entries with
  | nil => cases h
  | cons e rest ih =>
    rw [lookup] at h
    split at h
    · next hkey => simp [hkey]
    · exact List.mem_cons_of_mem _ (ih h)

theorem mem_values_of_get? {t : Table β} {name : Text} {value : β}
    (h : t.get? name = some value) : value ∈ t.values := by
  obtain ⟨entries⟩ := t
  simp only [get?, values] at h ⊢
  induction entries with
  | nil => cases h
  | cons e rest ih =>
    rw [lookup] at h
    split at h
    · cases h
      exact List.mem_cons_self
    · exact List.mem_cons_of_mem _ (ih h)

theorem write_of_not_mem {name : Text} (value : β) {entries : List (Text × β)}
    (h : name ∉ entries.map Prod.fst) : write name value entries = entries ++ [(name, value)] := by
  induction entries with
  | nil => rfl
  | cons f rest ih =>
    simp only [List.map_cons, List.mem_cons, not_or] at h
    rw [write, if_neg (Ne.symm h.1), ih h.2]
    rfl

/-- Writing entries under different names keeps them all. -/
theorem entries_setAll (t : Table β) (es : List (Text × β))
    (h : (t.keys ++ es.map Prod.fst).Nodup) : (t.setAll es).entries = t.entries ++ es := by
  induction es generalizing t with
  | nil => exact (List.append_nil _).symm
  | cons e es ih =>
    have hnew : e.1 ∉ t.keys := by
      intro hmem
      exact (List.nodup_append.1 h).2.2 _ hmem _ (List.mem_cons_self) rfl
    have hset : (t.set e.1 e.2).entries = t.entries ++ [e] := write_of_not_mem e.2 hnew
    have := ih (t.set e.1 e.2) (by
      rw [keys, hset]
      simpa [keys] using h)
    rw [hset] at this
    simpa [setAll] using this

theorem lookup_of_mem {es : List (Text × β)} (h : (es.map Prod.fst).Nodup)
    {e : Text × β} (he : e ∈ es) : lookup e.1 es = some e.2 := by
  induction es with
  | nil => cases he
  | cons f rest ih =>
    obtain ⟨key, value⟩ := f
    simp only [List.map_cons, List.nodup_cons] at h
    rcases List.mem_cons.1 he with rfl | hrest
    · simp [lookup]
    · have hne : key ≠ e.1 := by
        intro heq
        exact h.1 (heq ▸ List.mem_map_of_mem hrest)
      rw [lookup, if_neg hne]
      exact ih h.2 hrest

theorem setAll_append (t : Table β) (es es' : List (Text × β)) :
    t.setAll (es ++ es') = (t.setAll es).setAll es' :=
  List.foldl_append

theorem lookup_append (name : Text) (es es' : List (Text × β)) :
    lookup name (es ++ es') = (lookup name es).or (lookup name es') := by
  induction es with
  | nil => rfl
  | cons e es ih =>
    obtain ⟨key, value⟩ := e
    simp only [List.cons_append, lookup]
    by_cases hkey : key = name
    · simp [hkey]
    · simp [hkey, ih]

theorem isSome_lookup (name : Text) (es : List (Text × β)) :
    (lookup name es).isSome = (es.map Prod.fst).contains name := by
  induction es with
  | nil => rfl
  | cons e es ih =>
    obtain ⟨key, value⟩ := e
    rw [lookup, List.map_cons, List.contains_cons]
    by_cases hkey : key = name
    · simp [hkey]
    · simp [hkey, Ne.symm hkey, ih]

/-- Of several values written to a name the last one wins. -/
theorem get?_setAll (t : Table β) (es : List (Text × β)) (name : Text) :
    (t.setAll es).get? name = (lookup name es.reverse).or (t.get? name) := by
  induction es generalizing t with
  | nil => rfl
  | cons e es ih =>
    obtain ⟨key, value⟩ := e
    have hset : (t.setAll ((key, value) :: es)).get? name =
        (lookup name es.reverse).or ((t.set key value).get? name) := ih (t.set key value)
    rw [hset, get?_set, List.reverse_cons, lookup_append, Option.or_assoc]
    by_cases hkey : name = key
    · simp [lookup, hkey]
    · simp [lookup, hkey, Ne.symm hkey]

/-- A value that is written under a new name comes last. -/
theorem values_set_of_get?_eq_none {t : Table β} {name : Text} (h : t.get? name = none)
    (value : β) : (t.set name value).values = t.values ++ [value] := by
  have hnew : name ∉ t.entries.map Prod.fst := by
    intro hmem
    have hsome := isSome_lookup name t.entries
    rw [show lookup name t.entries = none from h, List.contains_iff_mem.2 hmem] at hsome
    cases hsome
  rw [values, set, write_of_not_mem value hnew, List.map_append]
  rfl

theorem keys_set (t : Table β) (name : Text) (value : β) :
    (t.set name value).keys = if name ∈ t.keys then t.keys else t.keys ++ [name] :=
  keys_write name value t.entries

/-- Names that are new come last, in the order in which they are first written. -/
theorem keys_setAll (t : Table β) (es : List (Text × β)) :
    (t.setAll es).keys =
      t.keys ++ ((es.map Prod.fst).filter fun name => !t.keys.contains name).eraseDups := by
  induction es generalizing t with
  | nil => simp [setAll, List.eraseDups]
  | cons e es ih =>
    obtain ⟨key, value⟩ := e
    have hset : (t.setAll ((key, value) :: es)).keys = ((t.set key value).setAll es).keys := rfl
    rw [hset, ih, keys_set]
    by_cases hkey : key ∈ t.keys
    · simp [hkey]
    · have hnew : (t.keys.contains key) = false := by simpa using hkey
      have hfilter : ((es.map Prod.fst).filter fun name => !(t.keys ++ [key]).contains name) =
          ((es.map Prod.fst).filter fun name => !t.keys.contains name).filter
            fun name => !name == key := by
        rw [List.filter_filter]
        refine List.filter_congr fun name _ => ?_
        by_cases hname : name = key <;> simp [hname]
      simp only [hkey, if_false, List.map_cons, List.filter_cons, hnew, Bool.not_false, if_true,
        List.eraseDups_cons, hfilter, List.append_assoc, List.singleton_append]

end FormBasic.Table
