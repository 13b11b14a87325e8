import FormBasic.Proofs.Grammar.Accepted
import FormBasic.Proofs.Script.Queries

/-!
# Links to databases

Of all data access objects only connections hold a link to an open database. What else is done to
the objects of a store leaves every link where it is, as long as the collections of rows in the
store refer to tables: a collection of rows can empty what it refers to. The state that scripts read
is kept beside the link, and only opening and closing write the two, so they agree.

## Main definitions

* `Data.Connection.Agrees` - connections whose state is that of their link
* `Data.Store.link?` - the database that a connection is linked to
* `Data.Store.Sound` - stores in which the collections of rows refer to tables and connections agree
* `Data.Store.Spares` - changes of a sound store that leave it sound and all links as they are

## Main statements

* `Data.Store.spares_add`, `Data.Store.spares_set` - new objects and replaced ones
* `Data.Store.spares_member`, `Data.Store.spares_setMember`, `Data.Store.spares_index` - members and
  items
-/

namespace FormBasic.Data

/-- Whether the state of a connection is that of its link. -/
def Connection.Agrees (c : Connection) : Prop := c.state = "Open" ↔ c.link.isSome = true

theorem Connection.agrees_opened (c : Connection) (link : Nat) : (c.opened link).Agrees :=
  ⟨fun _ => rfl, fun _ => rfl⟩

theorem Connection.agrees_closed (c : Connection) : c.closed.Agrees := by
  have hclosed : ("Closed" : Text) ≠ "Open" := by decide
  exact ⟨fun h => absurd h hclosed, fun h => by cases h⟩

/-- The database that an object is linked to. -/
def Object.link? : Object → Option Nat
  | .connection c => c.link
  | _ => none

/-- Whether the object is a table. -/
def Object.isTable : Object → Bool
  | .table _ => true
  | _ => false

/-- Whether an object is put in the place of another one of its class with the same link and, if it
is a connection, the same state. -/
inductive Object.Replaces : Object → Object → Prop where
  | connection {old new : Connection} (hlink : new.link = old.link)
    (hstate : new.state = old.state) : Replaces (.connection old) (.connection new)
  | command (old new : Command) : Replaces (.command old) (.command new)
  | reader (old new : Reader) : Replaces (.reader old) (.reader new)
  | table (old new : DataTable) : Replaces (.table old) (.table new)
  | adapter (old new : Value) : Replaces (.adapter old) (.adapter new)

namespace Store

variable {s s' : Store} {h g : Handle} {old object : Object}

/-- The database that the object of a handle is linked to. -/
def link? (s : Store) (h : Handle) : Option Nat := (s.get? h).bind Object.link?

theorem link?_of_get? (hh : s.get? h = some object) : s.link? h = object.link? := by
  rw [link?, hh]
  rfl

/-- Whether there is a table at a handle. -/
def IsTable (s : Store) (h : Handle) : Prop := ∃ t, s.get? h = some (.table t)

/-- Whether all collections of rows refer to tables, and all connections agree with their links. -/
structure Sound (s : Store) : Prop where
  rows : ∀ h t, s.get? h = some (.rows t) → s.IsTable t
  agrees : ∀ h c, s.get? h = some (.connection c) → c.Agrees

/-- Whether a change leaves a sound store sound and the links as they are. -/
def Spares (s s' : Store) : Prop := s.Sound → s'.Sound ∧ ∀ h, s'.link? h = s.link? h

theorem Spares.refl (s : Store) : s.Spares s := fun h => ⟨h, fun _ => rfl⟩

theorem Spares.trans {s₁ s₂ s₃ : Store} (h : s₁.Spares s₂) (h' : s₂.Spares s₃) :
    s₁.Spares s₃ := by
  intro hsound
  obtain ⟨hsound₂, hlinks⟩ := h hsound
  obtain ⟨hsound₃, hlinks'⟩ := h' hsound₂
  exact ⟨hsound₃, fun g => (hlinks' g).trans (hlinks g)⟩

-- ════════════════════════════════════════════════════════════════════════════
-- New objects and replaced ones
-- ════════════════════════════════════════════════════════════════════════════

/-- An object of a store with a new one is the new one or an old one. -/
theorem get?_add_cases (hh : (s.add object).1.get? h = some old) :
    old = object ∧ s.get? h = none ∨ s.get? h = some old := by
  rw [add, get?, Array.getElem?_push] at hh
  split at hh
  · next hindex =>
    refine .inl ⟨(Option.some.inj hh).symm, ?_⟩
    rw [get?, hindex]
    exact Array.getElem?_eq_none (Nat.le_refl _)
  · exact .inr hh

theorem get?_of_command? {c : Command} (hh : s.command? h = some c) :
    s.get? h = some (.command c) := by
  unfold command? at hh
  split at hh
  · next hfound =>
    cases hh
    exact hfound
  · cases hh

theorem get?_set_ne (s : Store) (hne : g ≠ h) (object : Object) :
    (s.set h object).get? g = s.get? g := by
  obtain ⟨i⟩ := g
  obtain ⟨j⟩ := h
  exact Array.getElem?_setIfInBounds_ne fun hindex => hne (congrArg Handle.mk hindex.symm)

/-- Replacing an object changes its own link only. -/
theorem link?_set (hh : s.get? h = some old) (object : Object) (g : Handle) :
    (s.set h object).link? g = if g = h then object.link? else s.link? g := by
  by_cases hgh : g = h
  · subst hgh
    rw [if_pos rfl, link?_of_get? (get?_set_self hh object)]
  · rw [if_neg hgh, link?, get?_set_ne s hgh, link?]

/-- A new object has no link, if it is a collection of rows it refers to a table, and if it is a
connection it agrees. -/
theorem spares_add (hlink : object.link? = none)
    (hrows : ∀ t, object = .rows t → s.IsTable t)
    (hagrees : ∀ c, object = .connection c → c.Agrees) : s.Spares (s.add object).1 := by
  intro hsound
  have hkept : ∀ {t}, s.IsTable t → (s.add object).1.IsTable t := by
    rintro t ⟨table, ht⟩
    exact ⟨table, get?_add_of_get? ht object⟩
  refine ⟨⟨fun h t hh => ?_, fun h c hh => ?_⟩, fun h => ?_⟩
  · obtain ⟨heq, -⟩ | hh := get?_add_cases hh
    · exact hkept (hrows t heq.symm)
    · exact hkept (hsound.rows h t hh)
  · obtain ⟨heq, -⟩ | hh := get?_add_cases hh
    · exact hagrees c heq.symm
    · exact hsound.agrees h c hh
  · show (s.add object).1.link? h = s.link? h
    cases hold : s.get? h with
    | some old => rw [link?_of_get? (get?_add_of_get? hold object), link?_of_get? hold]
    | none =>
      cases hnew : (s.add object).1.get? h with
      | none => rw [link?, hnew, link?, hold]
      | some new =>
        obtain ⟨rfl, -⟩ | hh := get?_add_cases hnew
        · rw [link?_of_get? hnew, hlink, link?, hold]
          rfl
        · cases hold.symm.trans hh

/-- A store stays sound if a table stays a table, no collection of rows is put in the place of an
object, and a connection that is put there agrees. -/
theorem sound_set (hsound : s.Sound) (hh : s.get? h = some old)
    (htable : old.isTable = object.isTable) (hrows : ∀ t, object ≠ .rows t)
    (hagrees : ∀ c, object = .connection c → c.Agrees) : (s.set h object).Sound := by
  refine ⟨fun g t hg => ?_, fun g c hg => ?_⟩
  case refine_2 =>
    by_cases hgh : g = h
    · subst hgh
      rw [get?_set_self hh] at hg
      exact hagrees c (Option.some.inj hg)
    · rw [get?_set_ne s hgh] at hg
      exact hsound.agrees g c hg
  have hold : s.get? g = some (.rows t) := by
    by_cases hgh : g = h
    · subst hgh
      rw [get?_set_self hh] at hg
      exact absurd (Option.some.inj hg) (hrows t)
    · rwa [get?_set_ne s hgh] at hg
  obtain ⟨table, ht⟩ := hsound.rows g t hold
  by_cases hth : t = h
  · subst hth
    obtain rfl := Option.some.inj (hh.symm.trans ht)
    cases object with
    | table new => exact ⟨new, get?_set_self hh _⟩
    | _ => cases htable
  · exact ⟨table, by rw [get?_set_ne s hth, ht]⟩

theorem spares_set (hh : s.get? h = some old) (hreplaces : old.Replaces object) :
    s.Spares (s.set h object) := by
  have hlink : object.link? = old.link? := by
    cases hreplaces with
    | connection hlink => exact hlink
    | _ => rfl
  intro hsound
  constructor
  · cases hreplaces with
    | @connection old new hsame hstate =>
      refine sound_set hsound hh rfl nofun fun c heq => ?_
      cases heq
      rw [Connection.Agrees, hsame, hstate]
      exact hsound.agrees h old hh
    | _ => exact sound_set hsound hh rfl nofun nofun
  · intro g
    rw [link?_set hh, hlink, ← link?_of_get? hh]
    split
    · next hgh => rw [hgh]
    · rfl

-- ════════════════════════════════════════════════════════════════════════════
-- Members and items
-- ════════════════════════════════════════════════════════════════════════════

theorem spares_member (s : Store) (h : Handle) (name : Text) : s.Spares (s.member h name).1 := by
  unfold member
  split
  case h_4 => exact spares_add rfl nofun nofun
  case h_9 t ht _ =>
    refine spares_add rfl (fun t' heq => ?_) nofun
    cases heq
    exact ⟨t, ht⟩
  all_goals exact .refl s

theorem spares_setMember {name : Text} {value : Value}
    (hset : s.setMember h name value = .ok s') : s.Spares s' := by
  unfold setMember at hset
  split at hset
  · next hh _ =>
    obtain ⟨text, -, hs⟩ := bind_eq_ok hset
    cases hs
    exact spares_set hh (.connection rfl rfl)
  · next hh _ =>
    obtain ⟨text, -, hs⟩ := bind_eq_ok hset
    cases hs
    exact spares_set hh (.command _ _)
  · next hh _ =>
    cases hset
    exact spares_set hh (.command _ _)
  · next hh _ =>
    cases hset
    exact spares_set hh (.adapter _ _)
  · cases hset
    exact .refl s

theorem spares_item {key value : Value} (hitem : s.item h key = .ok (s', value)) :
    s.Spares s' := by
  unfold item at hitem
  split at hitem
  · obtain ⟨cell, -, hs⟩ := bind_eq_ok hitem
    cases hs
    exact .refl s
  · obtain ⟨cell, -, hs⟩ := bind_eq_ok hitem
    cases hs
    exact .refl s
  · obtain ⟨n, -, hs⟩ := bind_eq_ok hitem
    split at hs
    · split at hs
      · cases hs
        exact spares_add rfl nofun nofun
      · cases hs
        exact .refl s
    · cases hs
      exact .refl s
  · cases hitem
    exact .refl s

theorem spares_index {container key value : Value}
    (hindex : s.index container key = .ok (s', value)) : s.Spares s' := by
  cases container with
  | object h =>
    rw [index] at hindex
    cases hitem : s.item h key with
    | error refusal =>
      rw [hitem] at hindex
      cases hindex
    | ok found =>
      rw [hitem] at hindex
      cases hindex
      exact spares_item hitem
  | list items =>
    obtain ⟨n, -, hs⟩ := bind_eq_ok hindex
    cases hs
    exact .refl s
  | text t =>
    obtain ⟨n, -, hs⟩ := bind_eq_ok hindex
    split at hs <;>
    · cases hs
      exact .refl s
  | dict entries =>
    rw [index] at hindex
    split at hindex <;> cases hindex
    exact .refl s
  | _ =>
    cases hindex
    exact .refl s

end Store

end FormBasic.Data
