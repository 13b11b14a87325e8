import FormBasic.Proofs.Script.Commuting
import FormBasic.Proofs.Text.Ascii

/-!
# Reading a property that was written

A property is written under its spelling: the known one of a known name, else the name as it is. A
read looks under the spelling of its own name first, and then takes the first property whose name
agrees up to letter case. So a property may be written under one spelling of an unknown name and
another one may be read, if the component has both.

## Main definitions

* `Key.isUnlike` - names that differ by more than letter case
* `Component.Finds` - when a name finds what was written under another one

## Main statements

* `Component.property_store` - what is written is read under every name that finds it
* `Script.read_after_write_iff` - after an assignment to a property, exactly the names that find it
  have the assigned value
-/

namespace FormBasic

-- ════════════════════════════════════════════════════════════════════════════
-- Spellings
-- ════════════════════════════════════════════════════════════════════════════

/-- The spelling of a name depends on its letter case only where the name is not known, and is then
the name as it is. -/
theorem canonicalProperty_cases {p q : Text} (h : Text.lower p = Text.lower q) :
    canonicalProperty p = canonicalProperty q ∨
      propertySpellings.lookup (Text.lower p) = none ∧
        canonicalProperty p = p ∧ canonicalProperty q = q := by
  rw [canonicalProperty, canonicalProperty, ← h]
  cases propertySpellings.lookup (Text.lower p) with
  | none => exact .inr ⟨rfl, rfl, rfl⟩
  | some s => exact .inl rfl

/-- Only `count` in some letter case is spelled so. -/
theorem lower_of_canonicalProperty_eq_count {name : Text} (h : canonicalProperty name = "count") :
    Text.lower name = "count" := by
  rw [canonicalProperty] at h
  cases hlookup : propertySpellings.lookup (Text.lower name) with
  | none =>
    rw [hlookup] at h
    obtain rfl : name = "count" := h
    decide
  | some s =>
    rw [hlookup] at h
    obtain rfl : s = "count" := h
    obtain ⟨before, after, hsplit, -⟩ := List.lookup_eq_some_iff.1 hlookup
    have hmem : (Text.lower name, ("count" : Text)) ∈ propertySpellings := by
      rw [hsplit]
      exact List.mem_append_right before List.mem_cons_self
    have hcount : ∀ e ∈ propertySpellings, e.2 = "count" → e.1 = "count" := by decide
    exact hcount _ hmem rfl

/-- A property that drives a timer has a known name. -/
theorem lookup_of_drivesTimer {name : Text}
    (h : World.drivesTimer (canonicalProperty name) = true) :
    propertySpellings.lookup (Text.lower name) ≠ none := by
  intro hlookup
  rw [canonicalProperty, hlookup, World.drivesTimer] at h
  simp only [Option.getD_none, Bool.or_eq_true, beq_iff_eq] at h
  obtain rfl | rfl := h
  · revert hlookup
    decide
  · revert hlookup
    decide

-- ════════════════════════════════════════════════════════════════════════════
-- Bags of properties
-- ════════════════════════════════════════════════════════════════════════════

/-- Whether a property name is a text that differs from a lowered one by more than letter case. -/
def Key.isUnlike (lowered : Text) : Key → Bool
  | .text name => Text.lower name != lowered
  | _ => false

namespace Component

/-- Whether a read under `q` finds what is written under `p`, where the two differ by letter case at
most: they have one spelling, or nothing is stored under `q` and no property before the place of `p`
is met first. -/
def Finds (c : Component) (p q : Text) : Prop :=
  canonicalProperty p = canonicalProperty q ∨
    c.stored? q = none ∧ ∀ e ∈ c.properties.takeWhile fun e => !e.1.equal (.text p),
      e.1.isUnlike (Text.lower p) = true

instance (c : Component) (p q : Text) : Decidable (c.Finds p q) :=
  inferInstanceAs (Decidable (_ ∨ _ ∧ _))

/-- A written property is the first one that agrees with its name up to letter case if no property
before it does. -/
theorem foundInAnyCase_set {es : Entries Value} {p : Text}
    (h : ∀ e ∈ es.takeWhile fun e => !e.1.equal (.text p), e.1.isUnlike (Text.lower p) = true)
    (value : Value) :
    foundInAnyCase (Text.lower p) (es.set (.text p) value) = .ok (some value) := by
  induction es with
  | nil => simp [Entries.set, foundInAnyCase]
  | cons e rest ih =>
    obtain ⟨key, old⟩ := e
    cases hkey : key.equal (.text p) with
    | true =>
      obtain rfl := Key.eq_text_of_equal hkey
      simp [Entries.set, foundInAnyCase]
    | false =>
      rw [List.takeWhile_cons_of_pos (by simp [hkey]), List.forall_mem_cons] at h
      obtain ⟨hunlike, hrest⟩ := h
      cases key with
      | text name =>
        have hname : ¬ Text.lower name = Text.lower p := by simpa [Key.isUnlike] using hunlike
        simp only [Entries.set, hkey, Bool.false_eq_true, if_false, foundInAnyCase, if_neg hname]
        exact ih hrest
      | _ => cases hunlike

/-- Some property agrees with a written name up to letter case. -/
theorem foundInAnyCase_set_ne_none (es : Entries Value) (p : Text) (value : Value) :
    foundInAnyCase (Text.lower p) (es.set (.text p) value) ≠ .ok none := by
  induction es with
  | nil => simp [Entries.set, foundInAnyCase]
  | cons e rest ih =>
    obtain ⟨key, old⟩ := e
    rw [Entries.set]
    split
    · next hkey =>
      obtain rfl := Key.eq_text_of_equal hkey
      simp [foundInAnyCase]
    · cases key with
      | text name =>
        rw [foundInAnyCase]
        split
        · simp
        · exact ih
      | _ => simp [foundInAnyCase]

/-- If whatever is written is the first property that agrees with its name up to letter case, no
property before it does. -/
theorem isUnlike_of_foundInAnyCase_set {es : Entries Value} {p : Text}
    (h : ∀ b : Bool, foundInAnyCase (Text.lower p) (es.set (.text p) (.bool b)) =
      .ok (some (.bool b))) :
    ∀ e ∈ es.takeWhile fun e => !e.1.equal (.text p), e.1.isUnlike (Text.lower p) = true := by
  induction es with
  | nil => exact fun _ he => absurd he List.not_mem_nil
  | cons e rest ih =>
    obtain ⟨key, old⟩ := e
    cases hkey : key.equal (.text p) with
    | true =>
      rw [List.takeWhile_cons_of_neg (by simp [hkey])]
      exact fun _ he => absurd he List.not_mem_nil
    | false =>
      rw [List.takeWhile_cons_of_pos (by simp [hkey]), List.forall_mem_cons]
      simp only [Entries.set, hkey, Bool.false_eq_true, if_false] at h
      cases key with
      | text name =>
        simp only [foundInAnyCase] at h
        split at h
        · -- another property is met first, whose value is not both truth values
          have htrue := h true
          rw [h false] at htrue
          cases htrue
        · next hname => exact ⟨by simpa [Key.isUnlike] using hname, ih h⟩
      | _ => cases h true

section Reading

variable {c : Component} {p q : Text}

theorem stored?_store (value : Value) (spelling : Text) :
    (c.store p value).stored? spelling =
      if canonicalProperty p = spelling then some value else c.stored? spelling := by
  simp only [stored?, store, Entries.get?_set, Key.equal_text, beq_iff_eq]

/-- What is read under a name other than `count`. -/
theorem property_eq (hcount : Text.lower q ≠ "count") :
    c.property q =
      match c.stored? (canonicalProperty q) with
      | some value => .ok value
      | none => do
        match ← foundInAnyCase (Text.lower q) c.properties with
        | some value => return value
        | none => return if Text.lower q = "selecteditem" then c.selectedItem else .nothing := by
  rw [property, if_neg fun h => hcount (lower_of_canonicalProperty_eq_count h)]
  cases c.stored? (canonicalProperty q) <;> rfl

theorem property_store_of_eq (hspelling : canonicalProperty p = canonicalProperty q)
    (hcount : Text.lower q ≠ "count") (value : Value) :
    (c.store p value).property q = .ok value := by
  rw [property_eq hcount, stored?_store, if_pos hspelling]

/-- Under another spelling of an unknown name, a stored property of that spelling is read, and else
the first one that agrees up to letter case. -/
theorem property_store_of_ne (hcase : Text.lower p = Text.lower q) (hcount : Text.lower q ≠ "count")
    (hspelling : canonicalProperty p ≠ canonicalProperty q) (value : Value) :
    (c.store p value).property q =
      match c.stored? q with
      | some old => .ok old
      | none => do
        match ← foundInAnyCase (Text.lower p) (c.properties.set (.text p) value) with
        | some value => return value
        | none => return if Text.lower q = "selecteditem" then
            (c.store p value).selectedItem else .nothing := by
  obtain hsame | ⟨-, hp, hq⟩ := canonicalProperty_cases hcase
  · exact absurd hsame hspelling
  rw [property_eq hcount, stored?_store, if_neg hspelling, hq, ← hcase, store, hp]

/-- What is written is read under every name that finds it. -/
theorem property_store (hcase : Text.lower p = Text.lower q) (hcount : Text.lower q ≠ "count")
    (h : c.Finds p q) (value : Value) : (c.store p value).property q = .ok value := by
  by_cases hspelling : canonicalProperty p = canonicalProperty q
  · exact property_store_of_eq hspelling hcount value
  · obtain ⟨hstored, hunlike⟩ := h.resolve_left hspelling
    rw [property_store_of_ne hcase hcount hspelling, hstored, foundInAnyCase_set hunlike]
    rfl

/-- A name under which both truth values are read once they are written finds what is written. -/
theorem finds_of_property_store (hcase : Text.lower p = Text.lower q)
    (hcount : Text.lower q ≠ "count")
    (h : ∀ b : Bool, (c.store p (.bool b)).property q = .ok (.bool b)) : c.Finds p q := by
  by_cases hspelling : canonicalProperty p = canonicalProperty q
  · exact .inl hspelling
  simp only [property_store_of_ne hcase hcount hspelling] at h
  cases hstored : c.stored? q with
  | some old =>
    simp only [hstored] at h
    have htrue := h true
    rw [h false] at htrue
    cases htrue
  | none =>
    simp only [hstored] at h
    refine .inr ⟨hstored, isUnlike_of_foundInAnyCase_set fun b => ?_⟩
    have hb := h b
    cases hfound : foundInAnyCase (Text.lower p) (c.properties.set (.text p) (.bool b)) with
    | error fault =>
      rw [hfound] at hb
      cases hb
    | ok found =>
      rw [hfound] at hb
      cases found with
      | none => exact absurd hfound (foundInAnyCase_set_ne_none c.properties p (.bool b))
      | some value => exact congrArg (fun v => Except.ok (some v)) (Except.ok.inj hb)

end Reading

end Component

-- ════════════════════════════════════════════════════════════════════════════
-- Assignments
-- ════════════════════════════════════════════════════════════════════════════

namespace World

/-- What an object expression refers to depends on the form's name, the variables and the names of
the components only. -/
theorem component?_congr {w w' : World} (hform : w'.formName = w.formName)
    (hglobals : w'.globals = w.globals)
    (hnames : ∀ name, w'.hasComponent name = w.hasComponent name) (object : Expr) :
    w'.component? object = w.component? object := by
  have hme : w'.form? = w.form? := by simp only [form?, hform, hnames]
  have hholds : ∀ name, w'.holdsObject name = w.holdsObject name := fun name => by
    simp only [holdsObject, hglobals]
  cases object with
  | ident name => simp only [component?, hme, hholds, hnames]
  | member owner name => cases owner <;> simp only [component?, hnames]
  | _ => rfl

/-- Whether a world is what another one becomes when a component is written, as far as names and
properties go. -/
structure AfterWriting (w : World) (component : Text) (c : Component) (w' : World) : Prop where
  components : w'.components = w.components.set (.text component) c
  globals : w'.globals = w.globals
  formName : w'.formName = w.formName

namespace AfterWriting

variable {w w' : World} {component : Text} {c c' : Component}

theorem signals (h : w.AfterWriting component c w') (sent : List Signal) :
    w.AfterWriting component c (w'.signals sent) := by
  obtain ⟨stopped, paused, hsent⟩ := World.signals_eq w' sent
  rw [hsent]
  exact ⟨h.components, h.globals, h.formName⟩

theorem synchronize (h : w.AfterWriting component c w') {key : Key} {w'' : World}
    (hsync : w'.synchronize key = .ok w'') : w.AfterWriting component c w'' := by
  obtain ⟨rfl, -⟩ | ⟨_, -, -, ⟨-, -, rfl⟩ | ⟨-, -, rfl⟩⟩ := World.synchronize_cases hsync
  · exact h
  · exact ⟨h.components, h.globals, h.formName⟩
  · exact ⟨h.components, h.globals, h.formName⟩

theorem componentNamed? (h : w.AfterWriting component c' w') (other : Text) :
    w'.componentNamed? other = if component = other then some c' else w.componentNamed? other := by
  simp only [World.componentNamed?, h.components, Entries.get?_set, Key.equal_text, beq_iff_eq]

/-- Object expressions refer to what they referred to before. -/
theorem component?_eq (h : w.AfterWriting component c' w')
    (hc : w.componentNamed? component = some c) (object : Expr) :
    w'.component? object = w.component? object := by
  refine component?_congr h.formName h.globals (fun other => ?_) object
  rw [hasComponent, hasComponent, h.componentNamed?]
  split
  · next heq => rw [← heq, hc]; rfl
  · rfl

theorem property_eq (h : w.AfterWriting component c' w') (name : Text) :
    w'.property component name = c'.property name := by
  rw [World.property, h.componentNamed?, if_pos rfl]

end AfterWriting

end World

namespace Script

variable {w w' : World} {component p q : Text} {c : Component} {object : Expr}
  {requests : List Request}

theorem ends_ask_direct {request : Request} {a : request.Reply}
    (h : (ask request w).Ends Exchange.Direct requests w' a) : ∃ sent, w' = w.signals sent := by
  obtain ⟨history, h, hwaits, -⟩ := h
  obtain rfl := traces_ask.1 h
  exact hwaits _ (List.mem_singleton_self _)

/-- A property that was written is stored, whatever the host does when it is told. -/
theorem afterWriting_setProperty {value : Value} {key : Text}
    (hc : w.componentNamed? component = some c)
    (h : (setProperty component p value w).Ends Exchange.Direct requests w' key) :
    w.AfterWriting component (c.store p value) w' := by
  have hstore := ends_look.1 h
  simp only [World.storeProperty, hc] at hstore
  obtain ⟨_, _, w₁, _, rfl, hask, hlook⟩ := ends_bind.1 (ends_enter.1 hstore)
  obtain ⟨sent, rfl⟩ := ends_ask_direct hask
  have hstored : w.AfterWriting component (c.store p value)
      { w with components := w.components.set (.text component) (c.store p value) } :=
    ⟨rfl, rfl, rfl⟩
  have hwritten := hstored.signals sent
  have hdrives := ends_look.1 hlook
  split at hdrives
  · obtain ⟨_, _, w₂, _, rfl, hsynchronize, hreturn⟩ := ends_bind.1 hdrives
    obtain ⟨rfl, rfl, rfl⟩ := Outcome.ends_done.1 hreturn
    rw [synchronize_apply] at hsynchronize
    split at hsynchronize
    · next hsync =>
      obtain ⟨rfl, rfl, -⟩ := Outcome.ends_done.1 hsynchronize
      exact hwritten.synchronize hsync
    · exact absurd hsynchronize Outcome.not_ends_failed
  · obtain ⟨rfl, rfl, rfl⟩ := Outcome.ends_done.1 hdrives
    exact hwritten

/-- An assignment to a property evaluates the value and writes it. -/
theorem ends_exec_assign {line : Line} {e : Expr} {value : Value} {P : Exchange → Prop}
    (hgoes : w.stopped = false) (hobject : w.component? object = some component)
    (hvalue : eval line e w = .done w value) :
    (exec (.assign (.member object p) e line) w).Ends P requests w' () ↔
      ∃ key, (setProperty component p value w).Ends P requests w' key := by
  have hassign : (exec (.assign (.member object p) e line) w) =
      mapFault (Fault.attribute line)
        (do assign line (.member object p) (← eval line e)) w := by
    rw [exec]
    change (if w.stopped then pure () else mapFault (Fault.attribute line) _ : Script Unit) w = _
    rw [hgoes]
    rfl
  have hwrite : (do assign line (.member object p) (← eval line e) : Script Unit) w =
      (setProperty component p value >>= fun _ => pure ()) w := by
    change (eval line e w).andThen _ = _
    rw [hvalue]
    change assign line (.member object p) value w = _
    simp only [assign, bind_eq, chain, andThen, world, Outcome.andThen, hobject]
    rfl
  rw [hassign, ends_mapFault, hwrite, ends_bind]
  constructor
  · rintro ⟨first, second, w₁, key, rfl, hset, hreturn⟩
    obtain ⟨rfl, rfl, -⟩ := Outcome.ends_done.1 hreturn
    exact ⟨key, by rwa [List.append_nil]⟩
  · rintro ⟨key, hset⟩
    exact ⟨requests, [], w', key, (List.append_nil _).symm, hset, Outcome.ends_done.2 ⟨rfl, rfl, rfl⟩⟩

/-- The value of a member of a component is the component's property. -/
theorem eval_member (hobject : w.component? object = some component) (line : Line) (name : Text) :
    eval line (.member object name) w =
      match w.property component name with
      | .ok value => .done w value
      | .error fault => .failed w fault := by
  have hmember : evalMember object name (eval line object) w =
      lift (w.property component name) w := by
    simp only [evalMember, bind_eq, chain, andThen, world, Outcome.andThen, hobject]
  rw [eval, hmember]
  cases w.property component name <;> rfl

/-- A write to a property that drives no timer can come to its end. -/
theorem exists_ends_setProperty (hc : w.componentNamed? component = some c)
    (hdrives : World.drivesTimer (canonicalProperty p) = false) (value : Value) :
    ∃ requests w' key, (setProperty component p value w).Ends Exchange.Direct requests w' key := by
  let written : World :=
    { w with components := w.components.set (.text component) (c.store p value) }
  let request : Request := .propertyChanged component (canonicalProperty p) value
  have hask : (ask request written).Ends Exchange.Direct [request] written () := by
    refine ⟨[.asked request written written (.ok ())], traces_ask.2 rfl, ?_, rfl⟩
    rintro x hx
    obtain rfl := List.mem_singleton.1 hx
    exact ⟨[], rfl⟩
  refine ⟨[request] ++ [], written, canonicalProperty p, ends_look.2 ?_⟩
  simp only [World.storeProperty, hc]
  refine ends_enter.2 (ends_bind.2 ⟨_, _, written, (), rfl, hask, ends_look.2 ?_⟩)
  rw [hdrives, Bool.and_false]
  exact Outcome.ends_done.2 ⟨rfl, rfl, rfl⟩

/-- After an assignment to a property, exactly those names that differ from its name by ASCII case
at most and find it have the assigned value, whatever the host does when it is told of the
change. -/
theorem read_after_write_iff (hgoes : w.stopped = false)
    (hobject : w.component? object = some component) (hc : w.componentNamed? component = some c)
    (hcase : p.asciiLower = q.asciiLower) (hcount : Text.lower q ≠ "count") (line line' : Line) :
    (∀ e value requests w', eval line e w = .done w value →
      (exec (.assign (.member object p) e line) w).Ends Exchange.Direct requests w' () →
        eval line' (.member object q) w' = .done w' value) ↔ c.Finds p q := by
  have hlower : Text.lower p = Text.lower q := by
    rw [← Text.lower_asciiLower p, hcase, Text.lower_asciiLower]
  have hread : ∀ {value requests w' key},
      (setProperty component p value w).Ends Exchange.Direct requests w' key →
        eval line' (.member object q) w' = match (c.store p value).property q with
          | .ok value => .done w' value
          | .error fault => .failed w' fault := by
    intro value requests w' key hset
    have hwritten := afterWriting_setProperty hc hset
    rw [eval_member (by rw [hwritten.component?_eq hc, hobject]), hwritten.property_eq]
  constructor
  · intro h
    obtain hspelling | ⟨hunknown, -, -⟩ := canonicalProperty_cases hlower
    · exact .inl hspelling
    have hdrives : World.drivesTimer (canonicalProperty p) = false :=
      Bool.eq_false_iff.2 fun htrue => lookup_of_drivesTimer htrue hunknown
    refine Component.finds_of_property_store hlower hcount fun b => ?_
    obtain ⟨requests, w', key, hset⟩ := exists_ends_setProperty hc hdrives (.bool b)
    have heval := h (.boolean b) (.bool b) requests w' rfl
      ((ends_exec_assign hgoes hobject rfl).2 ⟨key, hset⟩)
    rw [hread hset] at heval
    split at heval
    · next hproperty => rw [hproperty, (Outcome.done.inj heval).2]
    · cases heval
  · intro hfinds e value requests w' hvalue hexec
    obtain ⟨key, hset⟩ := (ends_exec_assign hgoes hobject hvalue).1 hexec
    rw [hread hset, Component.property_store hlower hcount hfinds]

/-- A label with a tag. -/
def taggedLabel : Component where
  name := .text "C"
  typeName := .text "Label"
  properties := [(.text "Tag", .int 1)]

/-- A world with a tagged label. -/
def tagged : World where
  components := [(.text "C", taggedLabel)]

/-- The tag is found under any spelling of its name, unless it is written under another one. -/
theorem read_after_write_iff_tagged :
    (tagged.stopped = false ∧ tagged.component? (.ident "C") = some "C" ∧
      tagged.componentNamed? "C" = some taggedLabel ∧
      Text.asciiLower "Tag" = Text.asciiLower "TAG" ∧ Text.lower "TAG" ≠ "count") ∧
    (∀ e value requests w', eval none e tagged = .done tagged value →
      (exec (.assign (.member (.ident "C") "Tag") e none) tagged).Ends Exchange.Direct
        requests w' () → eval none (.member (.ident "C") "TAG") w' = .done w' value) ∧
    ¬ (∀ e value requests w', eval none e tagged = .done tagged value →
      (exec (.assign (.member (.ident "C") "tag") e none) tagged).Ends Exchange.Direct
        requests w' () → eval none (.member (.ident "C") "TAG") w' = .done w' value) := by
  have hobject : tagged.component? (.ident "C") = some "C" := by decide
  have hc : tagged.componentNamed? "C" = some taggedLabel := rfl
  refine ⟨⟨rfl, hobject, hc, by decide, by decide⟩, ?_, ?_⟩
  · exact (read_after_write_iff rfl hobject hc (by decide) (by decide) none none).2 (by decide)
  · exact fun h => absurd
      ((read_after_write_iff rfl hobject hc (by decide) (by decide) none none).1 h) (by decide)

end Script

end FormBasic
