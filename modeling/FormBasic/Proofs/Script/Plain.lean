import FormBasic.Script.Call

/-!
# Plain worlds

Data access objects are shared: two names can stand for one of them, so that what is done to one of
the names can be seen at the other. A value is plain if there is no object in it at any depth, and
in a plain world no script comes by an object unless it makes one.

## Main definitions

* `Value.Plain`, `Component.Plain`, `World.Plain` - values, components and worlds without objects
* `World.propertyWritten` - a world after a property was written

## Main statements

* `World.Plain.identifier`, `World.Plain.property` - what scripts read in a plain world is plain
* `Value.plain_textProperty`, `Value.plain_entryNamed` - so are the members of plain values
-/

namespace FormBasic

/-- Values in which there is no data access object. -/
inductive Value.Plain : Value → Prop where
  | nothing : Plain .nothing
  | bool (b : Bool) : Plain (.bool b)
  | int (n : Int) : Plain (.int n)
  | float (x : Float) : Plain (.float x)
  | nan (mark : Nat) : Plain (.nan mark)
  | text (s : Text) : Plain (.text s)
  | list {items : List Value} (h : ∀ item ∈ items, Plain item) : Plain (.list items)
  | dict {entries : List (Key × Value)} (h : ∀ e ∈ entries, Plain e.2) : Plain (.dict entries)

/-- Components with plain properties only. -/
def Component.Plain (c : Component) : Prop := ∀ e ∈ c.properties, e.2.Plain

/-- Worlds whose variables and components hold no data access objects. -/
structure World.Plain (w : World) : Prop where
  globals : ∀ name value, w.globals.get? name = some value → value.Plain
  components : ∀ name c, w.componentNamed? name = some c → c.Plain

theorem Value.plain_ofNumber (n : Number) : (Value.ofNumber n).Plain := by
  cases n with
  | int n => exact .int n
  | float x => exact .float x

theorem Entries.exists_mem_of_get? {β : Type} {es : Entries β} {key : Key} {value : β}
    (h : es.get? key = some value) : ∃ e ∈ es, e.2 = value := by
  induction es with
  | nil => cases h
  | cons e rest ih =>
    obtain ⟨k, v⟩ := e
    rw [Entries.get?] at h
    split at h
    · exact ⟨(k, v), List.mem_cons_self, Option.some.inj h⟩
    · obtain ⟨e, he, hvalue⟩ := ih h
      exact ⟨e, List.mem_cons_of_mem _ he, hvalue⟩

theorem Entries.eq_or_mem_of_mem_set {β : Type} {es : Entries β} {key : Key} {value : β}
    {e : Key × β} (h : e ∈ es.set key value) : e.2 = value ∨ e ∈ es := by
  induction es with
  | nil =>
    rw [Entries.set, List.mem_singleton] at h
    exact .inl (h ▸ rfl)
  | cons f rest ih =>
    obtain ⟨k, v⟩ := f
    rw [Entries.set] at h
    split at h
    · rcases List.mem_cons.1 h with rfl | h
      · exact .inl rfl
      · exact .inr (List.mem_cons_of_mem _ h)
    · rcases List.mem_cons.1 h with rfl | h
      · exact .inr List.mem_cons_self
      · exact (ih h).imp_right (List.mem_cons_of_mem _)

/-- Looking up any other key after a write to a text gives the old value. -/
theorem Entries.get?_set_text_of_ne {β : Type} (es : Entries β) {t : Text} {key : Key} (value : β)
    (h : key ≠ .text t) : (es.set (.text t) value).get? key = es.get? key := by
  have hother : (Key.text t).equal key = false :=
    Bool.eq_false_iff.2 fun heq => h (Key.eq_text_of_text_equal heq)
  induction es with
  | nil => simp only [Entries.set, Entries.get?, hother, Bool.false_eq_true, if_false]
  | cons e rest ih =>
    obtain ⟨k, v⟩ := e
    rw [Entries.set]
    split
    · next hk =>
      obtain rfl := Key.eq_text_of_equal hk
      simp only [Entries.get?, hother, Bool.false_eq_true, if_false]
    · simp only [Entries.get?, ih]

/-- The world after a property was written and the timers were brought in line. -/
def World.propertyWritten (w : World) (component : Text) (c : Component) (timers : Timers) :
    World :=
  { w with components := w.components.set (.text component) c, timers }

theorem World.componentNamed?_propertyWritten (w : World) (component : Text) (c : Component)
    (timers : Timers) (other : Text) :
    (w.propertyWritten component c timers).componentNamed? other =
      if component = other then some c else w.componentNamed? other := by
  simp only [propertyWritten, componentNamed?, Entries.get?_set, Key.equal_text, beq_iff_eq]

namespace Component.Plain

variable {c : Component}

theorem stored? (h : c.Plain) {spelling : Text} {value : Value}
    (hvalue : c.stored? spelling = some value) : value.Plain := by
  obtain ⟨e, he, rfl⟩ := Entries.exists_mem_of_get? hvalue
  exact h e he

theorem store (h : c.Plain) (name : Text) {value : Value} (hvalue : value.Plain) :
    (c.store name value).Plain := by
  intro e he
  obtain rfl | he := Entries.eq_or_mem_of_mem_set he
  · exact hvalue
  · exact h e he

theorem selectedItem (h : c.Plain) : c.selectedItem.Plain := by
  have hitem : ∀ {items : List Value} (n : Nat), c.items? = some items →
      (items[n]?.getD .nothing).Plain := by
    intro items n hitems
    obtain ⟨value, hstored, hlist⟩ := Option.bind_eq_some_iff.1 hitems
    cases value with
    | list items' =>
      cases hlist
      cases h.stored? hstored with
      | list hplain =>
        cases hget : items[n]? with
        | none => exact .nothing
        | some item => exact hplain item (List.mem_of_getElem? hget)
    | _ => cases hlist
  unfold Component.selectedItem
  split
  · split
    · exact hitem _ ‹_›
    · exact .nothing
  · exact hitem _ ‹_›
  · exact .nothing

theorem foundInAnyCase {lowered : Text} {properties : Entries Value} {found : Option Value}
    (h : ∀ e ∈ properties, e.2.Plain)
    (hfound : Component.foundInAnyCase lowered properties = .ok found) :
    ∀ value ∈ found, value.Plain := by
  induction properties with
  | nil =>
    cases hfound
    exact fun value hvalue => absurd hvalue (Option.not_mem_none value)
  | cons e rest ih =>
    obtain ⟨key, value⟩ := e
    cases key with
    | text name =>
      rw [Component.foundInAnyCase] at hfound
      split at hfound
      · cases hfound
        intro found hmem
        obtain rfl := Option.some.inj hmem
        exact h _ List.mem_cons_self
      · exact ih (fun e he => h e (List.mem_cons_of_mem _ he)) hfound
    | _ => cases hfound

/-- What scripts read of a plain component is plain. -/
theorem property (h : c.Plain) {name : Text} {value : Value}
    (hvalue : c.property name = .ok value) : value.Plain := by
  unfold Component.property at hvalue
  simp only at hvalue
  split at hvalue
  · cases hvalue
    exact .int _
  · cases hvalue
    exact h.stored? ‹_›
  · cases hfound : Component.foundInAnyCase name.lower c.properties with
    | error fault =>
      rw [hfound] at hvalue
      cases hvalue
    | ok found =>
      rw [hfound] at hvalue
      cases found with
      | some value' =>
        cases hvalue
        exact foundInAnyCase h hfound value rfl
      | none =>
        simp only [bind, Except.bind, pure, Except.pure, Except.ok.injEq] at hvalue
        subst hvalue
        split
        · exact h.selectedItem
        · exact .nothing

end Component.Plain

namespace World.Plain

variable {w : World}

/-- The value of a name is plain. -/
theorem identifier (h : w.Plain) (name : Text) : (w.identifier name).Plain := by
  have hconstant : ((Library.constant? (Text.word name)).getD (.text name)).Plain := by
    unfold Library.constant?
    split <;> exact .text _
  unfold World.identifier
  split
  · exact .text _
  · split
    · exact h.globals _ _ ‹_›
    · split
      · exact .text _
      · exact hconstant

theorem property (h : w.Plain) {component name : Text} {value : Value}
    (hvalue : w.property component name = .ok value) : value.Plain := by
  unfold World.property at hvalue
  split at hvalue
  · next c hc => exact (h.components _ c hc).property hvalue
  · cases hvalue
    exact .nothing

theorem holdsObject (h : w.Plain) (name : Text) : w.holdsObject name = false := by
  unfold World.holdsObject
  split
  · next value hvalue =>
    cases h.globals name value hvalue <;> rfl
  · rfl

end World.Plain

theorem Value.plain_classConstant (className name : String) :
    ((Library.classConstant? className name).getD .nothing).Plain := by
  unfold Library.classConstant?
  split <;> first | exact .float _ | exact .text _ | exact .nothing

theorem Value.plain_initialValue (typeName : Text) : (Library.initialValue typeName).Plain := by
  unfold Library.initialValue
  simp only
  split
  · exact .int 0
  · split
    · exact .bool false
    · split
      · exact .nothing
      · exact .text _

/-- What a plain dictionary has under a name is plain. -/
theorem Value.plain_entryNamed {entries : Entries Value} (h : ∀ e ∈ entries, e.2.Plain)
    (name : Text) : (Script.entryNamed entries name).Plain := by
  unfold Script.entryNamed
  split
  · next value hvalue =>
    obtain ⟨e, he, rfl⟩ := Entries.exists_mem_of_get? hvalue
    exact h e he
  · split
    · next e hfound => exact h e (List.mem_of_find?_eq_some hfound)
    · exact .nothing

/-- What a text has under the name of a property is plain. -/
theorem Value.plain_textProperty {text name : Text} {value : Value}
    (h : Library.textProperties.contains (Text.word name) = true)
    (hvalue : Library.callMethod text name [] = .ok value) : value.Plain := by
  have hword : Text.word name = "length" ∨ Text.word name = "toupper" ∨
      Text.word name = "tolower" ∨ Text.word name = "trim" := by
    simpa [Library.textProperties] using h
  unfold Library.callMethod at hvalue
  rcases hword with hword | hword | hword | hword <;> rw [hword] at hvalue <;> cases hvalue
  · exact .int _
  · exact .text _
  · exact .text _
  · exact .text _

end FormBasic
