import FormBasic.Proofs.Number.Display
import FormBasic.Proofs.Script.Properties
import FormBasic.Proofs.Script.Running

/-!
# Finding what was added to a list

The list of a component holds the display texts of the values that were added to it, and it is
searched by loose equality. The display text of a text or an integer equals that value, so what was
added is found. The display text of a truth value is a word, which equals no number: an added truth
value is not found, unless an earlier item equals it by chance.

## Main definitions

* `Value.isListable` - texts, truth values and integers that can be displayed
* `World.items` - the items of a component
* `Expr.onItems` - a call of a method of a component's items

## Main statements

* `Value.looselyEqual_of_display` - the display text of a value equals the value, unless that is a
  truth value
* `Script.position?_added_isSome_iff` - when an added value is found
* `Script.added_item_is_found` - what the methods of the list answer after a value was added
-/

namespace FormBasic

-- ════════════════════════════════════════════════════════════════════════════
-- Values and their display texts
-- ════════════════════════════════════════════════════════════════════════════

namespace Value

/-- Whether the value is a truth value. -/
def isBool : Value → Bool
  | .bool _ => true
  | _ => false

/-- Whether the value is a text, a truth value, or an integer of at most 4300 digits. -/
def isListable : Value → Bool
  | .text _ | .bool _ => true
  | .int n => decide ((Nat.toDigits 10 n.natAbs).length ≤ digitLimit)
  | _ => false

variable {v : Value} {t : Text}

/-- A listable value can be displayed. -/
theorem exists_display (hv : v.isListable = true) : ∃ t, v.display = .ok t := by
  cases v with
  | text s => exact ⟨s, rfl⟩
  | bool b => exact ⟨boolText b, rfl⟩
  | int n => exact ⟨_, Number.integerText_eq_ok_iff.2 ⟨of_decide_eq_true hv, rfl⟩⟩
  | _ => cases hv

/-- The display text of a listable value equals the value, unless that is a truth value. -/
theorem looselyEqual_of_display (hv : v.isListable = true) (h : v.display = .ok t) :
    (Value.text t).looselyEqual v = !v.isBool := by
  cases v with
  | text s =>
    obtain rfl := Except.ok.inj h
    exact beq_self_eq_true _
  | bool b =>
    obtain rfl := Except.ok.inj h
    cases b <;> rfl
  | int n => rw [looselyEqual_of_integerText h, beq_self_eq_true]; rfl
  | _ => cases hv

end Value

-- ════════════════════════════════════════════════════════════════════════════
-- Positions
-- ════════════════════════════════════════════════════════════════════════════

namespace Script

section Positions

variable {v : Value} {t : Text} {items : List Value} {i : Nat}

/-- The place of an added value is that of an earlier item that equals it, else the last one, unless
it is a truth value. -/
theorem position?_added (hv : v.isListable = true) (h : v.display = .ok t) :
    position? v (items ++ [.text t]) =
      (position? v items).or (if v.isBool then none else some items.length) := by
  have hlast : position? v [.text t] = if v.isBool then none else some 0 := by
    simp only [position?, List.findIdx?_singleton, Value.looselyEqual_of_display hv h]
    cases v.isBool <;> rfl
  rw [position?, List.findIdx?_append]
  change (position? v items).or ((position? v [.text t]).map (· + items.length)) = _
  rw [hlast]
  split
  · rfl
  · simp

/-- An added value is found, unless it is a truth value that equals no earlier item. -/
theorem position?_added_isSome_iff (hv : v.isListable = true) (h : v.display = .ok t) :
    (position? v (items ++ [.text t])).isSome = true ↔
      v.isBool = false ∨ ∃ item ∈ items, item.looselyEqual v = true := by
  rw [position?_added hv h, Option.isSome_or, Bool.or_eq_true, or_comm]
  refine or_congr ?_ ?_
  · cases v.isBool <;> simp
  · rw [position?, List.findIdx?_isSome, List.any_eq_true]

/-- Whether the item at a position equals a value, and no item before it does. -/
def FirstAt (v : Value) (items : List Value) (i : Nat) : Prop :=
  (∃ item, items[i]? = some item ∧ item.looselyEqual v = true) ∧
    ∀ j < i, ∀ item, items[j]? = some item → item.looselyEqual v = false

theorem firstAt_of_position? (h : position? v items = some i) : FirstAt v items i := by
  obtain ⟨hlt, hitem, hbefore⟩ := List.findIdx?_eq_some_iff_getElem.1 h
  refine ⟨⟨items[i], List.getElem?_eq_getElem hlt, hitem⟩, fun j hj item hget => ?_⟩
  obtain ⟨hj', rfl⟩ := List.getElem?_eq_some_iff.1 hget
  exact Bool.eq_false_iff.2 (hbefore j hj)

end Positions

end Script

-- ════════════════════════════════════════════════════════════════════════════
-- The items of a component
-- ════════════════════════════════════════════════════════════════════════════

namespace World

/-- The items of a component; none when it has no list of them. -/
def items (w : World) (component : Text) : List Value :=
  ((w.componentNamed? component).bind Component.items?).getD []

/-- The world with the items of a component replaced. -/
def withItems (w : World) (component : Text) (items : List Value) : World :=
  match w.componentNamed? component with
  | some c =>
    { w with components := w.components.set (.text component) (c.store "items" (.list items)) }
  | none => w

variable {w w' : World} {component : Text} {c : Component} {items : List Value}

theorem afterWriting_withItems (hc : w.componentNamed? component = some c) :
    w.AfterWriting component (c.store "items" (.list items)) (w.withItems component items) := by
  rw [withItems, hc]
  exact ⟨rfl, rfl, rfl⟩

/-- Items that were written are the items. -/
theorem AfterWriting.items_eq
    (h : w.AfterWriting component (c.store "items" (.list items)) w') :
    w'.items component = items := by
  have hstored : (c.store "items" (.list items)).stored? "items" = some (.list items) := by
    rw [Component.stored?_store, if_pos (by decide)]
  rw [World.items, h.componentNamed?, if_pos rfl, Option.bind_some, Component.items?, hstored]
  rfl

end World

-- ════════════════════════════════════════════════════════════════════════════
-- Methods of the items
-- ════════════════════════════════════════════════════════════════════════════

/-- A call of a method of the items of a component, with one argument. -/
def Expr.onItems (object : Expr) (method : Text) (e : Expr) : Expr :=
  .call (.member (.member object "Items") method) [e]

namespace Script

variable {w : World} {component method : Text} {object e : Expr} {line : Line} {v result : Value}
  {items : List Value}

theorem listProperty?_items (w : World) (component : Text) :
    listProperty? w component "items" = some (w.items component) := by
  have hstored : ((w.componentNamed? component).bind fun c =>
      (c.stored? "items").bind Value.items?) =
      (w.componentNamed? component).bind Component.items? := rfl
  rw [listProperty?, World.items, hstored, if_pos rfl]
  cases (w.componentNamed? component).bind Component.items? <;> rfl

theorem callOnList?_items (hobject : w.component? object = some component) (method : String)
    (args : List Value) :
    callOnList? (.member object "Items") method args w =
      (compute (changeList method (w.items component) args) >>= fun
        | .unknown => pure none
        | .unchanged value => pure (some value)
        | .changed items value => do
          discard (setProperty component "items" (.list items))
          return some value) w := by
  rw [callOnList?, bind_of_done (m := world) rfl]
  simp only [hobject]
  rw [callList?, bind_of_done (m := world) rfl, show canonicalProperty "Items" = "items" by decide]
  generalize hfound : listProperty? w component "items" = found
  rw [listProperty?_items] at hfound
  subst hfound
  rfl

/-- A method of the items of a component is called with the value of the argument. -/
theorem eval_onItems (hvalue : eval line e w = .done w v) (method : Text) :
    eval line (object.onItems method e) w =
      callMethod line (.member object "Items") method [v]
        (eval line (.member object "Items")) w :=
  bind_of_done (evalAll_singleton hvalue) _

/-- A method that leaves the items of a component as they are gives its value. -/
theorem eval_onItems_unchanged (hobject : w.component? object = some component)
    (hvalue : eval line e w = .done w v)
    (hchange : changeList (Text.word method) (w.items component) [v] = .ok (.unchanged result)) :
    eval line (object.onItems method e) w = .done w result := by
  have hlist : callOnList? (.member object "Items") (Text.word method) [v] w =
      .done w (some result) := by
    rw [callOnList?_items hobject, hchange]
    rfl
  rw [eval_onItems hvalue, callMethod, bind_of_done hlist]
  rfl

/-- A method that changes the items of a component stores them and tells the host. -/
theorem eval_onItems_changed (hobject : w.component? object = some component)
    (hvalue : eval line e w = .done w v)
    (hchange : changeList (Text.word method) (w.items component) [v] =
      .ok (.changed items result)) :
    eval line (object.onItems method e) w =
      .asking (w.withItems component items) (.propertyChanged component "items" (.list items))
        fun w' reply => .ended w' (reply.map fun _ => result) := by
  obtain ⟨c, hc⟩ := Option.isSome_iff_exists.1 (hasComponent_of_component? hobject)
  have hset := setProperty_apply hc
    (show World.drivesTimer (canonicalProperty "items") = false by decide) (.list items)
  rw [show canonicalProperty "items" = "items" by decide] at hset
  have hlist : callOnList? (.member object "Items") (Text.word method) [v] w =
      .asking (w.withItems component items) (.propertyChanged component "items" (.list items))
        fun w' reply => .ended w' (reply.map fun _ => some result) := by
    rw [callOnList?_items hobject, hchange, World.withItems, hc]
    exact bind_of_asking_ended (bind_of_asking_ended hset fun _ => ()) fun _ => some result
  rw [eval_onItems hvalue, callMethod]
  refine bind_of_asking hlist fun w' reply => ?_
  cases reply <;> rfl

-- ════════════════════════════════════════════════════════════════════════════
-- Adding and finding
-- ════════════════════════════════════════════════════════════════════════════

/-- Whether the methods that look for the value of an expression among the items of a component find
it at a place, or nowhere. -/
structure FindsAt (line : Line) (w : World) (object : Expr) (component : Text) (e : Expr)
    (place : Option Nat) : Prop where
  contains : eval line (object.onItems "Contains" e) w = .done w (.bool place.isSome)
  indexOf : eval line (object.onItems "IndexOf" e) w = .done w (.int (place.elim (-1) Int.ofNat))
  remove : ∀ i, place = some i → eval line (object.onItems "Remove" e) w =
    .asking (w.withItems component ((w.items component).eraseIdx i))
      (.propertyChanged component "items" (.list ((w.items component).eraseIdx i)))
      fun w' reply => .ended w' (reply.map fun _ => .nothing)
  keep : place = none → eval line (object.onItems "Remove" e) w = .done w .nothing

/-- The methods that look for a value find the first item that equals it. -/
theorem findsAt_position? (hobject : w.component? object = some component)
    (hvalue : eval line e w = .done w v) :
    FindsAt line w object component e (position? v (w.items component)) := by
  have harg : Library.arg [v] 0 .nothing = v := rfl
  refine ⟨eval_onItems_unchanged hobject hvalue rfl, eval_onItems_unchanged hobject hvalue ?_,
    fun i hplace => eval_onItems_changed hobject hvalue ?_,
    fun hplace => eval_onItems_unchanged hobject hvalue ?_⟩
  · change changeList "indexof" _ _ = _
    rw [changeList, harg]
    cases position? v (w.items component) <;> rfl
  · change changeList "remove" _ _ = _
    rw [changeList, harg, hplace]
    rfl
  · change changeList "remove" _ _ = _
    rw [changeList, harg, hplace]
    rfl

/-- The number of items of a component. -/
theorem eval_itemCount (hobject : w.component? object = some component)
    (hfree : w.component? (.member object "Items") = none)
    (hitems : w.property component "Items" = .ok (.list items)) (line : Line) :
    eval line (.member (.member object "Items") "Count") w = .done w (.int items.length) := by
  have hread : eval line (.member object "Items") w = .done w (.list items) := by
    rw [eval_member hobject, hitems]
  rw [eval, evalMember, bind_of_done (m := world) rfl]
  simp only [hfree]
  change (eval line (.member object "Items") >>= fun value => readMember value "Count") w = _
  rw [bind_of_done hread]
  rfl

/-- After a text, a truth value or an integer was added to the items of a component, the methods of
the list agree on the place of the value: it is that of the first item that equals it. There is one
unless the value is a truth value that equals no item from before. -/
theorem added_item_is_found (hobject : w.component? object = some component)
    (hv : v.isListable = true) :
    ∃ t, v.display = .ok t ∧
      let items := w.items component
      let listed : List Value := items ++ [.text t]
      (∀ line e, eval line e w = .done w v →
        eval line (object.onItems "Add" e) w =
          .asking (w.withItems component listed) (.propertyChanged component "items" (.list listed))
            fun w' reply => .ended w' (reply.map fun _ => .int items.length)) ∧
      ∀ sent, let w' := (w.withItems component listed).signals sent
        w'.items component = listed ∧
        (w.component? (.member object "Items") = none → ∀ line,
          eval line (.member (.member object "Items") "Count") w' =
            .done w' (.int listed.length)) ∧
        ∃ place : Option Nat,
          (∀ line e, eval line e w' = .done w' v → FindsAt line w' object component e place) ∧
          (∀ i, place = some i → FirstAt v listed i) ∧
          (place.isSome = true ↔
            v.isBool = false ∨ ∃ item ∈ items, item.looselyEqual v = true) := by
  obtain ⟨t, ht⟩ := Value.exists_display hv
  obtain ⟨c, hc⟩ := Option.isSome_iff_exists.1 (hasComponent_of_component? hobject)
  refine ⟨t, ht, fun line e hvalue => ?_, fun sent => ?_⟩
  · refine eval_onItems_changed hobject hvalue ?_
    have hadd : changeList "add" (w.items component) [v] =
        v.display >>= fun t => .ok (.changed (w.items component ++ [.text t])
          (.int (w.items component).length)) := rfl
    exact hadd.trans (by rw [ht]; rfl)
  · have hwritten : w.AfterWriting component
        (c.store "items" (.list (w.items component ++ [.text t])))
        ((w.withItems component (w.items component ++ [.text t])).signals sent) :=
      (World.afterWriting_withItems hc).signals sent
    have hsame := hwritten.component?_eq hc
    refine ⟨hwritten.items_eq, fun hfree line => ?_, _, fun line e hvalue => ?_,
      fun i hi => firstAt_of_position? hi, position?_added_isSome_iff hv ht⟩
    · refine eval_itemCount ((hsame object).trans hobject) ((hsame _).trans hfree) ?_ line
      rw [hwritten.property_eq, Component.property_store_of_eq (by decide) (by decide)]
    · have := findsAt_position? ((hsame object).trans hobject) hvalue
      rwa [hwritten.items_eq] at this

/-- A list box with one item. -/
def listBox : Component where
  name := .text "L"
  typeName := .text "ListBox"
  properties := [(.text "items", .list [.text "1"])]

/-- A world with a list box. -/
def boxed : World where
  components := [(.text "L", listBox)]

/-- A text is found once it was added, a truth value that equals no number of the list is not. -/
theorem added_item_is_found_listBox :
    (boxed.component? (.ident "L") = some "L" ∧ (Value.text "b").isListable = true ∧
      (Value.bool false).isListable = true) ∧
    (let w := boxed.withItems "L" [.text "1", .text "b"]
      ∃ i, FindsAt none w (.ident "L") "L" (.string "b") (some i) ∧
        FirstAt (.text "b") [.text "1", .text "b"] i) ∧
    let w := boxed.withItems "L" [.text "1", .text "False"]
    FindsAt none w (.ident "L") "L" (.boolean false) none := by
  have hobject : boxed.component? (.ident "L") = some "L" := by decide
  refine ⟨⟨hobject, rfl, rfl⟩, ?_, ?_⟩
  · obtain ⟨t, ht, -, hadded⟩ := added_item_is_found (v := .text "b") hobject rfl
    obtain rfl := Except.ok.inj ht
    obtain ⟨-, -, place, hfinds, hfirst, hsome⟩ := hadded []
    obtain ⟨i, rfl⟩ := Option.isSome_iff_exists.1 (hsome.2 (.inl rfl))
    exact ⟨i, hfinds none (.string "b") rfl, hfirst i rfl⟩
  · obtain ⟨t, ht, -, hadded⟩ := added_item_is_found (v := .bool false) hobject rfl
    obtain rfl := Except.ok.inj ht
    obtain ⟨-, -, place, hfinds, -, hsome⟩ := hadded []
    have hnowhere : ¬ ((Value.bool false).isBool = false ∨ ∃ item ∈ boxed.items "L",
        item.looselyEqual (.bool false) = true) := by decide
    obtain rfl := Option.not_isSome_iff_eq_none.1 fun h => hnowhere (hsome.1 h)
    exact hfinds none (.boolean false) rfl

end Script

end FormBasic
