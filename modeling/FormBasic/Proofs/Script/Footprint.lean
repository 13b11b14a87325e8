import FormBasic.Proofs.Script.Plain
import FormBasic.Script.Exec

/-!
# What blocks mention and write

A tree is told by its nodes, and a node says by itself which name it mentions and which it writes.
Simple nodes are those of plain computation: they call nothing, take no item of anything and leave
the form alone. What a simple block does in a plain world depends on nothing but the names that it
mentions, and it changes nothing but the names that it writes; a scope is what one has to know of a
block to say so.

## Main definitions

* `Node`, `Expr.nodes`, `blockNodes` - the nodes of a tree
* `mentionedNames`, `writtenNames` - what a block mentions, and what it writes
* `IsSimple` - blocks of plain computation
* `Scope` - the names that a block may mention and write
* `Scope.Agree`, `Scope.Keeps` - worlds that look alike to a block, and worlds between which it may
  have run

## Main statements

* `Scope.Fits.component?_eq` - what a simple object expression refers to
* `Scope.Keeps.agree` - a block is blind to what another one does to names that it does not mention
* `Scope.Agree.setVariable`, `Scope.Agree.propertyWritten` - writing the same keeps worlds alike

## Design notes

Which components there are decides what an assignment to a member writes, and it does not change
while scripts run. So it is part of a scope.
-/

namespace FormBasic

-- ════════════════════════════════════════════════════════════════════════════
-- Nodes
-- ════════════════════════════════════════════════════════════════════════════

/-- A node of a tree, with all that hangs from it. -/
inductive Node where
  | expr (e : Expr)
  | stmt (s : Stmt)

mutual

/-- The nodes of an expression. -/
def Expr.nodes : Expr → List Node
  | .member object property => .expr (.member object property) :: object.nodes
  | .index object key => .expr (.index object key) :: (object.nodes ++ key.nodes)
  | .call target args => .expr (.call target args) :: (target.nodes ++ argumentNodes args)
  | .binary op left right => .expr (.binary op left right) :: (left.nodes ++ right.nodes)
  | .unary op operand => .expr (.unary op operand) :: operand.nodes
  | e => [.expr e]
termination_by structural e => e

/-- The nodes of an argument list. -/
def argumentNodes : List Expr → List Node
  | [] => []
  | e :: es => e.nodes ++ argumentNodes es
termination_by structural es => es

end

/-- The nodes of an expression that may be missing. -/
def optionalNodes : Option Expr → List Node
  | none => []
  | some e => e.nodes

mutual

/-- The nodes of a statement. -/
def Stmt.nodes : Stmt → List Node
  | .dim name typeName initial line =>
    .stmt (.dim name typeName initial line) :: optionalNodes initial
  | .assign target value line => .stmt (.assign target value line) :: (target.nodes ++ value.nodes)
  | .call target args line =>
    .stmt (.call target args line) :: (target.nodes ++ argumentNodes args)
  | .cond test body elseIfs otherwise line =>
    .stmt (.cond test body elseIfs otherwise line) ::
      (test.nodes ++ blockNodes body ++ elseIfNodes elseIfs ++ blockNodes otherwise)
  | .forLoop counter start stop step body line =>
    .stmt (.forLoop counter start stop step body line) ::
      (start.nodes ++ stop.nodes ++ optionalNodes step ++ blockNodes body)
  | .whileLoop test body line =>
    .stmt (.whileLoop test body line) :: (test.nodes ++ blockNodes body)
  | .doLoop body test ending testAtEnd line =>
    .stmt (.doLoop body test ending testAtEnd line) :: (blockNodes body ++ optionalNodes test)
  | .ret value line => .stmt (.ret value line) :: optionalNodes value
  | s => [.stmt s]
termination_by structural s => s

/-- The nodes of a block. -/
def blockNodes : List Stmt → List Node
  | [] => []
  | s :: ss => s.nodes ++ blockNodes ss
termination_by structural ss => ss

/-- The nodes of further branches. -/
def elseIfNodes : List ElseIf → List Node
  | [] => []
  | clause :: rest => clause.nodes ++ elseIfNodes rest
termination_by structural clauses => clauses

/-- The nodes of a further branch. -/
def ElseIf.nodes : ElseIf → List Node
  | .mk test body => test.nodes ++ blockNodes body
termination_by structural clause => clause

end

/-- The component that an object expression stands for, where it is a name and the components are
known. -/
def Expr.owner? (isComponent : Text → Bool) : Expr → Option Text
  | .ident name => if isComponent name then some name else none
  | _ => none

namespace Node

/-- The name that a node writes: a variable, or the component of a member. -/
def written? (isComponent : Text → Bool) : Node → Option Text
  | .stmt (.dim name _ _ _) => some name
  | .stmt (.assign (.ident name) _ _) => some name
  | .stmt (.assign (.member object _) _ _) => object.owner? isComponent
  | .stmt (.forLoop counter _ _ _ _ _) => some counter
  | _ => none

/-- The name that a node mentions. -/
def mentioned? : Node → Option Text
  | .expr (.ident name) => some name
  | node => node.written? fun _ => true

/-- Whether a node belongs to plain computation. -/
def isSimple : Node → Bool
  | .expr (.index _ _) | .expr (.call _ _) => false
  | .expr (.ident name) => name != selfName
  | .expr _ => true
  | .stmt (.dim _ _ _ _) | .stmt (.assign _ _ _) | .stmt (.cond _ _ _ _ _)
  | .stmt (.forLoop _ _ _ _ _ _) | .stmt (.whileLoop _ _ _) | .stmt (.doLoop _ _ _ _ _) => true
  | .stmt _ => false

theorem mentioned?_of_written? {isComponent : Text → Bool} {node : Node} {name : Text}
    (h : node.written? isComponent = some name) : node.mentioned? = some name := by
  cases node with
  | expr e => cases h
  | stmt s =>
    cases s with
    | assign target value line =>
      cases target with
      | member object property =>
        cases object with
        | ident owner =>
          simp only [written?, Expr.owner?, Option.ite_none_right_eq_some] at h
          exact h.2
        | _ => cases h
      | _ => exact h
    | _ => exact h

end Node

/-- The names that a block mentions. -/
def mentionedNames (ss : List Stmt) : List Text := (blockNodes ss).filterMap Node.mentioned?

/-- The names that a block writes: its variables, and the components of the members to which it
assigns. -/
def writtenNames (isComponent : Text → Bool) (ss : List Stmt) : List Text :=
  (blockNodes ss).filterMap (Node.written? isComponent)

/-- Whether a block is made of declarations, assignments, conditionals and loops over expressions
that call nothing, take no item and do not refer to the form. -/
def IsSimple (ss : List Stmt) : Prop := ∀ node ∈ blockNodes ss, node.isSimple = true

theorem mentionedNames_of_writtenNames {isComponent : Text → Bool} {ss : List Stmt} {name : Text}
    (h : name ∈ writtenNames isComponent ss) : name ∈ mentionedNames ss := by
  obtain ⟨node, hnode, hname⟩ := List.mem_filterMap.1 h
  exact List.mem_filterMap.2 ⟨node, hnode, Node.mentioned?_of_written? hname⟩

-- ════════════════════════════════════════════════════════════════════════════
-- Scopes
-- ════════════════════════════════════════════════════════════════════════════

/-- The names that a block may mention and write, where the components are known. -/
structure Scope where
  mentions : Text → Prop
  writes : Text → Prop
  isComponent : Text → Bool

namespace Scope

/-- The scope of a block. -/
def ofBlock (isComponent : Text → Bool) (ss : List Stmt) : Scope where
  mentions name := name ∈ mentionedNames ss
  writes name := name ∈ writtenNames isComponent ss
  isComponent := isComponent

/-- Whether a node is simple and keeps to a scope. -/
structure Admits (S : Scope) (node : Node) : Prop where
  simple : node.isSimple = true
  mentions : ∀ name, node.mentioned? = some name → S.mentions name
  writes : ∀ name, node.written? S.isComponent = some name → S.writes name

/-- A simple block keeps to its own scope. -/
theorem admits_ofBlock (isComponent : Text → Bool) {ss : List Stmt} (h : IsSimple ss) :
    ∀ node ∈ blockNodes ss, (ofBlock isComponent ss).Admits node :=
  fun node hnode => {
    simple := h node hnode
    mentions := fun _ hname => List.mem_filterMap.2 ⟨node, hnode, hname⟩
    writes := fun _ hname => List.mem_filterMap.2 ⟨node, hnode, hname⟩ }

/-- Worlds in which simple blocks run: the session goes on, there are no data access objects, and
the components are known. -/
structure Fits (S : Scope) (w : World) : Prop where
  goesOn : w.halted = false
  plain : w.Plain
  components : ∀ name, w.hasComponent name = S.isComponent name

/-- Whether a key is one of some names. -/
def IsKey (names : Text → Prop) (key : Key) : Prop := ∃ name, names name ∧ key = .text name

theorem isKey_text {names : Text → Prop} {name : Text} : IsKey names (.text name) ↔ names name := by
  constructor
  · rintro ⟨other, hother, heq⟩
    rwa [Key.text.inj heq]
  · exact fun h => ⟨name, h, rfl⟩

theorem IsKey.mono {names names' : Text → Prop} (h : ∀ name, names name → names' name) {key : Key}
    (hkey : IsKey names key) : IsKey names' key :=
  hkey.imp fun name hname => ⟨h name hname.1, hname.2⟩

/-- Two worlds that look alike to a block. -/
structure Agree (S : Scope) (w v : World) : Prop where
  left : S.Fits w
  right : S.Fits v
  config : w.config = v.config
  globals : ∀ name, S.mentions name → w.globals.get? name = v.globals.get? name
  components : ∀ key, IsKey S.mentions key → w.components.get? key = v.components.get? key

/-- Two worlds between which a block may have run: what it does not write is the same. -/
structure Keeps (S : Scope) (w w' : World) : Prop where
  config : w'.config = w.config
  globals : ∀ name, ¬ S.writes name → w'.globals.get? name = w.globals.get? name
  components : ∀ key, ¬ IsKey S.writes key → w'.components.get? key = w.components.get? key

variable {S T : Scope} {w v w' v' : World}

/-- Whether simple blocks run in a world only depends on its components. -/
theorem Fits.congr (h : S.Fits w) (hcomponents : T.isComponent = S.isComponent) : T.Fits w where
  goesOn := h.goesOn
  plain := h.plain
  components name := hcomponents ▸ h.components name

/-- What a simple object expression refers to. -/
theorem Fits.component?_eq (h : S.Fits w) {object : Expr}
    (hobject : ∀ node ∈ object.nodes, node.isSimple = true) :
    w.component? object = object.owner? S.isComponent := by
  cases object with
  | ident name =>
    have hname : name ≠ selfName := by
      simpa [Expr.nodes, Node.isSimple] using hobject
    simp [World.component?, Expr.owner?, hname, h.plain.holdsObject, h.components]
  | member inner property =>
    cases inner with
    | ident owner =>
      have howner : owner ≠ selfName := by
        simpa [Expr.nodes, Node.isSimple] using hobject
      simp [World.component?, Expr.owner?, howner]
    | _ => rfl
  | _ => rfl

namespace Keeps

theorem refl (S : Scope) (w : World) : S.Keeps w w := ⟨rfl, fun _ _ => rfl, fun _ _ => rfl⟩

theorem trans {w₁ w₂ w₃ : World} (h : S.Keeps w₁ w₂) (h' : S.Keeps w₂ w₃) : S.Keeps w₁ w₃ where
  config := h'.config.trans h.config
  globals name hname := (h'.globals name hname).trans (h.globals name hname)
  components key hkey := (h'.components key hkey).trans (h.components key hkey)

/-- A block is blind to what another one does to names that it does not mention. -/
theorem agree (h : T.Keeps w w') (hw : S.Fits w) (hw' : S.Fits w')
    (hother : ∀ name, T.writes name → ¬ S.mentions name) : S.Agree w w' where
  left := hw
  right := hw'
  config := h.config.symm
  globals name hname := (h.globals name fun hwrites => hother name hwrites hname).symm
  components := by
    rintro _ ⟨name, hname, rfl⟩
    exact (h.components _ fun hwrites => hother name (isKey_text.1 hwrites) hname).symm

end Keeps

namespace Agree

theorem refl (h : S.Fits w) : S.Agree w w :=
  ⟨h, h, rfl, fun _ _ => rfl, fun _ _ => rfl⟩

theorem componentNamed?_eq (h : S.Agree w v) {name : Text} (hname : S.mentions name) :
    w.componentNamed? name = v.componentNamed? name :=
  h.components _ (isKey_text.2 hname)

theorem identifier_eq (h : S.Agree w v) {name : Text} (hname : S.mentions name) :
    w.identifier name = v.identifier name := by
  simp only [World.identifier, h.globals name hname, h.left.components, h.right.components]

theorem property_eq (h : S.Agree w v) {component : Text} (hcomponent : S.mentions component)
    (name : Text) : w.property component name = v.property component name := by
  simp only [World.property, h.componentNamed?_eq hcomponent]

theorem staticClass?_eq (h : S.Agree w v) {object : Expr}
    (hobject : ∀ node ∈ object.nodes, S.Admits node) :
    w.staticClass? object = v.staticClass? object := by
  cases object with
  | ident name =>
    have hname : S.mentions name := by
      refine (hobject (.expr (.ident name)) ?_).mentions name rfl
      exact List.mem_singleton_self _
    simp only [World.staticClass?, Table.contains, h.globals name hname, h.left.components,
      h.right.components]
  | _ => rfl

end Agree

-- ════════════════════════════════════════════════════════════════════════════
-- Writing
-- ════════════════════════════════════════════════════════════════════════════

theorem Fits.setVariable (h : S.Fits w) (name : Text) {value : Value} (hvalue : value.Plain) :
    S.Fits (w.setVariable name value) where
  goesOn := h.goesOn
  plain := {
    globals := by
      intro other found hfound
      rw [World.setVariable, Table.get?_set] at hfound
      split at hfound
      · exact Option.some.inj hfound ▸ hvalue
      · exact h.plain.globals other found hfound
    components := h.plain.components }
  components := h.components

/-- Writing the same to a variable keeps worlds alike. -/
theorem Agree.setVariable (h : S.Agree w v) (name : Text) {value : Value} (hvalue : value.Plain) :
    S.Agree (w.setVariable name value) (v.setVariable name value) where
  left := h.left.setVariable name hvalue
  right := h.right.setVariable name hvalue
  config := h.config
  globals other hother := by
    simp only [World.setVariable, Table.get?_set, h.globals other hother]
  components := h.components

theorem Keeps.setVariable (w : World) {name : Text} (hname : S.writes name) (value : Value) :
    S.Keeps w (w.setVariable name value) where
  config := rfl
  globals other hother := by
    have hne : other ≠ name := fun heq => hother (heq ▸ hname)
    rw [World.setVariable, Table.get?_set, if_neg hne]
  components _ _ := rfl

theorem Fits.propertyWritten (h : S.Fits w) {component : Text} {c : Component} (timers : Timers)
    (hcomponent : w.hasComponent component = true) (hc : c.Plain) :
    S.Fits (w.propertyWritten component c timers) where
  goesOn := h.goesOn
  plain := {
    globals := h.plain.globals
    components := by
      intro other found hfound
      rw [World.componentNamed?_propertyWritten] at hfound
      split at hfound
      · exact Option.some.inj hfound ▸ hc
      · exact h.plain.components other found hfound }
  components other := by
    rw [← h.components, World.hasComponent, World.componentNamed?_propertyWritten]
    split
    · next heq => rw [← heq, hcomponent, Option.isSome_some]
    · rfl

theorem Keeps.propertyWritten (w : World) {component : Text} (hcomponent : S.writes component)
    (c : Component) (timers : Timers) : S.Keeps w (w.propertyWritten component c timers) where
  config := rfl
  globals _ _ := rfl
  components key hkey := by
    have hne : key ≠ .text component := fun heq => hkey (heq ▸ isKey_text.2 hcomponent)
    exact Entries.get?_set_text_of_ne w.components c hne

/-- Writing the same to a component keeps worlds alike. -/
theorem Agree.propertyWritten (h : S.Agree w v) {component : Text} {c : Component}
    (hcomponent : w.hasComponent component = true) (hc : c.Plain) (timers timers' : Timers) :
    S.Agree (w.propertyWritten component c timers) (v.propertyWritten component c timers') where
  left := h.left.propertyWritten timers hcomponent hc
  right := by
    rw [h.left.components, ← h.right.components] at hcomponent
    exact h.right.propertyWritten timers' hcomponent hc
  config := h.config
  globals := h.globals
  components := by
    rintro _ ⟨other, hother, rfl⟩
    change World.componentNamed? _ other = World.componentNamed? _ other
    simp only [World.componentNamed?_propertyWritten, h.componentNamed?_eq hother]

end Scope

end FormBasic
