import FormBasic.Proofs.Script.Footprint
import FormBasic.Proofs.Script.Manners
import FormBasic.Proofs.Session.Machine

/-!
# Which variables executions write

A block is run with all that it brings about: calls inside of conditions and arguments, handlers that
call each other, loops, and errors that end it early. However it ends, no variable is gone that was
there, and only those are new or changed that are named as targets, in the block itself or in the
body of a handler. The form and the components keep their names to themselves: a variable of such a
name comes only from a declaration or from a counting loop, never from an assignment.

## Main definitions

* `declaredNames` - the variables that a block declares, as counters of loops or with `Dim`
* `World.WritesOnly`, `World.DeclaresOnly` - what has happened to variables between two worlds
* `handlerTargets`, `handlerNames` - the variables that handlers name as targets or declare
* `Surroundings.SparesVariables`, `Surroundings.SparesNames` - surroundings in which nothing but
  handlers writes variables, or takes a name that is reserved

## Main statements

* `Script.heeds_declaring` - a block declares no other variable than those it names
* `Script.block_writes_targets` - what executing a block does to variables
-/

namespace FormBasic

-- ════════════════════════════════════════════════════════════════════════════
-- Names
-- ════════════════════════════════════════════════════════════════════════════

/-- The name that a node declares, even if it is the form's or a component's. -/
def Node.declared? : Node → Option Text
  | .stmt (.dim name _ _ _) => some name
  | .stmt (.forLoop counter _ _ _ _ _) => some counter
  | _ => none

/-- The variables that a block declares. -/
def declaredNames (body : List Stmt) : List Text := (blockNodes body).filterMap Node.declared?

/-- Whether the body of some handler names a variable as a target. -/
def handlerTargets (handlers : Table (List Stmt)) (name : Text) : Prop :=
  ∃ key body, handlers.get? key = some body ∧ name ∈ blockTargets body

/-- Whether the body of some handler declares a variable. -/
def handlerNames (handlers : Table (List Stmt)) (name : Text) : Prop :=
  ∃ key body, handlers.get? key = some body ∧ name ∈ declaredNames body

-- ════════════════════════════════════════════════════════════════════════════
-- Variables between two worlds
-- ════════════════════════════════════════════════════════════════════════════

namespace World

/-- Whether a name belongs to the form or to a component. -/
def Reserves (w : World) (name : Text) : Prop := name = selfName ∨ w.hasComponent name = true

/-- Whether no variable has gone, and only variables of some names are new or have changed. -/
structure WritesOnly (names : Text → Prop) (w w' : World) : Prop where
  kept : ∀ name, w.globals.contains name = true → w'.globals.contains name = true
  unwritten : ∀ name, ¬ names name → w'.globals.get? name = w.globals.get? name

/-- Whether no component has gone, and of the variables with a name that belonged to the form or to a
component only some are new. -/
structure DeclaresOnly (names : Text → Prop) (w w' : World) : Prop where
  components : ∀ name, w.hasComponent name = true → w'.hasComponent name = true
  undeclared : ∀ name, ¬ names name → w.Reserves name → w.globals.contains name = false →
    w'.globals.contains name = false

section Relations

variable {names names' : Text → Prop} {w w₁ w₂ w₃ : World}

theorem WritesOnly.refl (w : World) : w.WritesOnly names w := ⟨fun _ h => h, fun _ _ => rfl⟩

theorem WritesOnly.trans (h : w₁.WritesOnly names w₂) (h' : w₂.WritesOnly names w₃) :
    w₁.WritesOnly names w₃ where
  kept name hname := h'.kept name (h.kept name hname)
  unwritten name hname := (h'.unwritten name hname).trans (h.unwritten name hname)

theorem WritesOnly.mono (h : w₁.WritesOnly names w₂) (hle : ∀ name, names name → names' name) :
    w₁.WritesOnly names' w₂ :=
  ⟨h.kept, fun name hname => h.unwritten name fun hn => hname (hle name hn)⟩

theorem writesOnly_setVariable (w : World) {name : Text} (h : names name) (value : Value) :
    w.WritesOnly names (w.setVariable name value) where
  kept other hother := by
    rw [setVariable, Table.contains_set, hother, Bool.or_true]
  unwritten other hother := by
    have hne : other ≠ name := fun heq => hother (heq ▸ h)
    rw [setVariable, Table.get?_set, if_neg hne]

theorem DeclaresOnly.refl (w : World) : w.DeclaresOnly names w :=
  ⟨fun _ h => h, fun _ _ _ h => h⟩

theorem Reserves.mono {name : Text} (h : w₁.Reserves name) (h' : w₁.DeclaresOnly names w₂) :
    w₂.Reserves name :=
  h.imp_right (h'.components name)

/-- A name that is reserved stays reserved, so it can still not be taken later on. -/
theorem DeclaresOnly.trans (h : w₁.DeclaresOnly names w₂) (h' : w₂.DeclaresOnly names w₃) :
    w₁.DeclaresOnly names w₃ where
  components name hname := h'.components name (h.components name hname)
  undeclared name hname hreserved hfree :=
    h'.undeclared name hname (hreserved.mono h) (h.undeclared name hname hreserved hfree)

theorem DeclaresOnly.mono (h : w₁.DeclaresOnly names w₂) (hle : ∀ name, names name → names' name) :
    w₁.DeclaresOnly names' w₂ :=
  ⟨h.components, fun name hname => h.undeclared name fun hn => hname (hle name hn)⟩

theorem declaresOnly_of_eq (hglobals : w₂.globals = w₁.globals)
    (hcomponents : ∀ name, w₁.hasComponent name = true → w₂.hasComponent name = true) :
    w₁.DeclaresOnly names w₂ :=
  ⟨hcomponents, fun _ _ _ hfree => by rw [hglobals, hfree]⟩

/-- A variable may be written whose name is declared, or that is there, or whose name is free. -/
theorem declaresOnly_setVariable (w : World) {name : Text}
    (h : names name ∨ w.globals.contains name = true ∨ ¬ w.Reserves name) (value : Value) :
    w.DeclaresOnly names (w.setVariable name value) where
  components _ hother := hother
  undeclared other hother hreserved hfree := by
    have hne : other ≠ name := by
      rintro rfl
      rcases h with h | h | h
      · exact hother h
      · rw [hfree] at h
        cases h
      · exact h hreserved
    rw [setVariable, Table.contains_set, hfree, Bool.or_false]
    simpa using hne

end Relations

-- ════════════════════════════════════════════════════════════════════════════
-- Changes
-- ════════════════════════════════════════════════════════════════════════════

section Changes

variable {names : Text → Prop} {w w' : World}

/-- Of the changes that can happen between two waits only one concerns variables. -/
theorem Change.writesOnly (h : Change names w w') : w.WritesOnly names w' := by
  have hsame : ∀ {u : World}, u.globals = w.globals → w.WritesOnly names u := by
    intro u hu
    exact ⟨fun name h => by rw [hu, h], fun name _ => by rw [hu]⟩
  cases h with
  | «variable» hname value => exact w.writesOnly_setVariable hname value
  | timer hsync =>
    obtain ⟨rfl, -⟩ | ⟨c, -, -, ⟨-, -, rfl⟩ | ⟨-, -, rfl⟩⟩ := synchronize_cases hsync <;>
      exact hsame rfl
  | _ => exact hsame rfl

theorem Changes.writesOnly (h : Changes names w w') : w.WritesOnly names w' := by
  induction h with
  | refl => exact .refl _
  | tail _ hstep ih => exact ih.trans hstep.writesOnly

/-- Where no variable may be written, none is declared. -/
theorem Changes.declaresOnly (h : Changes (fun _ => False) w w') : w.DeclaresOnly names w' := by
  refine ⟨fun name hname => ?_, fun name _ _ hfree => ?_⟩
  · rw [hasComponent, componentNamed?, h.keep.1]
    exact hname
  · rw [Table.contains, h.writesOnly.unwritten name id]
    exact hfree

/-- A notification writes a property of a component that is there. -/
theorem hasComponent_announced (w : World) (request : Request) {name : Text}
    (h : w.hasComponent name = true) : (w.announced request).hasComponent name = true := by
  cases request with
  | propertyChanged component property value =>
    simp only [hasComponent, componentNamed?, announced, Request.notifications, replay, List.foldl,
      Notification.apply]
    split
    · rw [Entries.get?_set]
      split
      · rfl
      · exact h
    · exact h
  | _ => exact h

theorem writesOnly_announced (w : World) (request : Request) :
    w.WritesOnly names (w.announced request) :=
  ⟨fun _ h => h, fun _ _ => rfl⟩

theorem declaresOnly_announced (w : World) (request : Request) :
    w.DeclaresOnly names (w.announced request) :=
  declaresOnly_of_eq rfl fun _ => w.hasComponent_announced request

end Changes

end World

-- ════════════════════════════════════════════════════════════════════════════
-- Manners
-- ════════════════════════════════════════════════════════════════════════════

namespace Manner

/-- To write variables of some names only. -/
def writing (names : Text → Prop) : Manner where
  step := World.WritesOnly names
  refl := .refl
  trans := .trans

/-- To declare variables of some names only. -/
def declaring (names : Text → Prop) : Manner where
  step := World.DeclaresOnly names
  refl := .refl
  trans := .trans

end Manner

section Orderly

variable {α : Type} {names : Text → Prop}

/-- What keeps to a conduct heeds every manner whose steps the changes are that the conduct allows,
and the notifications. -/
theorem Outcome.Orderly.heeds {m : Manner} (hasks : ∀ request, m.asks request) (hcalls : m.calls)
    (hchanges : ∀ {w w' : World}, World.Changes names w w' → m.step w w')
    (hannounced : ∀ w request, m.step w (w.announced request)) {start : World} {o : Outcome α}
    (ho : o.Orderly { names } start) : o.Heeds m start := by
  induction o generalizing start with
  | done w a => exact hchanges ho
  | failed w fault => exact hchanges ho.1
  | asking w request resume ih =>
    obtain ⟨⟨before, hbefore, rfl⟩, hresume, -⟩ := ho
    refine ⟨m.trans (hchanges hbefore) (hannounced before request), hasks request,
      fun w reply => ?_⟩
    have hserved : World.Changes names w (w.served request reply) := w.changes_served request reply
    exact (ih w reply (hresume w reply (failsOnly_any reply fun _ => trivial))).of_step
      (hchanges hserved)
  | calling w key resume ih =>
    obtain ⟨hcalled, hresume, -⟩ := ho
    exact ⟨hchanges hcalled, hcalls, fun w reply =>
      ih w reply (hresume w reply (failsOnly_any reply fun _ => trivial))⟩

/-- What writes no variable declares none. -/
theorem Script.Orderly.heeds_declaring {script : Script α}
    (h : script.Orderly { names := fun _ => False }) : script.Heeds (.declaring names) :=
  fun w => (h w).heeds (fun _ => trivial) trivial World.Changes.declaresOnly
    fun w request => w.declaresOnly_announced request

end Orderly

namespace Script

/-- A block writes the variables that it names as targets, and no others. -/
theorem heeds_writing {names : Text → Prop} {body : List Stmt}
    (h : ∀ name ∈ blockTargets body, names name) : (block body).Heeds (.writing names) := by
  have hlenient : Conduct.Lenient { names } := ⟨id, fun _ => trivial⟩
  exact fun w => (orderly_block hlenient body h w).heeds (fun _ => trivial) trivial
    World.Changes.writesOnly fun w request => w.writesOnly_announced request

-- ════════════════════════════════════════════════════════════════════════════
-- Declarations
-- ════════════════════════════════════════════════════════════════════════════

/-- Whether all that nodes declare is among some names. -/
def Declare (names : Text → Prop) (nodes : List Node) : Prop :=
  ∀ node ∈ nodes, ∀ name, node.declared? = some name → names name

section Declarations

variable {names : Text → Prop}

theorem declare_cons {node : Node} {nodes : List Node} :
    Declare names (node :: nodes) ↔
      (∀ name, node.declared? = some name → names name) ∧ Declare names nodes :=
  List.forall_mem_cons

theorem declare_append {nodes nodes' : List Node} :
    Declare names (nodes ++ nodes') ↔ Declare names nodes ∧ Declare names nodes' :=
  List.forall_mem_append

theorem declaring_eval (line : Line) (e : Expr) : (eval line e).Heeds (.declaring names) :=
  (orderly_eval (fun _ => trivial) e).heeds_declaring

theorem declaring_setVariable {name : Text} (h : names name) (value : Value) :
    (setVariable name value).Heeds (.declaring names) :=
  fun w => w.declaresOnly_setVariable (.inl h) value

/-- An assignment to a name writes a variable that is there, or one whose name is free. -/
theorem declaring_assignName (name : Text) (value : Value) :
    (assignName name value).Heeds (.declaring names) := by
  refine heeds_look fun w => ?_
  split
  · next hwritten =>
    refine w.declaresOnly_setVariable (.inr ?_) value
    rw [Bool.or_eq_true, Bool.not_eq_true', Bool.or_eq_false_iff] at hwritten
    refine hwritten.imp_right fun hfree hreserved => ?_
    rcases hreserved with rfl | hcomponent
    · exact absurd hfree.1 (by decide)
    · rw [hcomponent] at hfree
      cases hfree.2
  · exact World.DeclaresOnly.refl w

theorem declaring_assign (line : Line) (target : Expr) (value : Value) :
    (assign line target value).Heeds (.declaring names) := by
  cases target with
  | ident name => exact declaring_assignName name value
  | _ => exact (orderly_assign (fun _ => trivial) _ value (by rintro _ ⟨⟩)).heeds_declaring

theorem declaring_goesOn : goesOn.Heeds (.declaring names) :=
  heeds_world.bind fun _ => heeds_pure _

theorem declaring_cappedLoop {σ : Type} (kind : LoopKind) (line : Line) {test : σ → Script Bool}
    {round : σ → Script (Option σ)} (htest : ∀ s, (test s).Heeds (.declaring names))
    (hround : ∀ s, (round s).Heeds (.declaring names)) (start : σ) :
    (cappedLoop kind line test round start).Heeds (.declaring names) := by
  intro w
  have hrunaway : (reportRunaway kind line).Heeds (.declaring names) :=
    heeds_world.bind fun _ => heeds_ask trivial
  exact Heeds.loop htest hround hrunaway _ start w

theorem declaring_forLoop (line : Line) {name : Text} (h : names name) (start stop step : Number)
    {body : Script Unit} (hbody : body.Heeds (.declaring names)) :
    (forLoop line name start stop step body).Heeds (.declaring names) := by
  have hadvance : ∀ counter, (advance name step counter).Heeds (.declaring names) := fun counter =>
    heeds_world.bind fun _ => (heeds_compute _).bind fun _ => heeds_pure _
  refine (declaring_setVariable h _).bind fun _ => ?_
  split
  · exact heeds_pure ()
  · refine declaring_cappedLoop _ _ (fun counter => ?_) (fun counter => ?_) start
    · split
      · exact declaring_goesOn
      · exact heeds_pure false
    · exact (declaring_setVariable h _).bind fun _ => hbody.bind fun _ =>
        (hadvance counter).bind fun _ => (declaring_setVariable h _).bind fun _ => heeds_pure _

theorem declaring_whileLoop (line : Line) (test : Expr) {body : Script Unit}
    (hbody : body.Heeds (.declaring names)) :
    (whileLoop line (eval line test) body).Heeds (.declaring names) := by
  refine declaring_cappedLoop _ _ (fun _ => ?_) (fun _ => ?_) ()
  · refine declaring_goesOn.bind fun more => ?_
    split
    · exact (declaring_eval line test).bind fun _ => heeds_pure _
    · exact heeds_pure false
  · exact hbody.bind fun _ => heeds_pure _

theorem declaring_doLoop (line : Line) {body : Script Unit} (hbody : body.Heeds (.declaring names))
    (test : Option Expr) (ending : Bool) :
    (doLoop line body (test.map (eval line)) ending).Heeds (.declaring names) := by
  refine declaring_cappedLoop _ _ (fun _ => declaring_goesOn) (fun _ => ?_) ()
  refine hbody.bind fun _ => ?_
  cases test with
  | none => exact heeds_pure _
  | some test => exact (declaring_eval line test).bind fun _ => heeds_pure _

mutual

theorem declaring_exec : ∀ s : Stmt, Declare names s.nodes → (exec s).Heeds (.declaring names)
  | .dim name typeName initial line, h => by
    rw [Stmt.nodes, declare_cons] at h
    have hname : names name := h.1 name rfl
    refine Heeds.onLine ?_ line
    cases initial with
    | some e => exact (declaring_eval line e).bind fun _ => declaring_setVariable hname _
    | none => exact declaring_setVariable hname _
  | .assign target value line, _ =>
    ((declaring_eval line value).bind fun v => declaring_assign line target v).onLine line
  | .call target args line, _ =>
    ((declaring_eval line (.call target args)).bind fun _ => heeds_pure ()).onLine line
  | .cond test body elseIfs otherwise line, h => by
    rw [Stmt.nodes, declare_cons, declare_append, declare_append, declare_append] at h
    obtain ⟨-, ⟨⟨-, hbody⟩, helseIfs⟩, hotherwise⟩ := h
    refine Heeds.onLine ((declaring_eval line test).bind fun v => ?_) line
    split
    · exact declaring_block body hbody
    · refine (declaring_firstBranch line elseIfs helseIfs).bind fun found => ?_
      split
      · exact heeds_pure ()
      · exact declaring_block otherwise hotherwise
  | .forLoop name start stop step body line, h => by
    rw [Stmt.nodes, declare_cons, declare_append] at h
    have hname : names name := h.1 name rfl
    have hbody := declaring_block body h.2.2
    refine Heeds.onLine ?_ line
    refine (declaring_eval line start).bind fun _ => (declaring_eval line stop).bind fun _ => ?_
    cases step with
    | some e =>
      exact (declaring_eval line e).bind fun _ => (heeds_pure _).bind fun _ =>
        declaring_forLoop line hname _ _ _ hbody
    | none => exact (heeds_pure _).bind fun _ => declaring_forLoop line hname _ _ _ hbody
  | .whileLoop test body line, h => by
    rw [Stmt.nodes, declare_cons, declare_append] at h
    exact (declaring_whileLoop line test (declaring_block body h.2.2)).onLine line
  | .doLoop body test ending testAtEnd line, h => by
    rw [Stmt.nodes, declare_cons, declare_append] at h
    exact (declaring_doLoop line (declaring_block body h.2.1) test ending).onLine line
  | .ret _ line, _ => (heeds_pure ()).onLine line
  | .exit _ line, _ => (heeds_pure ()).onLine line
  | .alien _, _ => (heeds_throw _).onLine none

theorem declaring_block : ∀ body : List Stmt, Declare names (blockNodes body) →
    (block body).Heeds (.declaring names)
  | [], _ => heeds_pure ()
  | s :: rest, h => by
    rw [blockNodes, declare_append] at h
    refine heeds_world.bind fun w => ?_
    split
    · exact heeds_pure ()
    · exact (declaring_exec s h.1).bind fun _ => declaring_block rest h.2

theorem declaring_firstBranch (line : Line) : ∀ clauses : List ElseIf,
    Declare names (elseIfNodes clauses) → (firstBranch line clauses).Heeds (.declaring names)
  | [], _ => heeds_pure false
  | clause :: rest, h => by
    rw [elseIfNodes, declare_append] at h
    refine (declaring_branch line clause h.1).bind fun found => ?_
    split
    · exact heeds_pure true
    · exact declaring_firstBranch line rest h.2

theorem declaring_branch (line : Line) : ∀ clause : ElseIf, Declare names clause.nodes →
    (branch line clause).Heeds (.declaring names)
  | .mk test body, h => by
    rw [ElseIf.nodes, declare_append] at h
    refine (declaring_eval line test).bind fun v => ?_
    split
    · exact (declaring_block body h.2).bind fun _ => heeds_pure true
    · exact heeds_pure false

end

/-- A block declares the variables that it names as counters or with `Dim`, and no others. -/
theorem heeds_declaring {body : List Stmt} (h : ∀ name ∈ declaredNames body, names name) :
    (block body).Heeds (.declaring names) :=
  declaring_block body fun node hnode name hname =>
    h name (List.mem_filterMap.2 ⟨node, hnode, hname⟩)

end Declarations

end Script

-- ════════════════════════════════════════════════════════════════════════════
-- Executions
-- ════════════════════════════════════════════════════════════════════════════

namespace Surroundings

variable {σ : Type}

/-- Whether nothing but handlers writes variables while scripts wait. -/
def SparesVariables (env : Surroundings σ) (handlers : Table (List Stmt)) : Prop :=
  ∀ {request w state w' state' reply}, env.Replies request w state w' state' reply →
    w.WritesOnly (handlerTargets handlers) w'

/-- Whether components stay while scripts wait, and nothing but handlers takes their names or that
of the form. -/
def SparesNames (env : Surroundings σ) (handlers : Table (List Stmt)) : Prop :=
  ∀ {request w state w' state' reply}, env.Replies request w state w' state' reply →
    w.DeclaresOnly (handlerNames handlers) w'

end Surroundings

section Hosts

variable {σ : Type} {host : Host σ} (hhost : host.Answers) (handlers : Table (List Stmt))

/-- A host that replies at once does nothing meanwhile but send its signals. -/
theorem Host.sparesVariables : (host.surroundings hhost).SparesVariables handlers := by
  rintro request w state w' state' reply ⟨sent, -, rfl⟩
  obtain ⟨stopped, paused, h⟩ := w.signals_eq sent
  rw [h]
  exact ⟨fun _ h => h, fun _ _ => rfl⟩

theorem Host.sparesNames : (host.surroundings hhost).SparesNames handlers := by
  rintro request w state w' state' reply ⟨sent, -, rfl⟩
  obtain ⟨stopped, paused, h⟩ := w.signals_eq sent
  rw [h]
  exact World.declaresOnly_of_eq rfl fun _ h => h

end Hosts

/-- Where only steps happen while scripts wait and the bodies of all handlers heed the manner, an
execution is a step. The induction is on the execution: a handler that is entered is one of its
own. -/
theorem Outcome.Heeds.step_of_settles {m : Manner} {α σ : Type} {env : Surroundings σ}
    {handlers : Table (List Stmt)}
    (henv : ∀ {request w state w' state' reply}, env.Replies request w state w' state' reply →
      m.step w w')
    (hbodies : ∀ key body, handlers.get? key = some body → (Script.block body).Heeds m)
    {stack : List Text} {o : Outcome α} {start w : World} {state state' : σ}
    {result : Except Fault α} (h : Settles env stack o state w state' result)
    (ho : o.Heeds m start) (htidy : o.Tidy start) (hstart : start.handlers = handlers) :
    m.step start w := by
  induction h generalizing start with
  | done | failed => exact ho
  | @asking _ _ left found _ request resume state state₁ _ reply _ hreply hrest ih =>
    obtain ⟨⟨before, hbefore, rfl⟩, hresume⟩ := htidy.of_asking
    have hfound : found.handlers = handlers := by
      rw [env.handlers hreply, ← hstart, ← hbefore.keep.2]
      rfl
    exact m.trans (m.trans ho.1 (henv hreply)) (ih (ho.2.2 _ _) (hresume _ _) hfound)
  | skipped _ _ ih =>
    obtain ⟨hcalled, hresume⟩ := htidy.of_calling
    exact m.trans ho.1 (ih (ho.2.2 _ _) (hresume _ _) (hcalled.keep.2.trans hstart))
  | @entered _ _ left found _ key body resume state state₁ _ _ _ hbody hrun _ ihrun ih =>
    obtain ⟨hcalled, hresume⟩ := htidy.of_calling
    have hleft : left.handlers = handlers := hcalled.keep.2.trans hstart
    have hfound : found.handlers = handlers :=
      (hrun.handlers (Script.tidy_block body left)).trans hleft
    have hget : handlers.get? key = some body := by
      unfold Turn.body? at hbody
      split at hbody
      · cases hbody
      · exact hleft ▸ hbody
    have hinside := ihrun (hbodies key body hget left) (Script.tidy_block body left) hleft
    exact m.trans (m.trans ho.1 hinside) (ih (ho.2.2 _ _) (hresume _ _) hfound)

section Executions

variable {σ : Type} {env : Surroundings σ} {stack : List Text} {body : List Stmt} {w w' : World}
  {state state' : σ} {result : Except Fault Unit}

theorem Outcome.Settles.writesOnly (henv : env.SparesVariables w.handlers)
    (h : Settles env stack (Script.block body w) state w' state' result) :
    w.WritesOnly (fun name => name ∈ blockTargets body ∨ handlerTargets w.handlers name) w' := by
  have hbodies : ∀ key handler, w.handlers.get? key = some handler →
      (Script.block handler).Heeds (.writing fun name =>
        name ∈ blockTargets body ∨ handlerTargets w.handlers name) :=
    fun key handler hget =>
      Script.heeds_writing fun name hname => .inr ⟨key, handler, hget, hname⟩
  exact Heeds.step_of_settles (fun hreply => (henv hreply).mono fun _ => .inr) hbodies h
    (Script.heeds_writing (fun _ => .inl) w) (Script.tidy_block body w) rfl

theorem Outcome.Settles.declaresOnly (henv : env.SparesNames w.handlers)
    (h : Settles env stack (Script.block body w) state w' state' result) :
    w.DeclaresOnly (fun name => name ∈ declaredNames body ∨ handlerNames w.handlers name) w' := by
  have hbodies : ∀ key handler, w.handlers.get? key = some handler →
      (Script.block handler).Heeds (.declaring fun name =>
        name ∈ declaredNames body ∨ handlerNames w.handlers name) :=
    fun key handler hget =>
      Script.heeds_declaring fun name hname => .inr ⟨key, handler, hget, hname⟩
  exact Heeds.step_of_settles (fun hreply => (henv hreply).mono fun _ => .inr) hbodies h
    (Script.heeds_declaring (fun _ => .inl) w) (Script.tidy_block body w) rfl

end Executions

namespace Script

/-- The form and the components keep their names: assigning to one has no effect, unless there is a
variable of that name already. -/
theorem assign_reserved {w : World} {name : Text} (hreserved : w.Reserves name)
    (hfree : w.globals.contains name = false) (line : Line) (value : Value) :
    assign line (.ident name) value w = .done w () := by
  have hname : (name == selfName || w.hasComponent name) = true := by
    rw [Bool.or_eq_true, beq_iff_eq]
    exact hreserved
  change (if w.globals.contains name || !(name == selfName || w.hasComponent name) then
    setVariable name value else pure () : Script Unit) w = _
  rw [hfree, hname, if_neg (by decide)]
  rfl

/-- Executing a block, in whatever world and however it ends, removes no variable, and it changes or
creates only variables that are named as targets in the block or in the body of a handler. A single
assignment creates no variable with the name of the form or of a component: it leaves the world as it
is. In a whole execution, such a variable comes only from a declaration. -/
theorem block_writes_targets {σ : Type} {env : Surroundings σ} {stack : List Text}
    {body : List Stmt} {w w' : World} {state state' : σ} {result : Except Fault Unit}
    (henv : env.SparesVariables w.handlers)
    (h : Outcome.Settles env stack (block body w) state w' state' result) :
    (∀ name, w.globals.contains name = true → w'.globals.contains name = true) ∧
      (∀ name, w'.globals.get? name ≠ w.globals.get? name →
        name ∈ blockTargets body ∨ handlerTargets w.handlers name) ∧
      (∀ u name, u.Reserves name → u.globals.contains name = false → ∀ line value,
        assign line (.ident name) value u = .done u ()) ∧
      (env.SparesNames w.handlers → ∀ name, w.Reserves name → w.globals.contains name = false →
        w'.globals.contains name = true →
          name ∈ declaredNames body ∨ handlerNames w.handlers name) := by
  have hwrites := h.writesOnly henv
  refine ⟨hwrites.kept, fun name hchanged => ?_,
    fun u name hreserved hfree => assign_reserved hreserved hfree,
    fun hnames name hreserved hfree hcreated => ?_⟩
  · exact Classical.byContradiction fun hname => hchanged (hwrites.unwritten name hname)
  · refine Classical.byContradiction fun hname => ?_
    rw [(h.declaresOnly hnames).undeclared name hname hreserved hfree] at hcreated
    cases hcreated

/-- A box, a variable, and a handler that sets another variable. -/
def fillableBox : World where
  components := [(.text "Box", { name := .text "Box", typeName := .text "TextBox" })]
  globals := .ofList [("count", .int 7)]
  handlers := .ofList [("Fill", [.assign (.ident "filled") (.number (.int 1)) (.ofNat 1)])]

/-- Runs the handler and assigns to the name of the box. -/
def fillAndAssign : List Stmt :=
  [.call (.ident "Fill") [] (.ofNat 1), .assign (.ident "Box") (.number (.int 2)) (.ofNat 2)]

theorem handlerNames_fillableBox (name : Text) : ¬ handlerNames fillableBox.handlers name := by
  rintro ⟨key, body, hget, hname⟩
  have hhandlers : fillableBox.handlers =
    Table.empty.set "Fill" [.assign (.ident "filled") (.number (.int 1)) (.ofNat 1)] := rfl
  rw [hhandlers, Table.get?_set, Table.get?_empty] at hget
  split at hget
  · cases hget
    cases hname
  · cases hget

/-- The variable is there, the handler has set its own, and the box still has no variable. -/
theorem block_writes_targets_fillableBox :
    ∃ w', Outcome.Settles (Rehearsal.silentHost.surroundings Rehearsal.answers_silentHost) []
        (block fillAndAssign fillableBox) unprepared w' unprepared (.ok ()) ∧
      w'.globals.contains "count" = true ∧
      (w'.globals.get? "filled" ≠ fillableBox.globals.get? "filled" ∧
        (("filled" : Text) ∈ blockTargets fillAndAssign ∨
          handlerTargets fillableBox.handlers "filled")) ∧
      (fillableBox.Reserves "Box" ∧
        assign (.ofNat 2) (.ident "Box") (.int 2) fillableBox = .done fillableBox ()) ∧
      w'.globals.contains "Box" = false := by
  have hbox : fillableBox.Reserves "Box" := .inr rfl
  have hrun : Outcome.Settles (Rehearsal.silentHost.surroundings Rehearsal.answers_silentHost) []
      (block fillAndAssign fillableBox) unprepared (fillableBox.setVariable "filled" (.int 1))
      unprepared (.ok ()) :=
    .entered rfl (.done _ _ _) (.done _ _ _)
  obtain ⟨hkept, hchanged, hassign, hcreated⟩ :=
    block_writes_targets (Host.sparesVariables _ _) hrun
  have hfilled : (fillableBox.setVariable "filled" (.int 1)).globals.get? "filled" ≠
    fillableBox.globals.get? "filled" := nofun
  refine ⟨_, hrun, hkept "count" rfl, ⟨hfilled, hchanged "filled" hfilled⟩,
    ⟨hbox, hassign fillableBox "Box" hbox rfl _ _⟩, Bool.eq_false_iff.2 fun hfound => ?_⟩
  rcases hcreated (Host.sparesNames _ _) "Box" hbox rfl hfound with hname | hname
  · cases hname
  · exact handlerNames_fillableBox _ hname

end Script

end FormBasic
