import FormBasic.Proofs.Script.Footprint
import FormBasic.Proofs.Script.Histories

/-!
# Independent blocks

Two simple blocks neither of which writes a name that the other one mentions can change places: the
variables and the components end up the same, and each of the blocks asks the host for the same. The
host has to leave the session going on. A host that stops or pauses it when it is told of a property
decides by this how far either block gets.

Two things are proved together of every part of a simple block: run in two worlds that look alike to
it, it does the same, and it changes nothing but what it writes.

## Main definitions

* `Outcome.Alike`, `Script.Alike` - what does the same in worlds that look alike

## Main statements

* `Script.alike_eval`, `Script.same_block` - simple expressions and blocks do the same in worlds
  that look alike
* `Script.blocks_commute` - independent blocks can change places
-/

namespace FormBasic

namespace Script

/-- A property that was written is stored, and at most the timers change besides. -/
theorem ends_setProperty {component name key : Text} {value : Value} {w w' : World}
    {requests : List Request} (hw : w.halted = false)
    (h : (setProperty component name value w).Ends Exchange.GoesOn requests w' key) :
    ∃ c timers, w.componentNamed? component = some c ∧ key = canonicalProperty name ∧
      requests = [.propertyChanged component key value] ∧
      w' = w.propertyWritten component (c.store name value) timers := by
  have hstore := ends_look.1 h
  cases hc : w.componentNamed? component with
  | none =>
    simp only [World.storeProperty, hc] at hstore
    exact absurd hstore Outcome.not_ends_failed
  | some c =>
    simp only [World.storeProperty, hc] at hstore
    obtain ⟨_, _, _, _, rfl, hask, hlook⟩ := ends_bind.1 (ends_enter.1 hstore)
    have hwritten : (w.propertyWritten component (c.store name value) w.timers).halted = false := hw
    obtain ⟨rfl, rfl⟩ := ends_ask hwritten hask
    have hdrives := ends_look.1 hlook
    split at hdrives
    · -- the timer is brought in line, which only registers or cancels its loop
      obtain ⟨_, _, w₁, _, rfl, hsynchronize, hreturn⟩ := ends_bind.1 hdrives
      obtain ⟨rfl, rfl, rfl⟩ := Outcome.ends_done.1 hreturn
      rw [synchronize_apply] at hsynchronize
      split at hsynchronize
      · next hsync =>
        obtain ⟨rfl, rfl, -⟩ := Outcome.ends_done.1 hsynchronize
        refine ⟨c, w'.timers, rfl, rfl, rfl, ?_⟩
        obtain ⟨rfl, -⟩ | ⟨_, -, -, ⟨-, -, rfl⟩ | ⟨-, -, rfl⟩⟩ := World.synchronize_cases hsync <;>
          rfl
      · exact absurd hsynchronize Outcome.not_ends_failed
    · obtain ⟨rfl, rfl, rfl⟩ := Outcome.ends_done.1 hdrives
      exact ⟨c, _, rfl, rfl, rfl, rfl⟩

end Script

-- ════════════════════════════════════════════════════════════════════════════
-- Doing the same
-- ════════════════════════════════════════════════════════════════════════════

variable {α β σ : Type} {S : Scope} {Q : α → Prop} {R : β → Prop}

/-- Whether two runs, one from each of two worlds, do the same if both end: they end with the same
value, which is of some sort, after the same requests, in worlds that look alike again, and change
nothing but what may be written. -/
def Outcome.Alike (S : Scope) (Q : α → Prop) (w v : World) (o p : Outcome α) : Prop :=
  ∀ ⦃requests requests' : List Request⦄ ⦃w' v' : World⦄ ⦃a b : α⦄,
    o.Ends Exchange.GoesOn requests w' a → p.Ends Exchange.GoesOn requests' v' b →
      b = a ∧ Q a ∧ requests' = requests ∧ S.Agree w' v' ∧ S.Keeps w w' ∧ S.Keeps v v'

/-- Whether a script does the same in any two worlds that look alike. -/
def Script.Alike (S : Scope) (Q : α → Prop) (m : Script α) : Prop :=
  ∀ w v, S.Agree w v → Outcome.Alike S Q w v (m w) (m v)

/-- Scripts that do the same in any two worlds that look alike, whatever they end with. -/
abbrev Script.Same (S : Scope) (m : Script α) : Prop := m.Alike S fun _ => True

namespace Script

theorem alike_pure {a : α} (ha : Q a) : (pure a : Script α).Alike S Q := by
  intro w v h requests requests' w' v' b b' hends hends'
  obtain ⟨rfl, rfl, rfl⟩ := Outcome.ends_done.1 hends
  obtain ⟨rfl, rfl, rfl⟩ := Outcome.ends_done.1 hends'
  exact ⟨rfl, ha, rfl, h, .refl S _, .refl S _⟩

theorem same_pure (a : α) : (pure a : Script α).Same S := alike_pure trivial

theorem alike_throw (fault : Fault) : (throw fault : Script α).Alike S Q :=
  fun _ _ _ _ _ _ _ _ _ hends _ => absurd hends Outcome.not_ends_failed

theorem alike_lift {result : Except Fault α} (h : ∀ a, result = .ok a → Q a) :
    (lift result).Alike S Q := by
  cases result with
  | ok a => exact alike_pure (h a rfl)
  | error fault => exact alike_throw fault

theorem same_compute (result : Except Refusal α) : (compute result).Same S :=
  alike_lift fun _ _ => trivial

theorem same_ask {request : Request} (hreply : ∀ a b : request.Reply, b = a) :
    (ask request).Same S := by
  intro w v h requests requests' w' v' a b hends hends'
  obtain ⟨rfl, rfl⟩ := ends_ask h.left.goesOn hends
  obtain ⟨rfl, rfl⟩ := ends_ask h.right.goesOn hends'
  exact ⟨hreply a b, trivial, rfl, h, .refl S _, .refl S _⟩

theorem same_report (message : Text) (line : Line) : (report message line).Same S :=
  same_ask fun _ _ => rfl

/-- A sequence does the same when its parts do. -/
theorem Alike.bind {m : Script α} (hm : m.Alike S Q) {f : α → Script β}
    (hf : ∀ a, Q a → (f a).Alike S R) : (m >>= f).Alike S R := by
  intro w v h requests requests' w' v' b b' hends hends'
  obtain ⟨first, second, w₁, a, rfl, hfirst, hsecond⟩ := ends_bind.1 hends
  obtain ⟨first', second', v₁, a', rfl, hfirst', hsecond'⟩ := ends_bind.1 hends'
  obtain ⟨rfl, ha, rfl, hagree, hkeeps, hkeeps'⟩ := hm w v h hfirst hfirst'
  obtain ⟨rfl, hb, rfl, hagree, hkeeps₁, hkeeps₁'⟩ := hf _ ha w₁ v₁ hagree hsecond hsecond'
  exact ⟨rfl, hb, rfl, hagree, hkeeps.trans hkeeps₁, hkeeps'.trans hkeeps₁'⟩

theorem Same.bind {m : Script α} (hm : m.Same S) {f : α → Script β} (hf : ∀ a, (f a).Alike S R) :
    (m >>= f).Alike S R :=
  Alike.bind hm fun a _ => hf a

theorem Alike.same {m : Script α} (hm : m.Alike S Q) : m.Same S := by
  intro w v h requests requests' w' v' a b hends hends'
  obtain ⟨rfl, -, hrest⟩ := hm w v h hends hends'
  exact ⟨rfl, trivial, hrest⟩

/-- What a script goes on with after looking at the world only matters in that world. -/
theorem alike_look {f : World → Script α}
    (h : ∀ w v, S.Agree w v → Outcome.Alike S Q w v (f w w) (f v v)) :
    (world >>= f).Alike S Q := h

theorem same_goesOn : goesOn.Same S := by
  refine alike_look fun w v h => ?_
  rw [h.left.goesOn, h.right.goesOn]
  exact same_pure _ w v h

theorem same_setVariable {name : Text} (hname : S.writes name) {value : Value}
    (hvalue : value.Plain) : (setVariable name value).Same S := by
  intro w v h requests requests' w' v' a b hends hends'
  obtain ⟨rfl, rfl, rfl⟩ := Outcome.ends_done.1 hends
  obtain ⟨rfl, rfl, rfl⟩ := Outcome.ends_done.1 hends'
  exact ⟨rfl, trivial, rfl, h.setVariable name hvalue, .setVariable w hname value,
    .setVariable v hname value⟩

/-- A capped loop does the same when its rounds do. -/
theorem Same.loop {test : σ → Script Bool} {round : σ → Script (Option σ)} {runaway : Script Unit}
    (htest : ∀ s, (test s).Same S) (hround : ∀ s, (round s).Same S) (hrunaway : runaway.Same S)
    (cap : Nat) (s : σ) : Script.Same S (loop test round runaway cap s) := by
  induction cap generalizing s with
  | zero =>
    refine (htest s).bind fun more => ?_
    cases more with
    | true => exact hrunaway
    | false => exact same_pure ()
  | succ cap ih =>
    rw [loop_succ]
    have hfirst : ((do if ← test s then round s else pure none) : Script (Option σ)).Same S := by
      refine (htest s).bind fun more => ?_
      cases more with
      | true => exact hround s
      | false => exact same_pure none
    refine hfirst.bind fun next => ?_
    cases next with
    | some s => exact ih s
    | none => exact same_pure ()

theorem same_cappedLoop (kind : LoopKind) (line : Line) {test : σ → Script Bool}
    {round : σ → Script (Option σ)} (htest : ∀ s, (test s).Same S) (hround : ∀ s, (round s).Same S)
    (start : σ) : (cappedLoop kind line test round start).Same S := by
  have hrunaway : (reportRunaway kind line).Same S := by
    refine alike_look fun w v h => ?_
    rw [h.config]
    exact same_report _ _ w v h
  intro w v h
  unfold cappedLoop
  rw [h.config]
  exact Same.loop htest hround hrunaway _ start w v h

-- ════════════════════════════════════════════════════════════════════════════
-- Expressions
-- ════════════════════════════════════════════════════════════════════════════

theorem alike_applyArithmetic (line : Line) (op : BinaryOp)
    (f : Number → Number → Except Refusal Number) (left right : Value) :
    (applyArithmetic line op f left right).Alike S Value.Plain := by
  unfold applyArithmetic
  simp only
  split
  · exact (same_report _ _).bind fun _ => alike_pure (.int 0)
  · split
    · exact alike_pure (Value.plain_ofNumber _)
    · exact (same_report _ _).bind fun _ => alike_pure (.int 0)

theorem alike_applyBinary (line : Line) (op : BinaryOp) (left right : Value) :
    (applyBinary line op left right).Alike S Value.Plain := by
  unfold applyBinary
  split
  · exact alike_applyArithmetic _ _ _ _ _
  · split
    · exact (same_compute _).bind fun _ => (same_compute _).bind fun _ => alike_pure (.text _)
    all_goals first | exact alike_pure (.bool _) | exact alike_throw _

theorem alike_applyUnary (line : Line) (op : UnaryOp) (operand : Value) :
    (applyUnary line op operand).Alike S Value.Plain := by
  cases op with
  | neg => exact alike_pure (Value.plain_ofNumber _)
  | not => exact alike_pure (.bool _)
  | unknown text => exact alike_throw _

/-- A member of a plain value is read without a look at the world. -/
theorem alike_readMember {owner : Value} (h : owner.Plain) (name : Text) :
    (readMember owner name).Alike S Value.Plain := by
  cases h with
  | text s =>
    unfold readMember
    simp only
    split
    · next hproperty =>
      refine alike_lift fun value hvalue => ?_
      cases hcall : Library.callMethod s name [] with
      | error refusal =>
        rw [hcall] at hvalue
        cases hvalue
      | ok value' =>
        rw [hcall] at hvalue
        cases hvalue
        exact Value.plain_textProperty hproperty hcall
    · exact alike_pure .nothing
  | list hitems =>
    unfold readMember
    simp only
    split
    · exact alike_pure (.int _)
    · exact alike_pure .nothing
  | dict hentries => exact alike_pure (Value.plain_entryNamed hentries name)
  | _ => exact alike_pure .nothing

theorem alike_evalMember {object : Expr} (hobject : ∀ node ∈ object.nodes, S.Admits node)
    (name : Text) {value : Script Value} (hvalue : value.Alike S Value.Plain) :
    (evalMember object name value).Alike S Value.Plain := by
  refine alike_look fun w v h => ?_
  have hsimple : ∀ node ∈ object.nodes, node.isSimple = true :=
    fun node hnode => (hobject node hnode).simple
  rw [h.left.component?_eq hsimple, h.right.component?_eq hsimple]
  cases howner : object.owner? S.isComponent with
  | some component =>
    have hmentions : S.mentions component := by
      cases object with
      | ident owner =>
        simp only [Expr.owner?, Option.ite_none_right_eq_some] at howner
        obtain ⟨-, heq⟩ := howner
        cases heq
        exact (hobject _ (List.mem_singleton_self _)).mentions _ rfl
      | _ => cases howner
    simp only [← h.property_eq hmentions]
    exact alike_lift (fun a ha => h.left.plain.property ha) w v h
  | none =>
    simp only [← h.staticClass?_eq hobject]
    cases w.staticClass? object with
    | some className => exact alike_pure (Value.plain_classConstant _ _) w v h
    | none => exact hvalue.bind (fun owner howner => alike_readMember howner name) w v h

/-- A simple expression does the same in worlds that look alike, and has a plain value. -/
theorem alike_eval (line : Line) : ∀ e : Expr, (∀ node ∈ e.nodes, S.Admits node) →
    (eval line e).Alike S Value.Plain
  | .number n, _ => alike_pure (Value.plain_ofNumber n)
  | .string s, _ => alike_pure (.text s)
  | .boolean b, _ => alike_pure (.bool b)
  | .nothing, _ => alike_pure .nothing
  | .ident name, h => by
    have hname := (h _ (List.mem_singleton_self _)).mentions name rfl
    refine alike_look fun w v hagree => ?_
    rw [← hagree.identifier_eq hname]
    exact alike_pure (hagree.left.plain.identifier name) w v hagree
  | .member object name, h => by
    simp only [Expr.nodes, List.forall_mem_cons] at h
    exact alike_evalMember h.2 name (alike_eval line object h.2)
  | .index object key, h => by
    have hindex := (h _ List.mem_cons_self).simple
    cases hindex
  | .call target args, h => by
    have hcall := (h _ List.mem_cons_self).simple
    cases hcall
  | .binary op left right, h => by
    simp only [Expr.nodes, List.forall_mem_cons, List.forall_mem_append] at h
    exact (alike_eval line left h.2.1).same.bind fun l =>
      (alike_eval line right h.2.2).same.bind fun r => alike_applyBinary line op l r
  | .unary op operand, h => by
    simp only [Expr.nodes, List.forall_mem_cons] at h
    exact (alike_eval line operand h.2).same.bind fun value => alike_applyUnary line op value
  | .alien kind, _ => alike_throw _

-- ════════════════════════════════════════════════════════════════════════════
-- Statements
-- ════════════════════════════════════════════════════════════════════════════

theorem same_setProperty {component : Text} (hmentions : S.mentions component)
    (hwrites : S.writes component) (name : Text) {value : Value} (hvalue : value.Plain) :
    (setProperty component name value).Same S := by
  intro w v h requests requests' w' v' key key' hends hends'
  obtain ⟨c, timers, hc, rfl, rfl, rfl⟩ := ends_setProperty h.left.goesOn hends
  obtain ⟨c', timers', hc', rfl, rfl, rfl⟩ := ends_setProperty h.right.goesOn hends'
  have hsame : c' = c := by
    rw [h.componentNamed?_eq hmentions, hc'] at hc
    exact Option.some.inj hc
  subst hsame
  have hcomponent : w.hasComponent component = true := by
    rw [World.hasComponent, hc, Option.isSome_some]
  have hplain := (h.left.plain.components component c' hc).store name hvalue
  exact ⟨rfl, trivial, rfl, h.propertyWritten hcomponent hplain timers timers',
    .propertyWritten w hwrites _ timers, .propertyWritten v hwrites _ timers'⟩

theorem same_assignName {name : Text} (hmentions : S.mentions name) (hwrites : S.writes name)
    {value : Value} (hvalue : value.Plain) : (assignName name value).Same S := by
  refine alike_look fun w v h => ?_
  rw [Table.contains, Table.contains, ← h.globals name hmentions, h.left.components,
    h.right.components]
  split
  · exact same_setVariable hwrites hvalue w v h
  · exact same_pure () w v h

/-- An assignment does the same in worlds that look alike. -/
theorem same_assign (line : Line) {target value : Expr} {assigned : Line}
    (htarget : ∀ node ∈ target.nodes, S.Admits node)
    (hassign : S.Admits (.stmt (.assign target value assigned))) {result : Value}
    (hresult : result.Plain) : (assign line target result).Same S := by
  cases target with
  | ident name =>
    exact same_assignName (hassign.mentions name rfl) (hassign.writes name rfl) hresult
  | member object name =>
    simp only [Expr.nodes, List.forall_mem_cons] at htarget
    have hsimple : ∀ node ∈ object.nodes, node.isSimple = true :=
      fun node hnode => (htarget.2 node hnode).simple
    refine alike_look fun w v h => ?_
    rw [h.left.component?_eq hsimple, h.right.component?_eq hsimple]
    cases howner : object.owner? S.isComponent with
    | some component =>
      have hwrites : S.writes component := hassign.writes component howner
      have hmentions : S.mentions component :=
        hassign.mentions component (Node.mentioned?_of_written? howner)
      exact ((same_setProperty hmentions hwrites name hresult).bind fun _ => same_pure ()) w v h
    | none =>
      refine ((alike_eval line object htarget.2).bind fun owner howner => ?_) w v h
      cases howner <;> exact same_pure ()
  | _ => exact same_pure ()

theorem same_advance {name : Text} (hmentions : S.mentions name) (step counter : Number) :
    (advance name step counter).Same S := by
  refine alike_look fun w v h => ?_
  simp only [← h.globals name hmentions]
  exact ((same_compute _).bind fun _ => same_pure _) w v h

theorem same_forLoop (line : Line) {name : Text} (hmentions : S.mentions name)
    (hwrites : S.writes name) (start stop step : Number) {body : Script Unit}
    (hbody : body.Same S) : (forLoop line name start stop step body).Same S := by
  have hset : ∀ n : Number, (setVariable name (.ofNumber n)).Same S :=
    fun n => same_setVariable hwrites (Value.plain_ofNumber n)
  refine (hset start).bind fun _ => ?_
  split
  · exact same_pure ()
  · refine same_cappedLoop _ _ (fun counter => ?_) (fun counter => ?_) start
    · split
      · exact same_goesOn
      · exact same_pure false
    · exact (hset counter).bind fun _ => hbody.bind fun _ =>
        (same_advance hmentions step counter).bind fun next => (hset next).bind fun _ => same_pure _

theorem same_whileLoop (line : Line) {condition : Script Value} {body : Script Unit}
    (hcondition : condition.Same S) (hbody : body.Same S) :
    (whileLoop line condition body).Same S := by
  refine same_cappedLoop _ _ (fun _ => ?_) (fun _ => ?_) ()
  · refine same_goesOn.bind fun more => ?_
    split
    · exact hcondition.bind fun _ => same_pure _
    · exact same_pure false
  · exact hbody.bind fun _ => same_pure _

theorem same_doLoop (line : Line) {body : Script Unit} {condition : Option (Script Value)}
    (hbody : body.Same S) (hcondition : ∀ c ∈ condition, c.Same S) (ending : Bool) :
    (doLoop line body condition ending).Same S := by
  refine same_cappedLoop _ _ (fun _ => same_goesOn) (fun _ => ?_) ()
  refine hbody.bind fun _ => ?_
  cases condition with
  | none => exact same_pure _
  | some c => exact (hcondition c rfl).bind fun _ => same_pure _

theorem Same.onLine {m : Script Unit} (hm : m.Same S) (line : Line) : (onLine line m).Same S := by
  intro w v h
  have hstopped : ∀ {w : World}, S.Fits w → w.stopped = false :=
    fun hw => (Bool.or_eq_false_iff.1 hw.goesOn).1
  rw [onLine_apply, onLine_apply, hstopped h.left, hstopped h.right]
  intro requests requests' w' v' a b hends hends'
  exact hm w v h (ends_mapFault.1 hends) (ends_mapFault.1 hends')

mutual

theorem same_exec : ∀ s : Stmt, (∀ node ∈ s.nodes, S.Admits node) → (exec s).Same S
  | .dim name typeName initial line, h => by
    have hname : S.writes name := (h _ List.mem_cons_self).writes name rfl
    refine Same.onLine ?_ line
    cases initial with
    | none => exact same_setVariable hname (Value.plain_initialValue typeName)
    | some e =>
      simp only [Stmt.nodes, optionalNodes, List.forall_mem_cons] at h
      exact (alike_eval line e h.2).bind fun value hvalue => same_setVariable hname hvalue
  | .assign target value line, h => by
    simp only [Stmt.nodes, List.forall_mem_cons, List.forall_mem_append] at h
    refine Same.onLine ?_ line
    exact (alike_eval line value h.2.2).bind fun result hresult =>
      same_assign line h.2.1 h.1 hresult
  | .call target args line, h => by
    have hcall := (h _ List.mem_cons_self).simple
    cases hcall
  | .cond test body elseIfs otherwise line, h => by
    simp only [Stmt.nodes, List.forall_mem_cons, List.forall_mem_append] at h
    obtain ⟨-, ⟨⟨htest, hbody⟩, helseIfs⟩, hotherwise⟩ := h
    refine Same.onLine ?_ line
    refine (alike_eval line test htest).same.bind fun value => ?_
    split
    · exact same_block body hbody
    · refine (same_firstBranch line elseIfs helseIfs).bind fun found => ?_
      split
      · exact same_pure ()
      · exact same_block otherwise hotherwise
  | .forLoop name start stop step body line, h => by
    have hname := h _ List.mem_cons_self
    simp only [Stmt.nodes, List.forall_mem_cons, List.forall_mem_append] at h
    obtain ⟨-, ⟨⟨hstart, hstop⟩, hstep⟩, hbody⟩ := h
    have hloop : ∀ start stop step : Number,
        (forLoop line name start stop step (block body)).Same S := fun start stop step =>
      same_forLoop line (hname.mentions name rfl) (hname.writes name rfl) start stop step
        (same_block body hbody)
    refine Same.onLine ?_ line
    refine (alike_eval line start hstart).same.bind fun _ => ?_
    refine (alike_eval line stop hstop).same.bind fun _ => ?_
    cases step with
    | none => exact (same_pure _).bind fun _ => hloop _ _ _
    | some e =>
      exact (alike_eval line e hstep).same.bind fun _ => (same_pure _).bind fun _ => hloop _ _ _
  | .whileLoop test body line, h => by
    simp only [Stmt.nodes, List.forall_mem_cons, List.forall_mem_append] at h
    refine Same.onLine ?_ line
    exact same_whileLoop line (alike_eval line test h.2.1).same (same_block body h.2.2)
  | .doLoop body test ending _ line, h => by
    simp only [Stmt.nodes, List.forall_mem_cons, List.forall_mem_append] at h
    refine Same.onLine (same_doLoop line (same_block body h.2.1) ?_ ending) line
    intro c hc
    obtain ⟨e, rfl, rfl⟩ := Option.map_eq_some_iff.1 hc
    exact (alike_eval line e h.2.2).same
  | .ret _ line, _ => (same_pure ()).onLine line
  | .exit _ line, _ => (same_pure ()).onLine line
  | .alien _, _ => Same.onLine (alike_throw _) none

/-- A simple block does the same in worlds that look alike, and changes nothing but what it
writes. -/
theorem same_block : ∀ ss : List Stmt, (∀ node ∈ blockNodes ss, S.Admits node) →
    (block ss).Same S
  | [], _ => same_pure ()
  | s :: ss, h => by
    simp only [blockNodes, List.forall_mem_append] at h
    intro w v hagree
    rw [block_cons_apply, block_cons_apply, hagree.left.goesOn, hagree.right.goesOn]
    exact ((same_exec s h.1).bind fun _ => same_block ss h.2) w v hagree

theorem same_firstBranch (line : Line) : ∀ clauses : List ElseIf,
    (∀ node ∈ elseIfNodes clauses, S.Admits node) → (firstBranch line clauses).Same S
  | [], _ => same_pure false
  | clause :: rest, h => by
    simp only [elseIfNodes, List.forall_mem_append] at h
    refine (same_branch line clause h.1).bind fun found => ?_
    split
    · exact same_pure true
    · exact same_firstBranch line rest h.2

theorem same_branch (line : Line) : ∀ clause : ElseIf,
    (∀ node ∈ clause.nodes, S.Admits node) → (branch line clause).Same S
  | .mk test body, h => by
    simp only [ElseIf.nodes, List.forall_mem_append] at h
    refine (alike_eval line test h.1).same.bind fun value => ?_
    split
    · exact (same_block body h.2).bind fun _ => same_pure true
    · exact same_pure false

end

-- ════════════════════════════════════════════════════════════════════════════
-- Changing places
-- ════════════════════════════════════════════════════════════════════════════

/-- Two steps in either order: each of them keeps what it does not write, and gets what it mentions
to the same whether or not the other one went before. -/
theorem crosswise {γ : Type} {x x₁ x₂ y₁ y₂ : γ} {writes mentions writes' mentions' : Prop}
    (hmentions : writes → mentions) (hmentions' : writes' → mentions')
    (hapart : writes' → ¬ mentions) (hfirst : ¬ writes → x₁ = x) (hsecond : ¬ writes' → x₂ = x₁)
    (hfirst' : ¬ writes' → y₁ = x) (hsecond' : ¬ writes → y₂ = y₁) (hsame : mentions → x₁ = y₂)
    (hsame' : mentions' → y₁ = x₂) : y₂ = x₂ := by
  by_cases h : mentions
  · have hkept' : ¬ writes' := fun hwrites => hapart hwrites h
    exact (hsame h).symm.trans (hsecond hkept').symm
  · have hkept : ¬ writes := fun hwrites => h (hmentions hwrites)
    by_cases h' : mentions'
    · exact (hsecond' hkept).trans (hsame' h')
    · have hkept' : ¬ writes' := fun hwrites => h' (hmentions' hwrites)
      calc
        y₂ = y₁ := hsecond' hkept
        _ = x := hfirst' hkept'
        _ = x₁ := (hfirst hkept).symm
        _ = x₂ := (hsecond hkept').symm

/-- Two simple blocks, neither of which writes a name that the other one mentions, can change places
in a session that goes on and holds no data access object: if both orders end, and the host leaves
the session going on, then the variables and the components are the same, and each block has made
the same requests. -/
theorem blocks_commute {A B : List Stmt} (hA : IsSimple A) (hB : IsSimple B) {w : World}
    (hgoes : w.halted = false) (hplain : w.Plain)
    (hAB : ∀ name ∈ writtenNames w.hasComponent A, name ∉ mentionedNames B)
    (hBA : ∀ name ∈ writtenNames w.hasComponent B, name ∉ mentionedNames A)
    {a b a' b' : List Request} {w₁ w₂ v₁ v₂ : World}
    (h₁ : (block A w).Ends Exchange.GoesOn a w₁ ()) (h₂ : (block B w₁).Ends Exchange.GoesOn b w₂ ())
    (h₁' : (block B w).Ends Exchange.GoesOn b' v₁ ())
    (h₂' : (block A v₁).Ends Exchange.GoesOn a' v₂ ()) :
    (∀ name, v₂.globals.get? name = w₂.globals.get? name) ∧
      (∀ key, v₂.components.get? key = w₂.components.get? key) ∧ a' = a ∧ b' = b := by
  let S := Scope.ofBlock w.hasComponent A
  let T := Scope.ofBlock w.hasComponent B
  have hsame : (block A).Same S := same_block A (Scope.admits_ofBlock _ hA)
  have hsame' : (block B).Same T := same_block B (Scope.admits_ofBlock _ hB)
  have hfits : S.Fits w := ⟨hgoes, hplain, fun _ => rfl⟩
  have hfits' : T.Fits w := ⟨hgoes, hplain, fun _ => rfl⟩
  -- what each block does when it goes first
  obtain ⟨-, -, -, hafter, hfirst, -⟩ := hsame w w (.refl hfits) h₁ h₁
  obtain ⟨-, -, -, hafter', hfirst', -⟩ := hsame' w w (.refl hfits') h₁' h₁'
  -- the block that goes second does as if it had gone first
  have hblind : T.Agree w w₁ := hfirst.agree hfits' (hafter.left.congr rfl) hAB
  obtain ⟨-, -, rfl, hagree', -, hsecond⟩ := hsame' w w₁ hblind h₁' h₂
  have hblind' : S.Agree w v₁ := hfirst'.agree hfits (hafter'.left.congr rfl) hBA
  obtain ⟨-, -, rfl, hagree, -, hsecond'⟩ := hsame w v₁ hblind' h₁ h₂'
  have hmentions : ∀ name, S.writes name → S.mentions name :=
    fun _ => mentionedNames_of_writtenNames
  have hmentions' : ∀ name, T.writes name → T.mentions name :=
    fun _ => mentionedNames_of_writtenNames
  refine ⟨fun name => ?_, fun key => ?_, rfl, rfl⟩
  · exact crosswise (hmentions name) (hmentions' name) (hBA name) (hfirst.globals name)
      (hsecond.globals name) (hfirst'.globals name) (hsecond'.globals name)
      (hagree.globals name) (hagree'.globals name)
  · have hapart : Scope.IsKey T.writes key → ¬ Scope.IsKey S.mentions key := by
      rintro ⟨name, hname, rfl⟩ hkey
      exact hBA name hname (Scope.isKey_text.1 hkey)
    exact crosswise (.mono hmentions) (.mono hmentions') hapart (hfirst.components key)
      (hsecond.components key) (hfirst'.components key) (hsecond'.components key)
      (hagree.components key) (hagree'.components key)

/-- A world with a text box. -/
def oneBox : World where
  components := [(.text "P", { name := .text "P", typeName := .text "TextBox" })]

/-- A block that fills the text box. -/
def filling : List Stmt := [.assign (.member (.ident "P") "Text") (.string "a") (.ofNat 1)]

/-- A block that sets a variable. -/
def setting : List Stmt := [.assign (.ident "x") (.number (.int 1)) (.ofNat 1)]

/-- A world with its text box filled. -/
def filled (w : World) : World :=
  w.propertyWritten "P"
    { name := .text "P", typeName := .text "TextBox", properties := [(.text "text", .text "a")] }
    w.timers

/-- What the block that fills the text box asks, and what a host's signals do meanwhile. -/
def fillingBox (w : World) (sent : List Signal) : Exchange :=
  .asked (.propertyChanged "P" "text" (.text "a")) (filled w) ((filled w).signals sent) (.ok ())

theorem plain_oneBox : oneBox.Plain where
  globals name value h := by cases h
  components name c h := by
    obtain ⟨e, he, rfl⟩ := Entries.exists_mem_of_get? h
    obtain rfl := List.mem_singleton.1 he
    exact fun e he => absurd he List.not_mem_nil

/-- Filling the text box and setting a variable can change places. -/
theorem blocks_commute_fillingAndSetting :
    IsSimple filling ∧ IsSimple setting ∧ oneBox.halted = false ∧ oneBox.Plain ∧
    (∀ name ∈ writtenNames oneBox.hasComponent filling, name ∉ mentionedNames setting) ∧
    (∀ name ∈ writtenNames oneBox.hasComponent setting, name ∉ mentionedNames filling) ∧
    ∃ a b a' b' w₁ w₂ v₁ v₂,
      (block filling oneBox).Ends Exchange.GoesOn a w₁ () ∧
      (block setting w₁).Ends Exchange.GoesOn b w₂ () ∧
      (block setting oneBox).Ends Exchange.GoesOn b' v₁ () ∧
      (block filling v₁).Ends Exchange.GoesOn a' v₂ () ∧
      (∀ name, v₂.globals.get? name = w₂.globals.get? name) ∧
      (∀ key, v₂.components.get? key = w₂.components.get? key) ∧ a' = a ∧ b' = b := by
  have hfilling : IsSimple filling := by unfold IsSimple; decide
  have hsetting : IsSimple setting := by unfold IsSimple; decide
  have hapart : ∀ name ∈ writtenNames oneBox.hasComponent filling,
      name ∉ mentionedNames setting := by decide
  have hapart' : ∀ name ∈ writtenNames oneBox.hasComponent setting,
      name ∉ mentionedNames filling := by decide
  have hquiet : ∀ e ∈ ([] : List Exchange), e.GoesOn := fun _ he => absurd he List.not_mem_nil
  have hbox : ∀ w : World, w.halted = false → ∀ e ∈ [fillingBox w []], e.GoesOn :=
    fun w hw => List.forall_mem_singleton.2 ⟨⟨[], rfl⟩, hw⟩
  have h₁ : (block filling oneBox).Ends Exchange.GoesOn _ (filled oneBox) () :=
    ⟨[fillingBox oneBox []], .asking (.done _ _), hbox _ rfl, rfl⟩
  have h₂ : (block setting (filled oneBox)).Ends Exchange.GoesOn _ _ () :=
    ⟨[], .done _ _, hquiet, rfl⟩
  have h₁' : (block setting oneBox).Ends Exchange.GoesOn _ (oneBox.setVariable "x" (.int 1)) () :=
    ⟨[], .done _ _, hquiet, rfl⟩
  have h₂' : (block filling (oneBox.setVariable "x" (.int 1))).Ends Exchange.GoesOn _ _ () :=
    ⟨[fillingBox (oneBox.setVariable "x" (.int 1)) []], .asking (.done _ _), hbox _ rfl, rfl⟩
  exact ⟨hfilling, hsetting, rfl, plain_oneBox, hapart, hapart', _, _, _, _, _, _, _, _, h₁, h₂,
    h₁', h₂', blocks_commute hfilling hsetting rfl plain_oneBox hapart hapart' h₁ h₂ h₁' h₂'⟩

/-- The session has to go on throughout: a host that pauses it when it is told of a property leaves
the other block undone if that comes second. -/
theorem blocks_part_pausingHost :
    ¬ ∀ (A B : List Stmt) (w : World), IsSimple A → IsSimple B → w.halted = false → w.Plain →
      (∀ name ∈ writtenNames w.hasComponent A, name ∉ mentionedNames B) →
      (∀ name ∈ writtenNames w.hasComponent B, name ∉ mentionedNames A) →
      ∀ (a b a' b' : List Request) (w₁ w₂ v₁ v₂ : World),
        (block A w).Ends Exchange.Direct a w₁ () → (block B w₁).Ends Exchange.Direct b w₂ () →
        (block B w).Ends Exchange.Direct b' v₁ () → (block A v₁).Ends Exchange.Direct a' v₂ () →
        (∀ name, v₂.globals.get? name = w₂.globals.get? name) ∧
          (∀ key, v₂.components.get? key = w₂.components.get? key) ∧ a' = a ∧ b' = b := by
  intro h
  have hquiet : ∀ e ∈ ([] : List Exchange), e.Direct := fun _ he => absurd he List.not_mem_nil
  have hbox : ∀ w, ∀ e ∈ [fillingBox w [.pause]], e.Direct :=
    fun w => List.forall_mem_singleton.2 ⟨[.pause], rfl⟩
  obtain ⟨hvariables, -⟩ := h filling setting oneBox (by unfold IsSimple; decide)
    (by unfold IsSimple; decide) rfl plain_oneBox (by decide) (by decide) _ _ _ _ _ _ _ _
    ⟨[fillingBox oneBox [.pause]], .asking (.done _ _), hbox _, rfl⟩
    ⟨[], .done _ _, hquiet, rfl⟩ ⟨[], .done _ _, hquiet, rfl⟩
    ⟨[fillingBox (oneBox.setVariable "x" (.int 1)) [.pause]], .asking (.done _ _), hbox _, rfl⟩
  have hx : some (Value.int 1) = none := hvariables "x"
  cases hx

end Script

end FormBasic
