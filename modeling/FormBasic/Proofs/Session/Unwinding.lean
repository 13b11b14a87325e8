import FormBasic.Proofs.Session.Machine
import Mathlib

/-!
# How script errors end an invocation

A script error that arises while a statement evaluates its expressions ends the invocation: every
block, loop and calling handler around the statement is left without doing anything more. On the way
out the error is attributed to the line of the first statement it passes, which is the innermost one.
The event that began the invocation reports the error once.

## Main definitions

* `Machine.Run` - runs of any length
* `Control.fault?` - the fault that is on its way out
* `Surroundings.Fails` - requests that the surroundings may fail with a fault
* `Machine.currentLine` - the line of the innermost statement that is running
* `Machine.Framed`, `Machine.Going` - states in which no fault is on its way out
* `Machine.Leaving` - states in which one is

## Main statements

* `Machine.Run.restores` - whatever is left, and however, is left with the continuations with which
  it was begun
* `Machine.Going.step`, `Machine.Leaving.step` - what one step does
* `Machine.ends_of_raise` - a script error ends one invocation, and is attributed to the right place
-/

namespace FormBasic

/-- How the expressions of a statement on a line may end: with faults that arise in them or that are
diagnosed on the line. They pass on every fault that they are given. -/
def Conduct.onLine (line : Line) : Conduct where
  faults fault := fault.Arises ∨ ∃ cause, fault = .runtimeAt line cause
  frank := True
  arises := .inl

theorem Conduct.owns_onLine (line : Line) : (onLine line).Owns line := fun cause => .inr ⟨cause, rfl⟩

/-- Whether a statement on a line can lead to this, and all statements in it have lines. -/
def Next.Placed (line : Line) : Next → Prop
  | .finish => True
  | .block body => PlacedBlock body
  | .loop l => l.line = line ∧ PlacedBlock l.body
  | .round l => l.line = line ∧ PlacedBlock l.body

/-- Whether an outcome evaluates the expressions of a statement on a line, in a session with some
handlers. -/
structure Outcome.Evaluates (handlers : Table (List Stmt)) (line : Line) (o : Outcome Next) :
    Prop where
  orderly : ∃ start : World, start.handlers = handlers ∧ o.Orderly (.onLine line) start
  yields : o.Yields (Next.Placed line)

section Evaluations

variable {handlers : Table (List Stmt)} {line : Line} {w : World}

theorem Stmt.evaluates_begin {s : Stmt} (hs : s.Placed) (hw : w.handlers = handlers) :
    (s.begin w).Evaluates handlers s.line := by
  obtain ⟨-, hblocks⟩ := hs
  refine ⟨⟨w, hw, s.orderly_begin (fun _ => trivial) (Conduct.owns_onLine _) w⟩, ?_⟩
  refine (s.yields_begin w).mono fun next hnext => ?_
  cases next with
  | finish => trivial
  | block body => exact hblocks body hnext
  | loop l => exact ⟨hnext.1, hblocks l.body hnext.2⟩
  | round l => exact hnext.elim

theorem Loop.evaluates_enter {l : Loop} (hl : PlacedBlock l.body) (hw : w.handlers = handlers) :
    (l.enter w).Evaluates handlers l.line := by
  refine ⟨⟨w, hw, l.orderly_enter (fun _ => trivial) (Conduct.owns_onLine _) w⟩, ?_⟩
  refine (l.yields_enter w).mono fun next hnext => ?_
  obtain rfl | ⟨rfl, -⟩ := hnext
  · trivial
  · exact ⟨rfl, hl⟩

theorem Loop.evaluates_leave {l : Loop} (hl : PlacedBlock l.body) (hw : w.handlers = handlers) :
    (l.leave w).Evaluates handlers l.line := by
  refine ⟨⟨w, hw, l.orderly_leave (fun _ => trivial) (Conduct.owns_onLine _) w⟩, ?_⟩
  refine (l.yields_leave w).mono fun next hnext => ?_
  obtain rfl | ⟨l', rfl, hline, hbody, -⟩ := hnext
  · trivial
  · exact ⟨hline, hbody ▸ hl⟩

namespace Outcome.Evaluates

theorem of_done {next : Next} (h : (Outcome.done w next).Evaluates handlers line) :
    w.handlers = handlers ∧ next.Placed line := by
  obtain ⟨⟨start, hstart, ho⟩, hyields⟩ := h
  exact ⟨ho.keep.2.trans hstart, hyields⟩

theorem of_failed {fault : Fault} (h : (Outcome.failed w fault).Evaluates handlers line) :
    (Conduct.onLine line).faults fault := by
  obtain ⟨⟨start, hstart, ho⟩, -⟩ := h
  exact ho.2

/-- After a request an evaluation goes on, or it ends with the fault that it is given. -/
theorem of_asking {request : Request} {resume : World → Except Fault request.Reply → Outcome Next}
    (h : (Outcome.asking w request resume).Evaluates handlers line) :
    w.handlers = handlers ∧
      (∀ w reply, w.handlers = handlers → (resume w (.ok reply)).Evaluates handlers line) ∧
      ∀ w fault, resume w (.error fault) = .failed w fault := by
  obtain ⟨⟨start, hstart, ⟨before, hbefore, hw⟩, hresume, hfrank⟩, hyields⟩ := h
  refine ⟨?_, fun w' reply hw' => ⟨⟨_, ?_, hresume w' _ (.ok reply)⟩, hyields w' _⟩, hfrank trivial⟩
  · rw [hw, ← hstart, ← hbefore.keep.2]
    rfl
  · have hserved : World.Changes (fun _ => True) w' (w'.served request (.ok reply)) :=
      w'.changes_served request _
    exact hserved.keep.2.trans hw'

/-- After a call an evaluation goes on, or it ends with the fault that the handler ended with. -/
theorem of_calling {key : Text} {resume : World → Except Fault Bool → Outcome Next}
    (h : (Outcome.calling w key resume).Evaluates handlers line) :
    w.handlers = handlers ∧
      (∀ w ran, w.handlers = handlers → (resume w (.ok ran)).Evaluates handlers line) ∧
      ∀ w fault, resume w (.error fault) = .failed w fault := by
  obtain ⟨⟨start, hstart, hcalled, hresume, hfrank⟩, hyields⟩ := h
  refine ⟨hcalled.keep.2.trans hstart, fun w' ran hw' => ?_, hfrank trivial⟩
  exact ⟨⟨w', hw', hresume w' _ (.ok ran)⟩, hyields w' _⟩

end Outcome.Evaluates

end Evaluations

/-- The world in which an outcome is. -/
def Outcome.world {α : Type} : Outcome α → World
  | .done w _ => w
  | .failed w _ => w
  | .asking w _ _ => w
  | .calling w _ _ => w

/-- The world in which something is being done. -/
def Control.world : Control → World
  | .block w _ => w
  | .statement w _ => w
  | .evaluation o => o.world
  | .ended w _ => w

/-- The fault that is on its way out. -/
def Control.fault? : Control → Option Fault
  | .evaluation (.failed _ fault) => some fault
  | .ended _ (.error fault) => some fault
  | _ => none

/-- Whether a control waits for the reply to a request that the surroundings may fail with a
fault. -/
def Surroundings.Fails {σ : Type} (env : Surroundings σ) (control : Control) (state state' : σ)
    (fault : Fault) : Prop :=
  ∃ request w resume w', control = .evaluation (.asking w request resume) ∧
    env.Replies request w state w' state' (.error fault)

namespace Machine

variable {σ : Type} {env : Surroundings σ}

/-- Runs of any length. -/
abbrev Run (env : Surroundings σ) : Machine σ → Machine σ → Prop :=
  Relation.ReflTransGen (Step env)

/-- The fault with which a machine is leaving what it does. -/
abbrev fault? (m : Machine σ) : Option Fault := m.control.fault?

/-- The line of the innermost statement that is running. -/
def currentLine : List Continuation → Line
  | [] => none
  | .line line :: _ => line
  | _ :: ks => currentLine ks

-- ════════════════════════════════════════════════════════════════════════════
-- Continuations
-- ════════════════════════════════════════════════════════════════════════════

/-- What a step does to the continuations: it leaves them as they are, it adds one, which is never
that of a handler that is running already, or it takes the first one away where something has
ended. -/
theorem continuations_of_step {m m' : Machine σ} (h : Step env m m') :
    m'.continuations = m.continuations ∨
      (∃ k, m'.continuations = k :: m.continuations ∧
        ∀ key ∈ stack [k], key ∉ stack m.continuations) ∨
      ∃ w result k, m.control = .ended w result ∧ m.continuations = k :: m'.continuations := by
  cases h with
  | reply => exact .inl rfl
  | own h =>
    obtain ⟨control, ks, state⟩ := m
    cases control with
    | block w ss =>
      cases ss with
      | nil =>
        cases h
        exact .inl rfl
      | cons s ss =>
        rw [next?] at h
        split at h
        · cases h
          exact .inl rfl
        · cases h
          exact .inr (.inl ⟨_, rfl, fun _ hkey => absurd hkey List.not_mem_nil⟩)
    | statement w s =>
      rw [next?] at h
      split at h
      · cases h
        exact .inl rfl
      · cases h
        exact .inr (.inl ⟨_, rfl, fun _ hkey => absurd hkey List.not_mem_nil⟩)
    | evaluation o =>
      cases o with
      | done w next =>
        cases h
        cases next with
        | round l => exact .inr (.inl ⟨_, rfl, fun _ hkey => absurd hkey List.not_mem_nil⟩)
        | _ => exact .inl rfl
      | failed w fault =>
        cases h
        exact .inl rfl
      | asking => cases h
      | calling w key resume =>
        rw [next?] at h
        split at h
        · next body hbody =>
          cases h
          refine .inr (.inl ⟨_, rfl, fun key' hkey hmem => ?_⟩)
          obtain rfl := List.mem_singleton.1 hkey
          rw [Turn.body?, if_pos (List.contains_iff_mem.2 hmem)] at hbody
          cases hbody
        · cases h
          exact .inl rfl
    | ended w result =>
      cases ks with
      | nil => cases h
      | cons k ks =>
        cases h
        refine .inr (.inr ⟨w, result, k, rfl, ?_⟩)
        cases k <;> cases result <;> rfl

/-- No handler is running twice. -/
theorem nodup_of_step {m m' : Machine σ} (h : Step env m m')
    (hm : (stack m.continuations).Nodup) : (stack m'.continuations).Nodup := by
  obtain hsame | ⟨k, hpush, hfree⟩ | ⟨w, result, k, -, hpop⟩ := continuations_of_step h
  · rwa [hsame]
  · rw [hpush]
    cases k with
    | caller key resume =>
      exact List.nodup_cons.2 ⟨hfree key (List.mem_singleton_self key), hm⟩
    | _ => exact hm
  · rw [hpop] at hm
    cases k with
    | caller key resume => exact (List.nodup_cons.1 hm).2
    | _ => exact hm

theorem Run.nodup {m m' : Machine σ} (h : Run env m m') (hm : (stack m.continuations).Nodup) :
    (stack m'.continuations).Nodup := by
  induction h with
  | refl => exact hm
  | tail _ hstep ih => exact nodup_of_step hstep ih

/-- What is begun with some continuations keeps them below its own until it ends, and it ends, with
or without a fault, with exactly these. -/
theorem Run.restores {m m' : Machine σ} (h : Run env m m') :
    (∃ ks, m'.continuations = ks ++ m.continuations) ∨
      ∃ w result state, Run env m ⟨.ended w result, m.continuations, state⟩ ∧
        Run env ⟨.ended w result, m.continuations, state⟩ m' := by
  induction h with
  | refl => exact .inl ⟨[], rfl⟩
  | @tail m₁ m₂ hrun hstep ih =>
    obtain ⟨ks, hks⟩ | ⟨w, result, state, hleft, hrest⟩ := ih
    · obtain hsame | ⟨k, hpush, -⟩ | ⟨w, result, k, hended, hpop⟩ := continuations_of_step hstep
      · exact .inl ⟨ks, hsame.trans hks⟩
      · exact .inl ⟨k :: ks, hpush.trans (congrArg (k :: ·) hks)⟩
      · rw [hks] at hpop
        cases ks with
        | nil =>
          -- the machine is about to go on with the continuations that were there before
          obtain ⟨control, ks₁, state⟩ := m₁
          obtain rfl : control = .ended w result := hended
          obtain rfl : ks₁ = m.continuations := hks
          exact .inr ⟨w, result, state, hrun, .single hstep⟩
        | cons k' ks => exact .inl ⟨ks, (List.cons.inj hpop).2.symm⟩
    · exact .inr ⟨w, result, state, hleft, hrest.tail hstep⟩

-- ════════════════════════════════════════════════════════════════════════════
-- Going on
-- ════════════════════════════════════════════════════════════════════════════

/-- Whether continuations fit each other: loops and callers stand on the line of their statement, and
callers go on evaluating its expressions. -/
inductive Framed (handlers : Table (List Stmt)) : List Continuation → Prop where
  | nil : Framed handlers []
  /-- The invocation itself. -/
  | entry (key : Text) : Framed handlers [.caller key Invocation.returned]
  | rest {ss : List Stmt} {ks : List Continuation} (hss : PlacedBlock ss)
    (hks : Framed handlers ks) : Framed handlers (.rest ss :: ks)
  | line {line : Line} {ks : List Continuation} (hline : line.isSome = true)
    (hks : Framed handlers ks) : Framed handlers (.line line :: ks)
  | round {l : Loop} {ks : List Continuation} (hl : PlacedBlock l.body)
    (hks : Framed handlers (.line l.line :: ks)) : Framed handlers (.round l :: .line l.line :: ks)
  | caller {key : Text} {resume : World → Except Fault Bool → Outcome Next} {line : Line}
    {ks : List Continuation}
    (hresume : ∀ w ran, w.handlers = handlers → (resume w (.ok ran)).Evaluates handlers line)
    (hfrank : ∀ w fault, resume w (.error fault) = .failed w fault)
    (hks : Framed handlers (.line line :: ks)) :
    Framed handlers (.caller key resume :: .line line :: ks)

/-- States of an invocation in which no fault is on its way out, though one may just have arisen. -/
inductive Going (handlers : Table (List Stmt)) : Machine σ → Prop where
  | block {w : World} {ss : List Stmt} {ks : List Continuation} {state : σ}
    (hw : w.handlers = handlers) (hss : PlacedBlock ss) (hks : Framed handlers ks) :
    Going handlers ⟨.block w ss, ks, state⟩
  | statement {w : World} {s : Stmt} {ks : List Continuation} {state : σ}
    (hw : w.handlers = handlers) (hs : s.Placed) (hks : Framed handlers ks) :
    Going handlers ⟨.statement w s, ks, state⟩
  | evaluation {o : Outcome Next} {line : Line} {ks : List Continuation} {state : σ}
    (ho : o.Evaluates handlers line) (hks : Framed handlers (.line line :: ks)) :
    Going handlers ⟨.evaluation o, .line line :: ks, state⟩
  | entry {w : World} {key : Text} {state : σ} (hw : w.handlers = handlers) :
    Going handlers ⟨.evaluation (.calling w key Invocation.returned), [], state⟩
  | exit {w : World} {state : σ} (hw : w.handlers = handlers) :
    Going handlers ⟨.evaluation (.done w .finish), [], state⟩
  | ended {w : World} {ks : List Continuation} {state : σ} (hw : w.handlers = handlers)
    (hks : Framed handlers ks) : Going handlers ⟨.ended w (.ok ()), ks, state⟩

section Steps

variable {handlers : Table (List Stmt)}

theorem placedBlock_of_body? (hhandlers : PlacedHandlers handlers) {w : World}
    (hw : w.handlers = handlers) {stack : List Text} {key : Text} {body : List Stmt}
    (h : Turn.body? w stack key = some body) : PlacedBlock body := by
  unfold Turn.body? at h
  split at h
  · cases h
  · exact hhandlers key body (hw ▸ h)

/-- What an evaluation leads to. -/
theorem Going.follow {line : Line} {ks : List Continuation}
    (hks : Framed handlers (.line line :: ks)) {w : World} {next : Next} {state : σ}
    (h : (Outcome.done w next).Evaluates handlers line) :
    Going handlers (Machine.follow w (.line line :: ks) state next) := by
  obtain ⟨hw, hnext⟩ := h.of_done
  cases next with
  | finish => exact .ended hw hks
  | block body => exact .block hw hnext hks
  | loop l =>
    obtain ⟨rfl, hl⟩ := hnext
    exact .evaluation (Loop.evaluates_enter hl hw) hks
  | round l =>
    obtain ⟨rfl, hl⟩ := hnext
    exact .block hw hl (.round hl hks)

/-- What the end of something leads to when there is no fault. -/
theorem Going.goOn {k : Continuation} {ks : List Continuation} (hks : Framed handlers (k :: ks))
    {w : World} (hw : w.handlers = handlers) {state : σ} :
    Going handlers (Machine.goOn w (.ok ()) ks state k) := by
  cases hks with
  | entry key => exact .exit hw
  | rest hss hks => exact .block hw hss hks
  | line hline hks => exact .ended hw hks
  | round hl hks => exact .evaluation (Loop.evaluates_leave hl hw) hks
  | caller hresume hfrank hks => exact .evaluation (hresume w true hw) hks

/-- As long as no fault has arisen the invocation goes on as it should, unless a request is failed
while a statement evaluates its expressions. -/
theorem Going.step (hhandlers : PlacedHandlers handlers) {m m' : Machine σ}
    (hm : Going handlers m) (hfault : m.fault? = none) (h : Step env m m') :
    Going handlers m' ∨ ∃ w fault line ks state, Framed handlers (.line line :: ks) ∧
      m' = ⟨.evaluation (.failed w fault), .line line :: ks, state⟩ ∧
      env.Fails m.control m.state m'.state fault := by
  cases h with
  | own h =>
    refine .inl ?_
    cases hm with
    | @block w ss ks state hw hss hks =>
      cases ss with
      | nil =>
        cases h
        exact .ended hw hks
      | cons s ss =>
        rw [next?] at h
        split at h
        · cases h
          exact .ended hw hks
        · cases h
          exact .statement hw (hss s List.mem_cons_self)
            (.rest (fun s hs => hss s (List.mem_cons_of_mem _ hs)) hks)
    | @statement w s ks state hw hs hks =>
      rw [next?] at h
      split at h
      · cases h
        exact .ended hw hks
      · cases h
        have hline : s.line.isSome = true := by
          obtain ⟨hline, -⟩ := hs
          exact hline
        exact .evaluation (Stmt.evaluates_begin hs hw) (.line hline hks)
    | @evaluation o line ks state ho hks =>
      cases o with
      | done w next =>
        cases h
        exact .follow hks ho
      | failed w fault => cases hfault
      | asking => cases h
      | calling w key resume =>
        obtain ⟨hw, hresume, hfrank⟩ := ho.of_calling
        rw [next?] at h
        split at h
        · next body hbody =>
          cases h
          exact .block hw (placedBlock_of_body? hhandlers hw hbody) (.caller hresume hfrank hks)
        · cases h
          exact .evaluation (hresume w false hw) hks
    | @entry w key state hw =>
      rw [next?] at h
      split at h
      · next body hbody =>
        cases h
        exact .block hw (placedBlock_of_body? hhandlers hw hbody) (.entry key)
      · cases h
        exact .exit hw
    | exit hw =>
      cases h
      exact .ended hw .nil
    | @ended w ks state hw hks =>
      cases ks with
      | nil => cases h
      | cons k ks =>
        cases h
        exact .goOn hks hw
  | @reply request resume w w' ks state state' reply h =>
    cases hm with
    | evaluation ho hks =>
      obtain ⟨hw, hresume, hfrank⟩ := ho.of_asking
      cases reply with
      | ok reply =>
        exact .inl (.evaluation (hresume w' reply ((env.handlers h).trans hw)) hks)
      | error fault =>
        refine .inr ⟨w', fault, _, _, state', hks, ?_, request, w, resume, w', rfl, h⟩
        rw [hfrank]

-- ════════════════════════════════════════════════════════════════════════════
-- Leaving
-- ════════════════════════════════════════════════════════════════════════════

/-- Whether all callers pass on every fault. -/
def Frank (ks : List Continuation) : Prop :=
  ∀ key resume, Continuation.caller key resume ∈ ks →
    ∀ w fault, resume w (.error fault) = .failed w fault

theorem Frank.tail {k : Continuation} {ks : List Continuation} (h : Frank (k :: ks)) : Frank ks :=
  fun key resume hmem => h key resume (List.mem_cons_of_mem _ hmem)

theorem Framed.frank {ks : List Continuation} (h : Framed handlers ks) : Frank ks := by
  have hcons : ∀ {k : Continuation} {ks : List Continuation}, Frank ks →
      (∀ key resume, k = .caller key resume → ∀ w fault, resume w (.error fault) = .failed w fault) →
      Frank (k :: ks) := by
    intro k ks hks hk key resume hmem
    rcases List.mem_cons.1 hmem with rfl | hmem
    · exact hk key resume rfl
    · exact hks key resume hmem
  induction h with
  | nil => exact fun _ _ hmem => absurd hmem List.not_mem_nil
  | entry key =>
    refine hcons (fun _ _ hmem => absurd hmem List.not_mem_nil) fun _ _ heq => ?_
    cases heq
    exact fun _ _ => rfl
  | rest _ _ ih => exact hcons ih fun _ _ heq => by cases heq
  | line _ _ ih => exact hcons ih fun _ _ heq => by cases heq
  | round _ _ ih => exact hcons ih fun _ _ heq => by cases heq
  | caller _ hfrank _ ih =>
    refine hcons ih fun _ _ heq => ?_
    cases heq
    exact hfrank

/-- States in which a fault is on its way out, through callers that pass it on. -/
inductive Leaving (w : World) (state : σ) (fault : Fault) : Machine σ → Prop where
  | failed {ks : List Continuation} (hks : Frank ks) :
    Leaving w state fault ⟨.evaluation (.failed w fault), ks, state⟩
  | ended {ks : List Continuation} (hks : Frank ks) :
    Leaving w state fault ⟨.ended w (.error fault), ks, state⟩

section Leaving

variable {w : World} {state : σ} {fault : Fault}

/-- On its way out a fault can only get a line: nothing else happens. -/
theorem Leaving.step {m m' : Machine σ} (hm : Leaving w state fault m) (h : Step env m m') :
    ∃ line, Leaving w state (fault.attribute line) m' := by
  cases hm with
  | failed hks =>
    cases h with
    | own h =>
      cases h
      exact ⟨none, fault.attribute_none.symm ▸ .ended hks⟩
  | @ended ks hks =>
    cases h with
    | own h =>
      cases ks with
      | nil => cases h
      | cons k ks =>
        cases h
        cases k with
        | rest ss => exact ⟨none, fault.attribute_none.symm ▸ .ended hks.tail⟩
        | line line => exact ⟨line, .ended hks.tail⟩
        | round l => exact ⟨none, fault.attribute_none.symm ▸ .ended hks.tail⟩
        | caller key resume =>
          refine ⟨none, fault.attribute_none.symm ▸ ?_⟩
          have hresume := hks key resume List.mem_cons_self w fault
          rw [goOn, show (Except.error fault : Except Fault Unit).map (fun _ => true) =
            .error fault from rfl, hresume]
          exact .failed hks.tail

theorem Leaving.run {m m' : Machine σ} (hm : Leaving w state fault m) (h : Run env m m') :
    ∃ line, Leaving w state (fault.attribute line) m' := by
  induction h with
  | refl => exact ⟨none, fault.attribute_none.symm ▸ hm⟩
  | tail _ hstep ih =>
    obtain ⟨line, hleaving⟩ := ih
    obtain ⟨line', hleaving'⟩ := hleaving.step hstep
    exact ⟨line.or line', fault.attribute_attribute line line' ▸ hleaving'⟩

/-- A fault that has its line already ends the invocation as it is. -/
theorem Leaving.ends {m : Machine σ} (hm : Leaving w state fault m)
    (hfault : ∀ line, fault.attribute line = fault) :
    Run env m ⟨.ended w (.error fault), [], state⟩ := by
  have hended : ∀ ks, Frank ks →
      Run env (⟨.ended w (.error fault), ks, state⟩ : Machine σ)
        ⟨.ended w (.error fault), [], state⟩ := by
    intro ks hks
    induction ks with
    | nil => exact .refl
    | cons k ks ih =>
      have hrest := ih hks.tail
      cases k with
      | rest ss => exact .head (.own rfl) hrest
      | round l => exact .head (.own rfl) hrest
      | line line =>
        refine .head (.own ?_) hrest
        rw [next?, goOn, show (Except.error fault : Except Fault Unit).mapError
          (Fault.attribute line) = .error (fault.attribute line) from rfl, hfault]
      | caller key resume =>
        have hresume := hks key resume List.mem_cons_self w fault
        have hfailed : next? (⟨.ended w (.error fault), .caller key resume :: ks, state⟩ : Machine σ) =
            some ⟨.evaluation (.failed w fault), ks, state⟩ := by
          rw [← hresume]
          rfl
        exact .head (.own hfailed) (.head (.own rfl) hrest)
  cases hm with
  | failed hks => exact .head (.own rfl) (hended _ hks)
  | ended hks => exact hended _ hks

theorem Leaving.fault? {m : Machine σ} (hm : Leaving w state fault m) : m.fault? = some fault := by
  cases hm <;> rfl

end Leaving

-- ════════════════════════════════════════════════════════════════════════════
-- Raising
-- ════════════════════════════════════════════════════════════════════════════

/-- A fault that has just arisen did so while a statement evaluated its expressions. -/
theorem Going.of_fault {m : Machine σ} (hm : Going handlers m) {fault : Fault}
    (hfault : m.fault? = some fault) :
    ∃ w line ks state, Framed handlers (.line line :: ks) ∧
      m = ⟨.evaluation (.failed w fault), .line line :: ks, state⟩ ∧
      (Conduct.onLine line).faults fault := by
  cases hm with
  | @evaluation o line ks state ho hks =>
    cases o with
    | failed w fault' =>
      cases hfault
      exact ⟨w, line, ks, state, hks, rfl, ho.of_failed⟩
    | _ => cases hfault
  | _ => cases hfault

/-- An invocation goes on as it should, or a fault is on its way out. -/
theorem Run.going_or_leaving (hhandlers : PlacedHandlers handlers) {m m' : Machine σ}
    (h : Run env m m') (hm : Going handlers m) :
    Going handlers m' ∨ ∃ w state fault, Leaving w state fault m' := by
  induction h with
  | refl => exact .inl hm
  | @tail m₁ m₂ _ hstep ih =>
    obtain hgoing | ⟨w, state, fault, hleaving⟩ := ih
    · cases hfault : m₁.fault? with
      | none =>
        obtain hgoing | ⟨w, fault, line, ks, state, hks, rfl, -⟩ :=
          hgoing.step hhandlers hfault hstep
        · exact .inl hgoing
        · exact .inr ⟨w, state, fault, .failed hks.frank⟩
      | some fault =>
        obtain ⟨w, line, ks, state, hks, rfl, -⟩ := hgoing.of_fault hfault
        have hleaving : Leaving w state fault
            (⟨.evaluation (.failed w fault), .line line :: ks, state⟩ : Machine σ) :=
          .failed hks.frank
        obtain ⟨line', hnext⟩ := hleaving.step hstep
        exact .inr ⟨w, state, _, hnext⟩
    · obtain ⟨line, hnext⟩ := hleaving.step hstep
      exact .inr ⟨w, state, _, hnext⟩

/-- A fault is raised while a statement evaluates its expressions: it arises in them, or a request of
theirs is failed. -/
theorem Run.raised (hhandlers : PlacedHandlers handlers) {start m m' : Machine σ}
    (hrun : Run env start m) (hstart : Going handlers start) (hm : m.fault? = none)
    (hstep : Step env m m') {fault : Fault} (hm' : m'.fault? = some fault) :
    ∃ w line ks state, Framed handlers (.line line :: ks) ∧
      m' = ⟨.evaluation (.failed w fault), .line line :: ks, state⟩ ∧
      ((Conduct.onLine line).faults fault ∨ env.Fails m.control m.state m'.state fault) := by
  obtain hgoing | ⟨w, state, fault', hleaving⟩ := hrun.going_or_leaving hhandlers hstart
  · obtain hgoing' | ⟨w, fault', line, ks, state, hks, hfailed, hgiven⟩ :=
      hgoing.step hhandlers hm hstep
    · obtain ⟨w, line, ks, state, hks, hfailed, hfaults⟩ := hgoing'.of_fault hm'
      exact ⟨w, line, ks, state, hks, hfailed, .inl hfaults⟩
    · obtain rfl : fault' = fault := by
        rw [hfailed] at hm'
        exact Option.some.inj hm'
      exact ⟨w, line, ks, state, hks, hfailed, .inr hgiven⟩
  · rw [hleaving.fault?] at hm
    cases hm

theorem Framed.isSome_line {line : Line} {ks : List Continuation}
    (h : Framed handlers (.line line :: ks)) : line.isSome = true := by
  cases h with
  | line hline _ => exact hline

/-- The innermost statement attributes a script error to its line, and nobody after it does. -/
theorem Framed.ends_raise (env : Surroundings σ) {line : Line} {ks : List Continuation}
    (h : Framed handlers (.line line :: ks)) (w : World) (state : σ) (error : ScriptError) :
    Run env ⟨.evaluation (.failed w (.script error)), .line line :: ks, state⟩
      ⟨.ended w (.error (.script (error.attribute line))), [], state⟩ := by
  obtain ⟨number, rfl⟩ := Option.isSome_iff_exists.1 h.isSome_line
  refine .head (.own rfl) (.head (.own rfl) ?_)
  refine Leaving.ends (.ended h.frank.tail) fun line' => ?_
  simp [Fault.attribute, ScriptError.attribute]

end Steps

/-- A diagnosis that arises on a line is made there or has no line yet. -/
theorem line_of_faults {line : Line} {error : ScriptError}
    (h : (Conduct.onLine line).faults (.script error)) : error.line = none ∨ error.line = line := by
  obtain harises | ⟨cause, hcause⟩ := h
  · exact .inl harises
  · cases hcause
    exact .inr rfl

/-- Where a run ends, it ends as all runs do. -/
theorem Ends.of_run {P : World → σ → Except Fault Unit → Prop} {m : Machine σ} (h : Ends env P m)
    {w : World} {result : Except Fault Unit} {state : σ}
    (hrun : Run env m ⟨.ended w result, [], state⟩) : P w state result := by
  have hlast : ∀ {w : World} {result : Except Fault Unit} {state : σ} {m' : Machine σ},
      ¬ Step env ⟨.ended w result, [], state⟩ m' := by
    intro w result state m' hstep
    cases hstep with
    | own h => cases h
  induction h with
  | ended h =>
    obtain heq | ⟨m', hstep, -⟩ := hrun.cases_head
    · cases heq
      exact h
    · exact absurd hstep hlast
  | step hsome _ ih =>
    obtain rfl | ⟨m', hstep, hrest⟩ := hrun.cases_head
    · obtain ⟨m', hstep⟩ := hsome
      exact absurd hstep hlast
    · exact ih m' hstep hrest

end Machine

namespace Script

/-- How an event goes on after its handler: it reports a script error, once, and then has the result
that the handler did not run to its end. -/
def afterHandler (key : Text) (w : World) : Except Fault Bool → Outcome Bool
  | .ok ran => .done w ran
  | .error (.script error) =>
    .asking w (.errorReport ("Runtime error in " ++ key ++ ": " ++ error.message) error.line)
      fun w reply => .ended w (reply.map fun _ => false)
  | .error fault => .failed w fault

/-- An event that is not held back calls its handler. -/
theorem fire_eq_calling {key : Text} {w : World} (hstopped : w.stopped = false)
    (hkey : w.handlers.contains key = true) : fire key w = .calling w key (afterHandler key) := by
  have hfire : fire key w = reporting key (call key) w := by
    change (if w.stopped || !w.handlers.contains key then return false
      else reporting key (call key) : Script Bool) w = _
    rw [hstopped, hkey]
    rfl
  rw [hfire]
  refine congrArg (Outcome.calling w key) (funext fun w => funext fun ran => ?_)
  rcases ran with fault | ran
  · cases fault with
    | script error =>
      refine congrArg (Outcome.asking w _) (funext fun w => funext fun reply => ?_)
      cases reply <;> rfl
    | _ => rfl
  · rfl

/-- Only a handler that there is can end with a fault. -/
theorem contains_of_settles_error {σ : Type} {env : Surroundings σ} {key : Text} {w w' : World}
    {state state' : σ} {fault : Fault}
    (h : Outcome.Settles env [] (call key w) state w' state' (.error fault)) :
    w.handlers.contains key = true := by
  cases h with
  | skipped hbody hrest => cases hrest
  | entered hbody hrun hrest =>
    have hget : w.handlers.get? key = some _ := hbody
    exact (congrArg Option.isSome hget).trans rfl

/-- An event ends as its handler and what comes after it do. -/
theorem settles_fire {σ : Type} {env : Surroundings σ} {key : Text} {w w₁ w₂ : World}
    {state state₁ state₂ : σ} {ran : Except Fault Bool} {result : Except Fault Bool}
    (hfire : fire key w = .calling w key (afterHandler key))
    (h : Outcome.Settles env [] (call key w) state w₁ state₁ ran)
    (hafter : Outcome.Settles env [] (afterHandler key w₁ ran) state₁ w₂ state₂ result) :
    Outcome.Settles env [] (fire key w) state w₂ state₂ result := by
  have hsequence : fire key w = (call key w).andThen (afterHandler key) := by
    rw [hfire]
    refine congrArg (Outcome.calling w key) (funext fun w => funext fun ran => ?_)
    cases ran <;> rfl
  exact hsequence ▸ h.andThen hafter

end Script

namespace Machine

/-- Once a script error is raised in the invocation of a handler no statement runs and no request is
made, the world and the state of the host stay what they are, and the invocation ends with the error,
attributed to the line that was current when it was raised unless a request was failed with an error
that had a line. The event reports it once and then has the result that the handler did not run to
its end. -/
theorem ends_of_raise {σ : Type} {env : Surroundings σ} {key : Text} {w₀ : World} {state₀ : σ}
    (hparsed : ∀ key body, w₀.handlers.get? key = some body → IsParsed body)
    (hstopped : w₀.stopped = false) {m m' : Machine σ} {error : ScriptError}
    (hrun : Run env ((Invocation.handler key).machine w₀ state₀) m) (hm : m.fault? = none)
    (hstep : Step env m m') (hm' : m'.fault? = some (.script error)) :
    let w := m'.control.world
    let line := currentLine m'.continuations
    let report := Request.errorReport ("Runtime error in " ++ key ++ ": " ++ error.message)
      (error.line.or line)
    (∃ ks, m'.continuations = .line line :: ks) ∧ line.isSome = true ∧
    (error.line = none ∨ error.line = line ∨
      env.Fails m.control m.state m'.state (.script error)) ∧
    (∀ m'', Run env m' m'' → m''.control.world = w ∧ m''.state = m'.state ∧
      ∃ line', m''.fault? = some (.script (error.attribute line'))) ∧
    Run env m' ⟨.ended w (.error (.script (error.attribute line))), [], m'.state⟩ ∧
    (∃ resume, Script.fire key w₀ = .calling w₀ key resume ∧
      resume w (.error (.script (error.attribute line))) =
        .asking w report fun w reply => .ended w (reply.map fun _ => false)) ∧
    ∀ w' state' reply, env.Replies report w m'.state w' state' reply →
      Outcome.Settles env [] (Script.fire key w₀) state₀ w' state' (reply.map fun _ => false) := by
  have hhandlers : PlacedHandlers w₀.handlers := fun key body h => (hparsed key body h).placed
  have hstart : Going w₀.handlers ((Invocation.handler key).machine w₀ state₀) := .entry rfl
  obtain ⟨w, line, ks, state, hks, rfl, hraised⟩ := hrun.raised hhandlers hstart hm hstep hm'
  have hended := hks.ends_raise env w state error
  obtain ⟨ran, hcall, hran⟩ := (ends_invocation env (.handler key) w₀ state₀).of_run
    ((hrun.tail hstep).trans hended)
  obtain rfl : ran = .error (.script (error.attribute line)) := by
    cases ran with
    | ok ran => cases hran
    | error fault =>
      cases hran
      rfl
  have hfire := Script.fire_eq_calling hstopped (Script.contains_of_settles_error hcall)
  refine ⟨⟨ks, rfl⟩, hks.isSome_line, ?_, fun m'' hm'' => ?_, hended, ⟨_, hfire, rfl⟩,
    fun w' state' reply hreply => ?_⟩
  · obtain hfaults | hgiven := hraised
    · exact (line_of_faults hfaults).imp_right .inl
    · exact .inr (.inr hgiven)
  · obtain ⟨line', hleaving⟩ := Leaving.run (.failed hks.frank) hm''
    cases hleaving <;> exact ⟨rfl, rfl, line', rfl⟩
  · exact Script.settles_fire hfire hcall (.asking hreply (Outcome.settles_ended w' state' _))

end Machine

end FormBasic
