import FormBasic.Proofs.Script.Orderly

/-!
# Statements in stages

A statement evaluates expressions and then leads to something else: to nothing, to a block, or to a
round of a loop. Running a statement is the same as going through these stages, which is how a
machine can run it without recursion.

## Main definitions

* `Rounds`, `Loop` - a loop that is under way
* `Next` - what a statement leads to
* `Stmt.begin`, `Loop.enter`, `Loop.leave` - the stages
* `Script.Yields` - what a script can end with

## Main statements

* `Loop.script_eq` - a loop decides on its next round and goes on accordingly
* `Script.exec_eq` - a statement is its first stage, followed by what that leads to
* `Stmt.yields_begin` - a statement leads to one of its blocks at most
-/

namespace FormBasic

namespace Script

variable {α β γ : Type}

theorem bind_assoc (m : Script α) (f : α → Script β) (g : β → Script γ) :
    m >>= f >>= g = m >>= fun a => f a >>= g := by
  funext w
  refine (Outcome.andThen_assoc _ _ _).trans ?_
  refine congrArg (Outcome.andThen (m w)) ?_
  funext w result
  cases result <;> rfl

theorem bind_pure (m : Script α) : (m >>= fun a => pure a) = m := by
  funext w
  refine Eq.trans (congrArg (Outcome.andThen (m w)) ?_) (Outcome.andThen_ended (m w))
  funext w result
  cases result <;> rfl

theorem bind_congr (m : Script α) {f g : α → Script β} (h : ∀ a, f a = g a) :
    m >>= f = m >>= g :=
  congrArg (fun k => m >>= k) (funext h)

theorem onLine_apply (line : Line) (m : Script Unit) (w : World) :
    onLine line m w = if w.stopped then .done w () else mapFault (Fault.attribute line) m w := by
  change (if w.stopped then pure () else mapFault (Fault.attribute line) m : Script Unit) w = _
  split <;> rfl

theorem block_cons_apply (s : Stmt) (ss : List Stmt) (w : World) :
    block (s :: ss) w =
      if w.halted then .done w () else (exec s >>= fun _ => block ss) w := by
  change (if w.halted then pure () else exec s >>= fun _ => block ss : Script Unit) w = _
  split <;> rfl

end Script

/-- What decides whether a loop goes on. -/
inductive Rounds where
  | counting (name : Text) (stop step counter : Number)
  | whileTrue (test : Expr)
  | doUntil (test : Option Expr) (ending : Bool)

/-- A loop that is under way. -/
structure Loop where
  rounds : Rounds
  line : Line
  body : List Stmt
  cap : Int
  /-- The number of rounds so far. -/
  iterations : Nat

/-- What a statement leads to. -/
inductive Next where
  | finish
  | block (body : List Stmt)
  /-- A loop finds out whether there is another round. -/
  | loop (l : Loop)
  /-- A loop runs its body. -/
  | round (l : Loop)

namespace Loop

/-- The kind of a loop. -/
def kind (l : Loop) : Script.LoopKind :=
  match l.rounds with
  | .counting _ _ _ _ => .forLoop
  | .whileTrue _ => .whileLoop
  | .doUntil _ _ => .doLoop

/-- Whether a loop asks for another round. -/
def test (l : Loop) : Script Bool :=
  match l.rounds with
  | .counting _ stop step counter =>
    if Script.inRange stop step counter then Script.goesOn else pure false
  | .whileTrue test => do
    if ← Script.goesOn then return (← Script.eval l.line test).isTruthy else return false
  | .doUntil _ _ => Script.goesOn

/-- What comes before the body. -/
def prepare (l : Loop) : Script Unit :=
  match l.rounds with
  | .counting name _ _ counter => Script.setVariable name (.ofNumber counter)
  | _ => pure ()

/-- The loop with one more round. -/
def next (l : Loop) : Loop := { l with iterations := l.iterations + 1 }

/-- Finds out whether there is another round, and reports a loop that asks for more than the cap. -/
def enter (l : Loop) : Script Next := do
  if ← l.test then
    if l.cap ≤ l.iterations then
      Script.reportRunaway l.kind l.line
      return .finish
    else
      l.prepare
      return .round l.next
  else return .finish

/-- What comes after the body. -/
def leave (l : Loop) : Script Next :=
  match l.rounds with
  | .counting name stop step counter => do
    let next ← Script.advance name step counter
    Script.setVariable name (.ofNumber next)
    return .loop { l with rounds := .counting name stop step next }
  | .whileTrue _ => return .loop l
  | .doUntil none _ => return .loop l
  | .doUntil (some test) ending => do
    return if (← Script.eval l.line test).isTruthy == ending then .finish else .loop l

/-- The number of rounds that are left under the cap. -/
def left (l : Loop) : Nat := (l.cap - l.iterations).toNat

/-- The rest of a loop as a script. -/
def script (l : Loop) : Script Unit :=
  match l.rounds with
  | .counting name stop step counter =>
    Script.loop
      (fun counter => if Script.inRange stop step counter then Script.goesOn else pure false)
      (fun counter => do
        Script.setVariable name (.ofNumber counter)
        Script.block l.body
        let next ← Script.advance name step counter
        Script.setVariable name (.ofNumber next)
        return some next)
      (Script.reportRunaway .forLoop l.line) l.left counter
  | .whileTrue test =>
    Script.loop (fun _ => do
        if ← Script.goesOn then return (← Script.eval l.line test).isTruthy else return false)
      (fun _ => do
        Script.block l.body
        return some ())
      (Script.reportRunaway .whileLoop l.line) l.left ()
  | .doUntil test ending =>
    Script.loop (fun _ => Script.goesOn)
      (fun _ => do
        Script.block l.body
        match test with
        | none => return some ()
        | some test =>
          return if (← Script.eval l.line test).isTruthy == ending then none else some ())
      (Script.reportRunaway .doLoop l.line) l.left ()

end Loop

/-- What a statement leads to, as a script. -/
def Next.script : Next → Script Unit
  | .finish => pure ()
  | .block body => Script.block body
  | .loop l => l.script
  | .round l => do
    Script.block l.body
    match ← l.leave with
    | .loop l => l.script
    | _ => pure ()

namespace Loop

theorem left_eq_zero {l : Loop} (h : l.cap ≤ l.iterations) : l.left = 0 := by
  unfold left
  omega

theorem left_eq_succ {l : Loop} (h : ¬ l.cap ≤ l.iterations) : l.left = l.next.left + 1 := by
  simp only [left, next]
  omega

/-- A capped loop is what decides on its next round, followed by what that leads to. -/
theorem loop_eq_enter {σ : Type} {test : σ → Script Bool} {round : σ → Script (Option σ)}
    {runaway : Script Unit} {s : σ} {l : Loop} (htest : test s = l.test)
    (hrunaway : runaway = Script.reportRunaway l.kind l.line)
    (hround : (round s >>= fun
      | some s => Script.loop test round runaway l.next.left s
      | none => pure ()) = l.prepare >>= fun _ => (Next.round l.next).script) :
    Script.loop test round runaway l.left s = l.enter >>= Next.script := by
  by_cases hcap : l.cap ≤ l.iterations
  · -- no round is left, so a test that holds is a runaway
    rw [left_eq_zero hcap]
    refine Eq.trans ?_ (Script.bind_assoc _ _ _).symm
    rw [← htest]
    refine Script.bind_congr _ fun more => ?_
    cases more with
    | true =>
      simp only [if_true, hcap]
      rw [Script.bind_assoc, hrunaway]
      exact (Script.bind_pure _).symm
    | false => rfl
  · rw [left_eq_succ hcap, Script.loop_succ]
    refine Eq.trans (Script.bind_assoc _ _ _) (Eq.trans ?_ (Script.bind_assoc _ _ _).symm)
    rw [← htest]
    refine Script.bind_congr _ fun more => ?_
    cases more with
    | true =>
      simp only [if_true, hcap, if_false]
      rw [Script.bind_assoc]
      exact hround
    | false => rfl

/-- A loop finds out whether there is another round and goes on accordingly. -/
theorem script_eq (l : Loop) : l.script = l.enter >>= Next.script := by
  obtain ⟨rounds, line, body, cap, iterations⟩ := l
  cases rounds with
  | counting name stop step counter =>
    refine loop_eq_enter rfl rfl ?_
    simp only [Script.bind_assoc]
    refine Script.bind_congr _ fun _ => Script.bind_congr _ fun _ => ?_
    refine Eq.trans ?_ (Script.bind_assoc _ _ _).symm
    exact Script.bind_congr _ fun _ => (Script.bind_assoc _ _ _).symm
  | whileTrue test =>
    refine loop_eq_enter rfl rfl ?_
    exact Script.bind_assoc _ _ _
  | doUntil test ending =>
    refine loop_eq_enter rfl rfl ?_
    refine (Script.bind_assoc _ _ _).trans (Script.bind_congr _ fun _ => ?_)
    cases test with
    | none => rfl
    | some test =>
      refine (Script.bind_assoc _ _ _).trans (Eq.trans ?_ (Script.bind_assoc _ _ _).symm)
      refine Script.bind_congr _ fun value => ?_
      by_cases h : (value.isTruthy == ending) = true
      · simp only [h]
        rfl
      · simp only [h]
        rfl

end Loop

/-- The body of the first further branch whose test holds. -/
def chosenBranch? (line : Line) : List ElseIf → Script (Option (List Stmt))
  | [] => pure none
  | .mk test body :: rest => do
    if (← Script.eval line test).isTruthy then return some body else chosenBranch? line rest

/-- A loop that has not gone through any round yet. -/
def beginLoop (rounds : Rounds) (line : Line) (body : List Stmt) : Script Next := do
  return .loop { rounds, line, body, cap := (← Script.world).config.maxIterations, iterations := 0 }

/-- A loop that counts, before its first round; a step of zero leads nowhere. -/
def beginCounting (name : Text) (start stop step : Number) (line : Line) (body : List Stmt) :
    Script Next := do
  Script.setVariable name (.ofNumber start)
  if step.isZero then return .finish
  else beginLoop (.counting name stop step start) line body

/-- What a statement does before it runs any other statement, and what that leads to. -/
def Stmt.begin : Stmt → Script Next
  | .dim name typeName initial line => do
    match initial with
    | some e => Script.setVariable name (← Script.eval line e)
    | none => Script.setVariable name (Library.initialValue typeName)
    return .finish
  | .assign target value line => do
    Script.assign line target (← Script.eval line value)
    return .finish
  | .call target args line => do
    discard (Script.eval line (.call target args))
    return .finish
  | .cond test body elseIfs otherwise line => do
    if (← Script.eval line test).isTruthy then return .block body
    else return .block ((← chosenBranch? line elseIfs).getD otherwise)
  | .forLoop name start stop step body line => do
    let start := (← Script.eval line start).toNumber
    let stop := (← Script.eval line stop).toNumber
    let step ← match step with
      | some e => do pure (← Script.eval line e).toNumber
      | none => pure (.int 1)
    beginCounting name start stop step line body
  | .whileLoop test body line => beginLoop (.whileTrue test) line body
  | .doLoop body test ending _ line => beginLoop (.doUntil test ending) line body
  | .ret _ _ => return .finish
  | .exit _ _ => return .finish
  | .alien kind => Script.throw (.runtime (.unknownStatement kind))

namespace Script

/-- The first further branch whose test holds is run, if there is one. -/
theorem firstBranch_eq (line : Line) (clauses : List ElseIf) :
    firstBranch line clauses = ((do
      match ← chosenBranch? line clauses with
      | some body =>
        block body
        return true
      | none => return false) : Script Bool) := by
  induction clauses with
  | nil => rfl
  | cons clause rest ih =>
    obtain ⟨test, body⟩ := clause
    refine Eq.trans (bind_assoc _ _ _) (Eq.trans ?_ (bind_assoc _ _ _).symm)
    refine bind_congr _ fun value => ?_
    cases value.isTruthy with
    | true => exact bind_assoc _ _ _
    | false => exact ih

/-- A conditional runs the block that it chooses. -/
theorem otherwise_eq (line : Line) (clauses : List ElseIf) (otherwise : List Stmt) :
    (do if ← firstBranch line clauses then pure () else block otherwise : Script Unit) =
      chosenBranch? line clauses >>= fun chosen => block (chosen.getD otherwise) := by
  rw [firstBranch_eq]
  refine (bind_assoc _ _ _).trans (bind_congr _ fun chosen => ?_)
  cases chosen with
  | some body => exact (bind_assoc _ _ _).trans (bind_pure _)
  | none => rfl

theorem cappedLoop_eq_begin {σ : Type} (kind : LoopKind) (line : Line) (test : σ → Script Bool)
    (round : σ → Script (Option σ)) (start : σ) (rounds : Rounds) (body : List Stmt)
    (h : ∀ cap : Int, loop test round (reportRunaway kind line) cap.toNat start =
      Loop.script { rounds, line, body, cap, iterations := 0 }) :
    cappedLoop kind line test round start = beginLoop rounds line body >>= Next.script := by
  funext w
  exact congrFun (h w.config.maxIterations) w

theorem forLoop_eq_begin (line : Line) (name : Text) (start stop step : Number)
    (body : List Stmt) :
    forLoop line name start stop step (block body) =
      beginCounting name start stop step line body >>= Next.script := by
  refine Eq.trans (bind_congr _ fun _ => ?_) (bind_assoc _ _ _).symm
  cases step.isZero with
  | true => rfl
  | false =>
    simp only [Bool.false_eq_true, if_false]
    refine cappedLoop_eq_begin _ _ _ _ _ _ _ fun cap => ?_
    simp only [Loop.script, Loop.left, Int.natCast_zero, Int.sub_zero]

/-- A statement is what it does before it runs any other statement, followed by what that leads
to. -/
theorem exec_eq (s : Stmt) : exec s = onLine s.line (s.begin >>= Next.script) := by
  cases s with
  | dim name typeName initial line =>
    refine congrArg (onLine line) ?_
    cases initial with
    | some e =>
      exact ((bind_assoc _ _ _).trans (bind_congr _ fun _ =>
        (bind_assoc _ _ _).trans (bind_pure _))).symm
    | none => exact ((bind_assoc _ _ _).trans (bind_pure _)).symm
  | assign target value line =>
    refine congrArg (onLine line) ?_
    exact ((bind_assoc _ _ _).trans (bind_congr _ fun _ =>
      (bind_assoc _ _ _).trans (bind_pure _))).symm
  | call target args line =>
    refine congrArg (onLine line) ?_
    exact ((bind_assoc _ _ _).trans (bind_pure _)).symm
  | cond test body elseIfs otherwise line =>
    refine congrArg (onLine line) ?_
    refine Eq.trans ?_ (bind_assoc _ _ _).symm
    refine bind_congr _ fun value => ?_
    cases value.isTruthy with
    | true => rfl
    | false =>
      simp only [Bool.false_eq_true, if_false]
      refine (otherwise_eq line elseIfs otherwise).trans (Eq.trans ?_ (bind_assoc _ _ _).symm)
      exact bind_congr _ fun _ => rfl
  | forLoop name start stop step body line =>
    refine congrArg (onLine line) ?_
    refine Eq.trans (bind_congr _ fun first => ?_) (bind_assoc _ _ _).symm
    refine Eq.trans (bind_congr _ fun last => ?_) (bind_assoc _ _ _).symm
    cases step with
    | none => exact forLoop_eq_begin line name first.toNumber last.toNumber (.int 1) body
    | some e =>
      refine Eq.trans (bind_congr _ fun value => ?_) (bind_assoc _ _ _).symm
      exact forLoop_eq_begin line name first.toNumber last.toNumber value.toNumber body
  | whileLoop test body line =>
    refine congrArg (onLine line) (cappedLoop_eq_begin _ _ _ _ _ _ _ fun cap => ?_)
    simp only [Loop.script, Loop.left, Int.natCast_zero, Int.sub_zero]
  | doLoop body test ending testAtEnd line =>
    refine congrArg (onLine line) (cappedLoop_eq_begin _ _ _ _ _ _ _ fun cap => ?_)
    simp only [Loop.script, Loop.left, Int.natCast_zero, Int.sub_zero]
    cases test <;> rfl
  | ret value line => rfl
  | exit what line => rfl
  | alien kind => rfl

end Script

/-- Whether an outcome can only end with values of some sort. -/
def Outcome.Yields {α : Type} (P : α → Prop) : Outcome α → Prop
  | .done _ a => P a
  | .failed _ _ => True
  | .asking _ _ resume => ∀ w reply, (resume w reply).Yields P
  | .calling _ _ resume => ∀ w reply, (resume w reply).Yields P

/-- Whether a script can only end with values of some sort. -/
def Script.Yields {α : Type} (P : α → Prop) (m : Script α) : Prop := ∀ w, (m w).Yields P

section Yields

variable {α β : Type} {P : β → Prop}

theorem Script.yields_pure {b : β} (h : P b) : (pure b : Script β).Yields P := fun _ => h

theorem Script.yields_throw (fault : Fault) : (Script.throw fault : Script β).Yields P :=
  fun _ => trivial

theorem Outcome.Yields.andThen {Q : α → Prop} {o : Outcome α} (ho : o.Yields Q)
    {next : World → Except Fault α → Outcome β} (hok : ∀ w a, Q a → (next w (.ok a)).Yields P)
    (herror : ∀ w fault, (next w (.error fault)).Yields P) : (o.andThen next).Yields P := by
  induction o with
  | done w a => exact hok w a ho
  | failed w fault => exact herror w fault
  | asking w request resume ih => exact fun w reply => ih w reply (ho w reply)
  | calling w key resume ih => exact fun w reply => ih w reply (ho w reply)

/-- Only the end of a sequence matters. -/
theorem Script.Yields.bind {m : Script α} {Q : α → Prop} (hm : m.Yields Q) {f : α → Script β}
    (hf : ∀ a, Q a → (f a).Yields P) : (m >>= f).Yields P :=
  fun w => (hm w).andThen (fun w a ha => hf a ha w) fun _ _ => trivial

theorem Outcome.Yields.mono {Q : β → Prop} (hPQ : ∀ b, P b → Q b) {o : Outcome β}
    (ho : o.Yields P) : o.Yields Q := by
  induction o with
  | done w b => exact hPQ b ho
  | failed => exact trivial
  | asking w request resume ih => exact fun w reply => ih w reply (ho w reply)
  | calling w key resume ih => exact fun w reply => ih w reply (ho w reply)

theorem Script.yields_any (m : Script α) : m.Yields fun _ => True := by
  intro w
  induction m w with
  | done => exact trivial
  | failed => exact trivial
  | asking w request resume ih => exact ih
  | calling w key resume ih => exact ih

theorem Script.yields_bind (m : Script α) {f : α → Script β} (hf : ∀ a, (f a).Yields P) :
    (m >>= f).Yields P :=
  m.yields_any.bind fun a _ => hf a

end Yields

/-- Whether a statement on a line with some blocks can lead to this. -/
def Next.Within (line : Line) (blocks : List (List Stmt)) : Next → Prop
  | .finish => True
  | .block body => body ∈ blocks
  | .loop l => l.line = line ∧ l.body ∈ blocks
  | .round _ => False

theorem yields_chosenBranch? (line : Line) (clauses : List ElseIf) :
    (chosenBranch? line clauses).Yields fun chosen => ∀ body ∈ chosen, body ∈
      clauses.map fun
        | .mk _ body => body := by
  induction clauses with
  | nil => exact Script.yields_pure fun _ h => absurd h (Option.not_mem_none _)
  | cons clause rest ih =>
    obtain ⟨test, body⟩ := clause
    refine Script.yields_bind _ fun value => ?_
    split
    · refine Script.yields_pure fun chosen hchosen => ?_
      obtain rfl := Option.some.inj hchosen
      exact List.mem_cons_self
    · intro w
      exact (ih w).mono fun chosen h b hb => List.mem_cons_of_mem _ (h b hb)

theorem yields_beginLoop (rounds : Rounds) (line : Line) {body : List Stmt}
    {blocks : List (List Stmt)} (h : body ∈ blocks) :
    (beginLoop rounds line body).Yields (Next.Within line blocks) :=
  Script.yields_bind _ fun _ => Script.yields_pure ⟨rfl, h⟩

theorem yields_beginCounting (name : Text) (start stop step : Number) (line : Line)
    {body : List Stmt} {blocks : List (List Stmt)} (h : body ∈ blocks) :
    (beginCounting name start stop step line body).Yields (Next.Within line blocks) := by
  refine Script.yields_bind _ fun _ => ?_
  split
  · exact Script.yields_pure trivial
  · exact yields_beginLoop _ _ h

/-- A statement leads to one of its blocks at most, and to a loop on its own line. -/
theorem Stmt.yields_begin (s : Stmt) : s.begin.Yields (Next.Within s.line s.blocks) := by
  have hfinish : ∀ blocks, (pure Next.finish : Script Next).Yields (Next.Within s.line blocks) :=
    fun _ => Script.yields_pure trivial
  cases s with
  | dim name typeName initial line =>
    cases initial with
    | some e => exact Script.yields_bind _ fun _ => Script.yields_bind _ fun _ => hfinish _
    | none => exact Script.yields_bind _ fun _ => hfinish _
  | assign target value line =>
    exact Script.yields_bind _ fun _ => Script.yields_bind _ fun _ => hfinish _
  | call target args line => exact Script.yields_bind _ fun _ => hfinish _
  | cond test body elseIfs otherwise line =>
    refine Script.yields_bind _ fun value => ?_
    split
    · exact Script.yields_pure List.mem_cons_self
    · refine (yields_chosenBranch? line elseIfs).bind fun chosen hchosen => ?_
      refine Script.yields_pure ?_
      cases chosen with
      | none => exact List.mem_cons_of_mem _ List.mem_cons_self
      | some chosen => exact List.mem_cons_of_mem _ (List.mem_cons_of_mem _ (hchosen chosen rfl))
  | forLoop name start stop step body line =>
    have hmem : body ∈ [body] := List.mem_singleton_self body
    refine Script.yields_bind _ fun first => Script.yields_bind _ fun last => ?_
    cases step with
    | none => exact Script.yields_bind _ fun step => yields_beginCounting name _ _ step line hmem
    | some e =>
      exact Script.yields_bind _ fun _ => Script.yields_bind _ fun step =>
        yields_beginCounting name _ _ step line hmem
  | whileLoop test body line => exact yields_beginLoop _ _ (List.mem_singleton_self body)
  | doLoop body test ending testAtEnd line =>
    exact yields_beginLoop _ _ (List.mem_singleton_self body)
  | ret value line => exact hfinish _
  | exit what line => exact hfinish _
  | alien kind => exact Script.yields_throw _

/-- A loop goes on only while there are rounds left. -/
theorem Loop.yields_enter (l : Loop) :
    l.enter.Yields fun next => next = .finish ∨ next = .round l.next ∧ l.next.left < l.left := by
  refine Script.yields_bind _ fun more => ?_
  split
  · split
    · exact Script.yields_bind _ fun _ => Script.yields_pure (.inl rfl)
    · next hcap =>
      refine Script.yields_bind _ fun _ => Script.yields_pure (.inr ⟨rfl, ?_⟩)
      rw [left_eq_succ hcap]
      exact Nat.lt_succ_self _
  · exact Script.yields_pure (.inl rfl)

/-- A loop that goes on after a round is the same loop as far as its place, its body and its cap
go. -/
theorem Loop.yields_leave (l : Loop) :
    l.leave.Yields fun next => next = .finish ∨
      ∃ l', next = .loop l' ∧ l'.line = l.line ∧ l'.body = l.body ∧ l'.left = l.left := by
  obtain ⟨rounds, line, body, cap, iterations⟩ := l
  cases rounds with
  | counting name stop step counter =>
    exact Script.yields_bind _ fun _ => Script.yields_bind _ fun _ =>
      Script.yields_pure (.inr ⟨_, rfl, rfl, rfl, rfl⟩)
  | whileTrue test => exact Script.yields_pure (.inr ⟨_, rfl, rfl, rfl, rfl⟩)
  | doUntil test ending =>
    cases test with
    | none => exact Script.yields_pure (.inr ⟨_, rfl, rfl, rfl, rfl⟩)
    | some test =>
      refine Script.yields_bind _ fun value => Script.yields_pure ?_
      split
      · exact .inl rfl
      · exact .inr ⟨_, rfl, rfl, rfl, rfl⟩

section Orderly

open Script

variable {k : Conduct}

theorem orderly_chosenBranch? {line : Line} (hline : k.Owns line) (clauses : List ElseIf) :
    (chosenBranch? line clauses).Orderly k := by
  induction clauses with
  | nil => exact orderly_pure none
  | cons clause rest ih =>
    obtain ⟨test, body⟩ := clause
    refine (orderly_eval hline test).bind fun value => ?_
    split
    · exact orderly_pure _
    · exact ih

theorem orderly_beginLoop (rounds : Rounds) (line : Line) (body : List Stmt) :
    (beginLoop rounds line body).Orderly k :=
  orderly_world.bind fun _ => orderly_pure _

variable (hall : ∀ name, k.names name)

include hall

theorem orderly_beginCounting (name : Text) (start stop step : Number) (line : Line)
    (body : List Stmt) : (beginCounting name start stop step line body).Orderly k := by
  refine (orderly_setVariable (hall name) _).bind fun _ => ?_
  split
  · exact orderly_pure _
  · exact orderly_beginLoop _ _ _

theorem Stmt.orderly_begin (s : Stmt) (hline : k.Owns s.line) : s.begin.Orderly k := by
  cases s with
  | dim name typeName initial line =>
    cases initial with
    | some e =>
      exact (orderly_eval hline e).bind fun _ => (orderly_setVariable (hall name) _).bind fun _ =>
        orderly_pure _
    | none => exact (orderly_setVariable (hall name) _).bind fun _ => orderly_pure _
  | assign target value line =>
    exact (orderly_eval hline value).bind fun _ =>
      (orderly_assign hline target _ fun name _ => hall name).bind fun _ => orderly_pure _
  | call target args line => exact (orderly_eval hline _).discard.bind fun _ => orderly_pure _
  | cond test body elseIfs otherwise line =>
    refine (orderly_eval hline test).bind fun value => ?_
    split
    · exact orderly_pure _
    · exact (orderly_chosenBranch? hline elseIfs).bind fun _ => orderly_pure _
  | forLoop name start stop step body line =>
    refine (orderly_eval hline start).bind fun _ => (orderly_eval hline stop).bind fun _ => ?_
    cases step with
    | none =>
      exact (orderly_pure _).bind fun step => orderly_beginCounting hall name _ _ step line body
    | some e =>
      exact (orderly_eval hline e).bind fun _ => (orderly_pure _).bind fun step =>
        orderly_beginCounting hall name _ _ step line body
  | whileLoop test body line => exact orderly_beginLoop _ _ _
  | doLoop body test ending testAtEnd line => exact orderly_beginLoop _ _ _
  | ret value line => exact orderly_pure _
  | exit what line => exact orderly_pure _
  | alien kind => exact orderly_throw (k.arises rfl)

theorem Loop.orderly_enter (l : Loop) (hline : k.Owns l.line) : l.enter.Orderly k := by
  have htest : l.test.Orderly k := by
    unfold Loop.test
    split
    · split
      · exact orderly_goesOn
      · exact orderly_pure _
    · refine orderly_goesOn.bind fun more => ?_
      split
      · exact (orderly_eval hline _).bind fun _ => orderly_pure _
      · exact orderly_pure _
    · exact orderly_goesOn
  have hrunaway : (reportRunaway l.kind l.line).Orderly k :=
    orderly_world.bind fun _ => orderly_report _ _
  have hprepare : l.prepare.Orderly k := by
    unfold Loop.prepare
    split
    · exact orderly_setVariable (hall _) _
    · exact orderly_pure _
  refine htest.bind fun more => ?_
  split
  · split
    · exact hrunaway.bind fun _ => orderly_pure _
    · exact hprepare.bind fun _ => orderly_pure _
  · exact orderly_pure _

theorem Loop.orderly_leave (l : Loop) (hline : k.Owns l.line) : l.leave.Orderly k := by
  unfold Loop.leave
  split
  · exact (orderly_advance _ _ _).bind fun _ => (orderly_setVariable (hall _) _).bind fun _ =>
      orderly_pure _
  · exact orderly_pure _
  · exact orderly_pure _
  · exact (orderly_eval hline _).bind fun _ => orderly_pure _

end Orderly

section Tidy

theorem Stmt.tidy_begin (s : Stmt) : s.begin.Tidy :=
  s.orderly_begin (fun _ => trivial) fun _ => trivial

theorem Loop.tidy_enter (l : Loop) : l.enter.Tidy :=
  l.orderly_enter (fun _ => trivial) fun _ => trivial

theorem Loop.tidy_leave (l : Loop) : l.leave.Tidy :=
  l.orderly_leave (fun _ => trivial) fun _ => trivial

end Tidy

end FormBasic
