import FormBasic.Proofs.Script.Histories

/-!
# Loops with a condition

There are two ways to repeat a body as long as a condition holds: a loop with its test in front, and
a conditional around a loop with its test at the end. As long as nobody stops or pauses the session,
both go through the same rounds, and they differ in nothing but the name by which they report a
runaway.

The two loops are written apart: one asks for the cap after its condition, the other before its
body. Between these places nothing happens in a session that goes on, and this is what relates them:
two scripts agree if they have the same histories in sessions that go on, and agreement is kept by
sequences and by looking at whether the session goes on.

## Main definitions

* `Undisturbed` - histories in which a session goes on, under the same cap
* `Script.Agree` - scripts with the same undisturbed histories
* `Script.runWhile` - the rounds of a loop with a condition
* `Script.EndsAs` - how a loop of a kind ends after its rounds

## Main statements

* `Script.Agree.bind` - agreement is kept by sequences
* `Script.agree_whileLoop`, `Script.agree_doLoop` - both loops go through these rounds
* `Script.while_agrees_with_do` - the two loops as statements
-/

namespace FormBasic

-- ════════════════════════════════════════════════════════════════════════════
-- Undisturbed histories
-- ════════════════════════════════════════════════════════════════════════════

namespace World

variable {names : Text → Prop} {w w' : World}

theorem Change.config_eq (h : Change names w w') : w'.config = w.config := by
  cases h with
  | timer hsync =>
    obtain ⟨rfl, -⟩ | ⟨c, -, -, ⟨-, -, rfl⟩ | ⟨-, -, rfl⟩⟩ := synchronize_cases hsync <;> rfl
  | _ => rfl

theorem Changes.config_eq (h : Changes names w w') : w'.config = w.config := by
  induction h with
  | refl => rfl
  | tail _ hstep ih => exact hstep.config_eq.trans ih

/-- Between two waits nothing makes a session go on that is stopped or paused. -/
theorem Change.goesOn (h : Change names w w') (hw' : w'.halted = false) : w.halted = false := by
  cases h with
  | timer hsync =>
    obtain ⟨rfl, -⟩ | ⟨c, -, -, ⟨-, -, rfl⟩ | ⟨-, -, rfl⟩⟩ := synchronize_cases hsync <;> exact hw'
  | stop => cases hw'
  | _ => exact hw'

theorem Changes.goesOn (h : Changes names w w') (hw' : w'.halted = false) : w.halted = false := by
  induction h with
  | refl => exact hw'
  | tail _ hstep ih => exact ih (hstep.goesOn hw')

end World

/-- Whether a session goes on throughout a history, and keeps the cap of its settings. -/
structure Undisturbed (cap : Int) (history : List Exchange) (finish : World) : Prop where
  left : ∀ e ∈ history, e.left.halted = false
  found : ∀ e ∈ history, e.found.config.maxIterations = cap
  finish : finish.halted = false

section Tidy

variable {α : Type} {cap : Int} {history first second : List Exchange} {w w' w₁ : World}
  {o : Outcome α} {result : Except Fault α}

theorem Undisturbed.left_part (h : Undisturbed cap (first ++ second) w') (hw₁ : w₁.halted = false) :
    Undisturbed cap first w₁ where
  left e he := h.left e (List.mem_append_left _ he)
  found e he := h.found e (List.mem_append_left _ he)
  finish := hw₁

theorem Undisturbed.right_part (h : Undisturbed cap (first ++ second) w') :
    Undisturbed cap second w' where
  left e he := h.left e (List.mem_append_right _ he)
  found e he := h.found e (List.mem_append_right _ he)
  finish := h.finish

theorem Undisturbed.tail {e : Exchange} (h : Undisturbed cap (e :: history) w') :
    Undisturbed cap history w' where
  left e he := h.left e (List.mem_cons_of_mem _ he)
  found e he := h.found e (List.mem_cons_of_mem _ he)
  finish := h.finish

namespace Outcome.Tidy

/-- An undisturbed history begins in a session that goes on. -/
theorem goesOn (ho : o.Tidy w) (h : o.Traces history w' result) (hu : Undisturbed cap history w') :
    w.halted = false := by
  cases h with
  | done => exact World.Changes.goesOn ho hu.finish
  | failed => exact World.Changes.goesOn ho.1 hu.finish
  | asking =>
    obtain ⟨⟨before, hbefore, rfl⟩, -⟩ := of_asking ho
    exact hbefore.goesOn (hu.left _ List.mem_cons_self)
  | calling => exact (of_calling ho).1.goesOn (hu.left _ List.mem_cons_self)

theorem maxIterations_eq (ho : o.Tidy w) (h : o.Traces history w' result)
    (hu : Undisturbed cap history w') (hcap : w.config.maxIterations = cap) :
    w'.config.maxIterations = cap := by
  induction h generalizing w with
  | done => rw [World.Changes.config_eq ho, hcap]
  | failed => rw [World.Changes.config_eq ho.1, hcap]
  | asking rest ih =>
    exact ih ((of_asking ho).2 _ _) hu.tail (hu.found _ List.mem_cons_self)
  | calling rest ih =>
    exact ih ((of_calling ho).2 _ _) hu.tail (hu.found _ List.mem_cons_self)

end Outcome.Tidy

end Tidy

namespace Script

variable {α β : Type} {cap : Int}

-- ════════════════════════════════════════════════════════════════════════════
-- Agreement
-- ════════════════════════════════════════════════════════════════════════════

/-- Whether two scripts have the same undisturbed histories. -/
structure Agree (cap : Int) (m m' : Script α) : Prop where
  tidy : m.Tidy
  tidy' : m'.Tidy
  traces : ∀ {history : List Exchange} {w w' : World} {result : Except Fault α},
    w.halted = false → w.config.maxIterations = cap → Undisturbed cap history w' →
      ((m w).Traces history w' result ↔ (m' w).Traces history w' result)

namespace Agree

variable {m m' m'' : Script α} {f f' : α → Script β}

theorem refl (hm : m.Tidy) : Agree cap m m := ⟨hm, hm, fun _ _ _ => .rfl⟩

theorem symm (h : Agree cap m m') : Agree cap m' m :=
  ⟨h.tidy', h.tidy, fun hw hcap hu => (h.traces hw hcap hu).symm⟩

theorem trans (h : Agree cap m m') (h' : Agree cap m' m'') : Agree cap m m'' :=
  ⟨h.tidy, h'.tidy', fun hw hcap hu => (h.traces hw hcap hu).trans (h'.traces hw hcap hu)⟩

theorem eq_trans (h' : Agree cap m' m'') (h : m = m') : Agree cap m m'' := h ▸ h'

/-- Scripts agree that do the same in sessions that go on. -/
theorem of_eq (hm : m.Tidy) (hm' : m'.Tidy)
    (h : ∀ w, w.halted = false → w.config.maxIterations = cap → m w = m' w) : Agree cap m m' :=
  ⟨hm, hm', fun hw hcap _ => by rw [h _ hw hcap]⟩

theorem traces_bind (hm : Agree cap m m') (hf : ∀ a, Agree cap (f a) (f' a))
    {history : List Exchange} {w w' : World} {result : Except Fault β} (hw : w.halted = false)
    (hcap : w.config.maxIterations = cap) (hu : Undisturbed cap history w')
    (h : ((m >>= f) w).Traces history w' result) : ((m' >>= f') w).Traces history w' result := by
  obtain ⟨fault, hfirst, rfl⟩ | ⟨first, second, w₁, a, rfl, hfirst, hsecond⟩ :=
    Script.traces_bind.1 h
  · exact Script.traces_bind.2 (.inl ⟨fault, (hm.traces hw hcap hu).1 hfirst, rfl⟩)
  · have hw₁ : w₁.halted = false := Outcome.Tidy.goesOn ((hf a).tidy w₁) hsecond hu.right_part
    have hcap₁ : w₁.config.maxIterations = cap :=
      Outcome.Tidy.maxIterations_eq (hm.tidy w) hfirst (hu.left_part hw₁) hcap
    exact Script.traces_bind.2 (.inr ⟨first, second, w₁, a, rfl,
      (hm.traces hw hcap (hu.left_part hw₁)).1 hfirst,
      ((hf a).traces hw₁ hcap₁ hu.right_part).1 hsecond⟩)

theorem bind (hm : Agree cap m m') (hf : ∀ a, Agree cap (f a) (f' a)) :
    Agree cap (m >>= f) (m' >>= f') where
  tidy := hm.tidy.bind fun a => (hf a).tidy
  tidy' := hm.tidy'.bind fun a => (hf a).tidy'
  traces hw hcap hu := ⟨hm.traces_bind hf hw hcap hu,
    hm.symm.traces_bind (fun a => (hf a).symm) hw hcap hu⟩

/-- Agreement goes through a choice. -/
theorem choose {test test' : Script Bool} {m m' : Script Unit} (htest : Agree cap test test')
    (hm : Agree cap m m') :
    Agree cap (do if ← test then m : Script Unit) (do if ← test' then m' : Script Unit) := by
  refine htest.bind fun more => ?_
  cases more with
  | true => exact hm
  | false => exact .refl (orderly_pure ())

theorem attributed {m m' : Script Unit} (h : Agree cap m m') (line : Line) :
    Agree cap (mapFault (Fault.attribute line) m) (mapFault (Fault.attribute line) m') where
  tidy := h.tidy.attribute Conduct.lenient_any line
  tidy' := h.tidy'.attribute Conduct.lenient_any line
  traces hw hcap hu := by
    simp only [traces_mapFault]
    exact exists_congr fun result => and_congr_left' (h.traces hw hcap hu)

end Agree

theorem tidy_goesOn {m : Script α} (hm : m.Tidy) (a : α) :
    (do if ← goesOn then m else pure a : Script α).Tidy := by
  refine orderly_goesOn.bind fun more => ?_
  split
  · exact hm
  · exact orderly_pure a

/-- In a session that goes on it makes no difference whether a script looks at that first. -/
theorem agree_goesOn {m : Script α} (hm : m.Tidy) (a : α) :
    Agree cap (do if ← goesOn then m else pure a : Script α) m := by
  refine .of_eq (tidy_goesOn hm a) hm fun w hw _ => ?_
  show (if !w.halted then m else pure a : Script α) w = m w
  rw [hw]
  rfl

theorem agree_onLine {m : Script Unit} (hm : m.Tidy) (line : Line) :
    Agree cap (onLine line m) (mapFault (Fault.attribute line) m) := by
  have hk := Conduct.lenient_any
  refine .of_eq (hm.onLine hk line) (hm.attribute hk line) fun w hw _ => ?_
  rw [World.halted, Bool.or_eq_false_iff] at hw
  rw [onLine_apply, hw.1]
  rfl

theorem agree_block_singleton (s : Stmt) : Agree cap (block [s]) (exec s) := by
  refine .of_eq (tidy_block [s]) (orderly_exec Conduct.lenient_any s fun _ _ => trivial)
    fun w hw _ => ?_
  rw [block_cons_apply, hw]
  exact congrFun (bind_pure (exec s)) w

theorem tidy_reportRunaway (kind : LoopKind) (line : Line) : (reportRunaway kind line).Tidy :=
  orderly_world.bind fun _ => orderly_report _ _

theorem agree_cappedLoop {σ : Type} (kind : LoopKind) (line : Line) {test : σ → Script Bool}
    {round : σ → Script (Option σ)} (htest : ∀ s, (test s).Tidy) (hround : ∀ s, (round s).Tidy)
    (start : σ) : Agree cap (cappedLoop kind line test round start)
      (loop test round (reportRunaway kind line) cap.toNat start) := by
  refine .of_eq (orderly_cappedLoop kind line htest hround start)
    (Orderly.loop htest hround (tidy_reportRunaway kind line) _ _) fun w _ hcap => ?_
  rw [← hcap]
  rfl

-- ════════════════════════════════════════════════════════════════════════════
-- Rounds
-- ════════════════════════════════════════════════════════════════════════════

/-- Whether a condition holds. -/
def holds (condition : Script Value) : Script Bool := do return (← condition).isTruthy

/-- Runs the body as long as the condition holds before it, at most as often as allowed; whether the
condition holds in the end. -/
def runWhile (condition : Script Value) (body : Script Unit) : Nat → Script Bool
  | 0 => holds condition
  | rounds + 1 => do
    if ← holds condition then
      body
      runWhile condition body rounds
    else return false

/-- Runs the body as long as the condition holds before it, and deals with a runaway. -/
def repeatWhile (condition : Script Value) (body runaway : Script Unit) (rounds : Nat) :
    Script Unit := do
  if ← runWhile condition body rounds then runaway

section Rounds

variable {condition : Script Value} {body runaway : Script Unit}

theorem repeatWhile_succ (condition : Script Value) (body runaway : Script Unit) (rounds : Nat) :
    repeatWhile condition body runaway (rounds + 1) = (do
      if ← holds condition then
        body
        repeatWhile condition body runaway rounds : Script Unit) := by
  refine (bind_assoc _ _ _).trans (bind_congr _ fun more => ?_)
  cases more with
  | true => exact bind_assoc _ _ _
  | false => rfl

theorem tidy_holds (hcondition : condition.Tidy) : (holds condition).Tidy :=
  hcondition.bind fun _ => orderly_pure _

/-- The rounds of a loop with its test in front, in a session that goes on. -/
theorem agree_loop_while (hcondition : condition.Tidy) (hbody : body.Tidy) (hrunaway : runaway.Tidy)
    (rounds : Nat) :
    Agree cap
      (loop (fun _ => do if ← goesOn then holds condition else return false)
        (fun _ => do body; return some ()) runaway rounds ())
      (repeatWhile condition body runaway rounds) := by
  have htest : Agree cap (do if ← goesOn then holds condition else return false)
      (holds condition) := agree_goesOn (tidy_holds hcondition) false
  induction rounds with
  | zero => exact htest.choose (.refl hrunaway)
  | succ rounds ih =>
    rw [loop_succ, bind_assoc, repeatWhile_succ]
    refine htest.bind fun more => ?_
    cases more with
    | false => exact .refl (orderly_pure ())
    | true =>
      rw [if_pos rfl, if_pos rfl, bind_assoc]
      exact (Agree.refl hbody).bind fun _ => ih

/-- One round of a loop with its test at the end: the body, and then the condition, which decides
whether there is another one. -/
def roundUntilFalse (condition : Script Value) (body : Script Unit) : Script (Option Unit) := do
  body
  return if (← condition).isTruthy == false then none else some ()

theorem tidy_roundUntilFalse (hcondition : condition.Tidy) (hbody : body.Tidy) :
    (roundUntilFalse condition body).Tidy :=
  hbody.bind fun _ => hcondition.bind fun _ => orderly_pure _

/-- What follows a round of a loop with its test at the end is chosen by the condition. -/
theorem roundUntilFalse_bind (condition : Script Value) (body : Script Unit)
    (rest : Option Unit → Script Unit) :
    roundUntilFalse condition body >>= rest =
      (do body; if ← holds condition then rest (some ()) else rest none) := by
  refine (bind_assoc _ _ _).trans (bind_congr _ fun _ => ?_)
  refine (bind_assoc _ _ _).trans (Eq.trans (bind_congr _ fun value => ?_) (bind_assoc _ _ _).symm)
  show rest (if (value.isTruthy == false) = true then none else some ()) =
    if value.isTruthy then rest (some ()) else rest none
  cases value.isTruthy <;> rfl

/-- The rounds of a loop with its test at the end, behind the same test, in a session that goes
on. -/
theorem agree_loop_do (hcondition : condition.Tidy) (hbody : body.Tidy) (hrunaway : runaway.Tidy)
    (rounds : Nat) :
    Agree cap
      (do
        if ← holds condition then
          loop (fun _ => goesOn) (fun _ => roundUntilFalse condition body) runaway rounds () :
        Script Unit)
      (repeatWhile condition body runaway rounds) := by
  have hround := tidy_roundUntilFalse hcondition hbody
  induction rounds with
  | zero => exact (Agree.refl (tidy_holds hcondition)).choose (agree_goesOn hrunaway ())
  | succ rounds ih =>
    rw [repeatWhile_succ]
    refine (Agree.refl (tidy_holds hcondition)).choose ?_
    rw [loop_succ]
    refine Agree.trans ((agree_goesOn hround none).bind fun next => .refl ?_) ?_
    · cases next with
      | some => exact Orderly.loop (fun _ => orderly_goesOn) (fun _ => hround) hrunaway _ _
      | none => exact orderly_pure ()
    · exact ((Agree.refl hbody).bind fun _ => ih).eq_trans (roundUntilFalse_bind condition body _)

/-- A loop with its test in front goes through its rounds in a session that goes on. -/
theorem agree_whileLoop (hcondition : condition.Tidy) (hbody : body.Tidy) (line : Line) :
    Agree cap (whileLoop line condition body)
      (repeatWhile condition body (reportRunaway .whileLoop line) cap.toNat) := by
  have htest : (do if ← goesOn then holds condition else return false : Script Bool).Tidy :=
    tidy_goesOn (tidy_holds hcondition) false
  have hround : (do body; return some () : Script (Option Unit)).Tidy :=
    hbody.bind fun _ => orderly_pure _
  exact (agree_cappedLoop _ _ (fun _ => htest) (fun _ => hround) ()).trans
    (agree_loop_while hcondition hbody (tidy_reportRunaway _ line) cap.toNat)

/-- A loop with its test at the end, behind the same test, goes through the same rounds in a session
that goes on. -/
theorem agree_doLoop (hcondition : condition.Tidy) (hbody : body.Tidy) (line : Line) :
    Agree cap (do if ← holds condition then doLoop line body (some condition) false : Script Unit)
      (repeatWhile condition body (reportRunaway .doLoop line) cap.toNat) := by
  have hround := tidy_roundUntilFalse hcondition hbody
  exact ((Agree.refl (tidy_holds hcondition)).choose
    (agree_cappedLoop _ _ (fun _ => orderly_goesOn) (fun _ => hround) ())).trans
    (agree_loop_do hcondition hbody (tidy_reportRunaway _ line) cap.toNat)

end Rounds

-- ════════════════════════════════════════════════════════════════════════════
-- Statements
-- ════════════════════════════════════════════════════════════════════════════

/-- How a loop of a kind ends after its rounds, as a statement at a line: the condition does not hold
any more, or something fails, or the condition still holds and a runaway is reported. -/
inductive EndsAs (kind : LoopKind) (line : Line) (rounds : Script Bool) (w : World) :
    List Exchange → World → Except Fault Unit → Prop where
  | ended {history : List Exchange} {w' : World} {more : Except Fault Bool}
    (ran : (rounds w).Traces history w' more) (ends : more ≠ .ok true) :
    EndsAs kind line rounds w history w'
      ((more.map fun _ => ()).mapError (Fault.attribute line))
  | runaway {history : List Exchange} {w₁ w' : World} {reply : Except Fault Unit}
    (ran : (rounds w).Traces history w₁ (.ok true)) :
    EndsAs kind line rounds w (history ++ [.asked
        (.errorReport (runawayMessage kind w₁.config.maxIterations) line) w₁ w' reply]) w'
      (reply.mapError (Fault.attribute line))

theorem traces_repeatWhile {kind : LoopKind} {line : Line} {condition : Script Value}
    {body : Script Unit} {rounds : Nat} {history : List Exchange} {w w' : World}
    {result : Except Fault Unit} :
    (mapFault (Fault.attribute line)
        (repeatWhile condition body (reportRunaway kind line) rounds) w).Traces history w' result ↔
      EndsAs kind line (runWhile condition body rounds) w history w' result := by
  constructor
  · intro h
    obtain ⟨ended, hrepeat, rfl⟩ := traces_mapFault.1 h
    obtain ⟨fault, ran, rfl⟩ | ⟨first, second, w₁, more, rfl, ran, hrest⟩ := traces_bind.1 hrepeat
    · exact .ended ran nofun
    cases more with
    | true =>
      obtain rfl := traces_ask.1 hrest
      exact .runaway ran
    | false =>
      obtain ⟨rfl, rfl, rfl⟩ := traces_pure.1 hrest
      rw [List.append_nil]
      exact .ended ran nofun
  · intro h
    cases h with
    | @ended _ _ more ran ends =>
      refine traces_mapFault.2 ⟨_, ?_, rfl⟩
      cases more with
      | error fault => exact traces_bind.2 (.inl ⟨fault, ran, rfl⟩)
      | ok more =>
        cases more with
        | true => exact absurd rfl ends
        | false =>
          refine traces_bind.2 (.inr ⟨history, [], w', false, ?_, ran, .done _ _⟩)
          exact (List.append_nil history).symm
    | runaway ran =>
      exact traces_mapFault.2 ⟨_, traces_bind.2 (.inr ⟨_, _, _, true, rfl, ran, traces_ask.2 rfl⟩),
        rfl⟩

/-- A fault that is attributed to a line already is not attributed again. -/
theorem attributed_choose (line : Line) (test : Script Bool) (m : Script Unit) :
    mapFault (Fault.attribute line) (do if ← test then mapFault (Fault.attribute line) m) =
      mapFault (Fault.attribute line) (do if ← test then m) := by
  funext w
  refine (Outcome.andThen_assoc _ _ _).trans (Eq.trans ?_ (Outcome.andThen_assoc _ _ _).symm)
  refine congrArg (Outcome.andThen (test w)) ?_
  funext w result
  rcases result with fault | more
  · rfl
  cases more with
  | false => rfl
  | true =>
    refine (Outcome.andThen_assoc _ _ _).trans (congrArg (Outcome.andThen (m w)) ?_)
    funext w result
    cases result with
    | ok => rfl
    | error fault =>
      show Outcome.failed w ((fault.attribute line).attribute line) = .failed w (fault.attribute line)
      rw [Fault.attribute_attribute, Option.or_self]

/-- A conditional with one branch runs it if its condition holds. -/
theorem cond_eq (condition : Expr) (body : List Stmt) (line : Line) :
    (do
      if (← eval line condition).isTruthy then block body
      else if ← firstBranch line [] then pure ()
      else block [] : Script Unit) =
      (do if ← holds (eval line condition) then block body) := by
  symm
  exact (bind_assoc (eval line condition) _ _).trans (bind_congr _ fun _ => rfl)

/-- In a session that goes on, and under the same cap throughout, both ways of repeating a body as
long as a condition holds go through the same rounds. They end in the same way, too, except that a
runaway is reported as one of the loop's own kind. -/
theorem while_agrees_with_do (condition : Expr) (body : List Stmt) (line : Line)
    {history : List Exchange} {w w' : World} {result : Except Fault Unit} (hw : w.halted = false)
    (hu : Undisturbed w.config.maxIterations history w') :
    ((exec (.whileLoop condition body line) w).Traces history w' result ↔
      EndsAs .whileLoop line
        (runWhile (eval line condition) (block body) w.config.maxIterations.toNat)
        w history w' result) ∧
    ((exec (.cond condition [.doLoop body (some condition) false true line] [] [] line) w).Traces
        history w' result ↔
      EndsAs .doLoop line
        (runWhile (eval line condition) (block body) w.config.maxIterations.toNat)
        w history w' result) := by
  have hcondition : (eval line condition).Tidy := orderly_eval (Conduct.lenient_any.owns line) _
  have hbody := tidy_block body
  simp only [← traces_repeatWhile]
  constructor
  · have hloop : Agree w.config.maxIterations _ _ := agree_whileLoop hcondition hbody line
    refine Agree.traces ?_ hw rfl hu
    exact (agree_onLine hloop.tidy line).trans (hloop.attributed line)
  · have hloop : Agree w.config.maxIterations _ _ := agree_doLoop hcondition hbody line
    refine Agree.traces ?_ hw rfl hu
    refine Agree.trans ?_ (hloop.attributed line)
    rw [← attributed_choose]
    have hdo : (doLoop line (block body) (some (eval line condition)) false).Tidy :=
      orderly_doLoop line hbody (fun c hc => by cases hc; exact hcondition) false
    have hbranch : Agree w.config.maxIterations _ _ :=
      (agree_block_singleton (.doLoop body (some condition) false true line)).trans
        (agree_onLine hdo line)
    have hchosen := ((Agree.refl (tidy_holds hcondition)).choose hbranch).eq_trans
      (cond_eq condition _ line)
    exact (agree_onLine hchosen.tidy line).trans (hchosen.attributed line)

/-- A condition that asks the host. -/
def moreWanted : Expr := .call (.ident "InputBox") [.string "More?"]

/-- A world in which loops are allowed one round. -/
def oneRound : World where
  config := { maxIterations := 1 }

/-- The host wants more, twice, and is told of the runaway of a loop of a kind. -/
def wantedTwice (kind : LoopKind) : List Exchange :=
  let wanted := .asked (.inputBox "More?" none none) oneRound oneRound (.ok (Value.text "y"))
  [wanted, wanted, .asked (.errorReport (runawayMessage kind 1) (.ofNat 1)) oneRound oneRound (.ok ())]

theorem undisturbed_wantedTwice (kind : LoopKind) : Undisturbed 1 (wantedTwice kind) oneRound where
  left e he := by
    simp only [wantedTwice, List.mem_cons, List.not_mem_nil, or_false] at he
    obtain rfl | rfl | rfl := he <;> rfl
  found e he := by
    simp only [wantedTwice, List.mem_cons, List.not_mem_nil, or_false] at he
    obtain rfl | rfl | rfl := he <;> rfl
  finish := rfl

/-- Both loops ask twice and then report a runaway, each of its own kind. -/
theorem while_agrees_with_do_moreWanted :
    (exec (.whileLoop moreWanted [] (.ofNat 1)) oneRound).Traces (wantedTwice .whileLoop) oneRound
      (.ok ()) ∧
    EndsAs .whileLoop (.ofNat 1) (runWhile (eval (.ofNat 1) moreWanted) (block []) 1) oneRound
      (wantedTwice .whileLoop) oneRound (.ok ()) ∧
    (exec (.cond moreWanted [.doLoop [] (some moreWanted) false true (.ofNat 1)] [] [] (.ofNat 1))
      oneRound).Traces (wantedTwice .doLoop) oneRound (.ok ()) ∧
    EndsAs .doLoop (.ofNat 1) (runWhile (eval (.ofNat 1) moreWanted) (block []) 1) oneRound
      (wantedTwice .doLoop) oneRound (.ok ()) := by
  have hwhile : (exec (.whileLoop moreWanted [] (.ofNat 1)) oneRound).Traces
      (wantedTwice .whileLoop) oneRound (.ok ()) := .asking (.asking (.asking (.done _ _)))
  have hdo : (exec (.cond moreWanted [.doLoop [] (some moreWanted) false true (.ofNat 1)] [] []
      (.ofNat 1)) oneRound).Traces (wantedTwice .doLoop) oneRound (.ok ()) :=
    .asking (.asking (.asking (.done _ _)))
  exact ⟨hwhile, (while_agrees_with_do moreWanted [] (.ofNat 1) rfl (undisturbed_wantedTwice _)).1.1
      hwhile, hdo,
    (while_agrees_with_do moreWanted [] (.ofNat 1) rfl (undisturbed_wantedTwice _)).2.1 hdo⟩

end Script

end FormBasic
