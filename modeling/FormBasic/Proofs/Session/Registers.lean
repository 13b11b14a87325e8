import FormBasic.Proofs.Session.Unwinding

/-!
# Registers

An interpreter keeps the names of the handlers that are running and the current line in two
registers. It writes them when it begins a handler or a statement; when it leaves it, with or without
an error, it takes away what it added or writes back what it saved. An error that has no line yet gets
the line that is current when a statement is left. The machine has no registers, it reads both off
its continuations. Here the same steps are done with registers, and these always hold what the
machine reads: so whatever is begun leaves the registers as it found them.

## Main definitions

* `Activation` - what is under way, with what was saved when it was begun
* `Interpreter`, `Interpreter.next?`, `Interpreter.Step` - the machine with registers
* `Machine.interpreter` - the interpreter whose registers hold what a machine reads

## Main statements

* `Machine.next?_interpreter` - the registers hold what the machine reads after every step
* `Interpreter.restores` - whatever is left, and however, is left with the registers restored
* `Interpreter.raise_aborts` - a script error ends one invocation, and is attributed to the right place
* `Interpreter.astray_boxed` - errors that the host attributes to a line, or that end a handler which
  it runs while a request waits
-/

namespace FormBasic

/-- What is under way, with what was saved when it was begun. -/
inductive Activation where
  /-- The rest of a block. -/
  | rest (ss : List Stmt)
  /-- A statement, and the line that was current before it. -/
  | statement (previous : Line)
  /-- A loop whose body is running. -/
  | round (l : Loop)
  /-- A handler, and how its caller goes on. -/
  | handler (resume : World → Except Fault Bool → Outcome Next)

/-- The state of a run, with registers. -/
structure Interpreter (σ : Type) where
  control : Control
  activations : List Activation
  /-- The handlers that are running, the innermost last. -/
  callStack : List Text
  currentLine : Line
  /-- The state of the host. -/
  state : σ

variable {σ : Type}

namespace Interpreter

/-- What an evaluation that has ended leads to. -/
def follow (i : Interpreter σ) (w : World) : Next → Interpreter σ
  | .finish => { i with control := .ended w (.ok ()) }
  | .block body => { i with control := .block w body }
  | .loop l => { i with control := .evaluation (l.enter w) }
  | .round l => { i with control := .block w l.body, activations := .round l :: i.activations }

/-- What the end of a statement, block or handler leads to. A statement attributes an error to the
line in the register and writes the line before it back, a handler takes its name away, whatever the
result is. -/
def leave (i : Interpreter σ) (w : World) (result : Except Fault Unit) : Activation → Interpreter σ
  | .rest ss =>
    match result with
    | .ok _ => { i with control := .block w ss }
    | .error fault => { i with control := .ended w (.error fault) }
  | .statement previous =>
    { i with
      control := .ended w (result.mapError (Fault.attribute i.currentLine))
      currentLine := previous }
  | .round l =>
    match result with
    | .ok _ => { i with control := .evaluation (l.leave w) }
    | .error fault => { i with control := .ended w (.error fault) }
  | .handler resume =>
    { i with
      control := .evaluation (resume w (result.map fun _ => true))
      callStack := i.callStack.dropLast }

/-- What the interpreter does of its own accord; none if it has ended or waits for a reply. -/
def next? (i : Interpreter σ) : Option (Interpreter σ) :=
  match i.control with
  | .block w [] => some { i with control := .ended w (.ok ()) }
  | .block w (s :: ss) =>
    if w.halted then some { i with control := .ended w (.ok ()) }
    else some { i with control := .statement w s, activations := .rest ss :: i.activations }
  | .statement w s =>
    if w.stopped then some { i with control := .ended w (.ok ()) }
    else
      some { i with
        control := .evaluation (s.begin w)
        activations := .statement i.currentLine :: i.activations
        currentLine := s.line }
  | .evaluation (.done w next) => some (i.follow w next)
  | .evaluation (.failed w fault) => some { i with control := .ended w (.error fault) }
  | .evaluation (.asking _ _ _) => none
  | .evaluation (.calling w key resume) =>
    match Turn.body? w i.callStack key with
    | some body =>
      some { i with
        control := .block w body
        activations := .handler resume :: i.activations
        callStack := i.callStack ++ [key] }
    | none => some { i with control := .evaluation (resume w (.ok false)) }
  | .ended w result =>
    match i.activations with
    | [] => none
    | a :: rest => some (leave { i with activations := rest } w result a)

/-- One step of a run: the interpreter goes on, or a reply comes. -/
inductive Step (env : Surroundings σ) : Interpreter σ → Interpreter σ → Prop where
  | own {i i' : Interpreter σ} (h : i.next? = some i') : Step env i i'
  | reply {i : Interpreter σ} {request : Request}
    {resume : World → Except Fault request.Reply → Outcome Next} {w w' : World} {state' : σ}
    {reply : Except Fault request.Reply}
    (hcontrol : i.control = .evaluation (.asking w request resume))
    (h : env.Replies request w i.state w' state' reply) :
    Step env i { i with control := .evaluation (resume w' reply), state := state' }

/-- Runs of any length. -/
abbrev Run (env : Surroundings σ) : Interpreter σ → Interpreter σ → Prop :=
  Relation.ReflTransGen (Step env)

/-- An interpreter that is about to run a handler, with empty registers. -/
def start (key : Text) (w : World) (state : σ) : Interpreter σ where
  control := .evaluation (.calling w key Invocation.returned)
  activations := []
  callStack := []
  currentLine := none
  state := state

end Interpreter

-- ════════════════════════════════════════════════════════════════════════════
-- What the registers hold
-- ════════════════════════════════════════════════════════════════════════════

namespace Machine

variable {env : Surroundings σ}

/-- What is under way, with the lines that are current without it. -/
def activations : List Continuation → List Activation
  | [] => []
  | .rest ss :: ks => .rest ss :: activations ks
  | .line _ :: ks => .statement (currentLine ks) :: activations ks
  | .round l :: ks => .round l :: activations ks
  | .caller _ resume :: ks => .handler resume :: activations ks

/-- The interpreter whose registers hold what the machine reads off its continuations. -/
def interpreter (m : Machine σ) : Interpreter σ where
  control := m.control
  activations := activations m.continuations
  callStack := (stack m.continuations).reverse
  currentLine := currentLine m.continuations
  state := m.state

/-- What is under way above some continuations stands above what is under way in them. -/
theorem activations_append (ks rest : List Continuation) :
    ∃ inner, inner.length = ks.length ∧ activations (ks ++ rest) = inner ++ activations rest := by
  induction ks with
  | nil => exact ⟨[], rfl, rfl⟩
  | cons k ks ih =>
    obtain ⟨inner, hlength, hinner⟩ := ih
    have hcons : ∃ a, activations (k :: (ks ++ rest)) = a :: activations (ks ++ rest) := by
      cases k <;> exact ⟨_, rfl⟩
    obtain ⟨a, ha⟩ := hcons
    refine ⟨a :: inner, congrArg (· + 1) hlength, ?_⟩
    rw [List.cons_append, ha, hinner, List.cons_append]

/-- Whether a handler may be entered does not depend on the order of those that are running. -/
theorem body?_reverse (w : World) (running : List Text) (key : Text) :
    Turn.body? w running.reverse key = Turn.body? w running key := by
  rw [Turn.body?, Turn.body?, List.contains_reverse]

/-- After a step with registers these hold what the machine reads after the same step. -/
theorem next?_interpreter (m : Machine σ) :
    m.interpreter.next? = m.next?.map Machine.interpreter := by
  obtain ⟨control, ks, state⟩ := m
  cases control with
  | block w ss =>
    cases ss with
    | nil => rfl
    | cons s ss =>
      simp only [next?, interpreter, Interpreter.next?]
      split <;> rfl
  | statement w s =>
    simp only [next?, interpreter, Interpreter.next?]
    split <;> rfl
  | evaluation o =>
    cases o with
    | done w next => cases next <;> rfl
    | failed w fault => rfl
    | asking w request resume => rfl
    | calling w key resume =>
      simp only [next?, interpreter, Interpreter.next?, body?_reverse]
      cases Turn.body? w (stack ks) key with
      | none => rfl
      | some body =>
        have hstack : (stack (.caller key resume :: ks)).reverse = (stack ks).reverse ++ [key] :=
          List.reverse_cons
        simp only [Option.map_some, interpreter, hstack]
        rfl
  | ended w result =>
    cases ks with
    | nil => rfl
    | cons k ks =>
      cases k with
      | rest ss => cases result <;> rfl
      | line line => rfl
      | round l => cases result <;> rfl
      | caller key resume =>
        have hstack : ((stack (.caller key resume :: ks)).reverse).dropLast =
            (stack ks).reverse := by
          change ((key :: stack ks).reverse).dropLast = _
          rw [List.reverse_cons, List.dropLast_concat]
        simp only [next?, goOn, interpreter, Interpreter.next?, activations, Interpreter.leave,
          hstack]
        rfl

/-- The steps with registers are those of the machine. -/
theorem step_interpreter_iff {m : Machine σ} {i : Interpreter σ} :
    Interpreter.Step env m.interpreter i ↔ ∃ m', Step env m m' ∧ m'.interpreter = i := by
  constructor
  · intro h
    cases h with
    | own h =>
      rw [next?_interpreter] at h
      obtain ⟨m', hm', rfl⟩ := Option.map_eq_some_iff.1 h
      exact ⟨m', .own hm', rfl⟩
    | reply hcontrol h =>
      obtain ⟨control, ks, state⟩ := m
      obtain rfl : control = _ := hcontrol
      exact ⟨_, .reply h, rfl⟩
  · rintro ⟨m', h, rfl⟩
    cases h with
    | own h => exact .own (by rw [next?_interpreter, h]; rfl)
    | reply h => exact .reply rfl h

theorem run_interpreter_iff {m : Machine σ} {i : Interpreter σ} :
    Interpreter.Run env m.interpreter i ↔ ∃ m', Run env m m' ∧ m'.interpreter = i := by
  constructor
  · intro h
    induction h with
    | refl => exact ⟨m, .refl, rfl⟩
    | tail _ hstep ih =>
      obtain ⟨m', hrun, rfl⟩ := ih
      obtain ⟨m'', hm'', rfl⟩ := step_interpreter_iff.1 hstep
      exact ⟨m'', hrun.tail hm'', rfl⟩
  · rintro ⟨m', h, rfl⟩
    induction h with
    | refl => exact .refl
    | tail _ hstep ih => exact ih.tail (step_interpreter_iff.2 ⟨_, hstep, rfl⟩)

end Machine

-- ════════════════════════════════════════════════════════════════════════════
-- What is left, and how
-- ════════════════════════════════════════════════════════════════════════════

namespace Interpreter

variable {env : Surroundings σ}

/-- What is under way stays under way until it ends, and it ends, with or without a fault, with the
registers as it found them. -/
theorem restores {m : Machine σ} {i : Interpreter σ} (h : Run env m.interpreter i) :
    (∃ inner, i.activations = inner ++ m.interpreter.activations ∧
      (inner = [] → i.callStack = m.interpreter.callStack ∧
        i.currentLine = m.interpreter.currentLine)) ∨
      ∃ w result state, Run env m.interpreter { m.interpreter with control := .ended w result, state } ∧
        Run env { m.interpreter with control := .ended w result, state } i := by
  obtain ⟨m', hrun, rfl⟩ := Machine.run_interpreter_iff.1 h
  obtain ⟨ks, hks⟩ | ⟨w, result, state, hleft, hrest⟩ := hrun.restores
  · obtain ⟨inner, hlength, hinner⟩ := Machine.activations_append ks m.continuations
    refine .inl ⟨inner, (congrArg Machine.activations hks).trans hinner, ?_⟩
    rintro rfl
    obtain rfl := List.eq_nil_of_length_eq_zero hlength.symm
    exact ⟨congrArg (fun ks => (Machine.stack ks).reverse) hks, congrArg Machine.currentLine hks⟩
  · exact .inr ⟨w, result, state, Machine.run_interpreter_iff.2 ⟨_, hleft, rfl⟩,
      Machine.run_interpreter_iff.2 ⟨m', hrest, rfl⟩⟩

/-- A script error that is raised in the invocation of a handler ends this invocation and nothing
else. The names on the call stack are never the same twice, and whatever is left, in whatever way, is
left with the registers as it found them. Once a script error is raised no statement runs and no
request is made, the world and the state of the host stay what they are, and the invocation ends with
the error, attributed to the line that was current when it was raised unless a request was failed with
an error that had a line. The event reports it once and then has the result that the handler did not
run to its end. -/
theorem raise_aborts (env : Surroundings σ) (key : Text) (w₀ : World) (state₀ : σ)
    (hparsed : ∀ key body, w₀.handlers.get? key = some body → IsParsed body) :
    (∀ i, Run env (start key w₀ state₀) i → i.callStack.Nodup ∧
      ∀ i', Run env i i' →
        (∃ inner, i'.activations = inner ++ i.activations ∧
          (inner = [] → i'.callStack = i.callStack ∧ i'.currentLine = i.currentLine)) ∨
          ∃ w result state, Run env i { i with control := .ended w result, state } ∧
            Run env { i with control := .ended w result, state } i') ∧
    (w₀.stopped = false → ∀ i i' error, Run env (start key w₀ state₀) i →
      i.control.fault? = none → Step env i i' → i'.control.fault? = some (.script error) →
      let w := i'.control.world
      let line := i'.currentLine
      let report := Request.errorReport ("Runtime error in " ++ key ++ ": " ++ error.message)
        (error.line.or line)
      (∃ previous outer, i'.activations = .statement previous :: outer) ∧ line.isSome = true ∧
      (error.line = none ∨ error.line = line ∨
        env.Fails i.control i.state i'.state (.script error)) ∧
      (∀ i'', Run env i' i'' → i''.control.world = w ∧ i''.state = i'.state ∧
        ∃ line', i''.control.fault? = some (.script (error.attribute line'))) ∧
      Run env i' ⟨.ended w (.error (.script (error.attribute line))), [], [], none, i'.state⟩ ∧
      (∃ resume, Script.fire key w₀ = .calling w₀ key resume ∧
        resume w (.error (.script (error.attribute line))) =
          .asking w report fun w reply => .ended w (reply.map fun _ => false)) ∧
      ∀ w' state' reply, env.Replies report w i'.state w' state' reply →
        Outcome.Settles env [] (Script.fire key w₀) state₀ w' state'
          (reply.map fun _ => false)) := by
  have hstart : start key w₀ state₀ = ((Invocation.handler key).machine w₀ state₀).interpreter := rfl
  rw [hstart]
  constructor
  · intro i hi
    obtain ⟨m, hm, rfl⟩ := Machine.run_interpreter_iff.1 hi
    exact ⟨List.nodup_reverse.2 (hm.nodup List.nodup_nil), fun i' hi' => restores hi'⟩
  · intro hstopped i i' error hrun hi hstep hi'
    obtain ⟨m, hm, rfl⟩ := Machine.run_interpreter_iff.1 hrun
    obtain ⟨m', hm', rfl⟩ := Machine.step_interpreter_iff.1 hstep
    obtain ⟨⟨ks, hks⟩, hline, hraised, hleaving, hended, hreport⟩ :=
      Machine.ends_of_raise hparsed hstopped hm hi hm' hi'
    refine ⟨⟨_, _, congrArg Machine.activations hks⟩, hline, hraised, fun i'' hi'' => ?_,
      Machine.run_interpreter_iff.2 ⟨_, hended, rfl⟩, hreport⟩
    obtain ⟨m'', hm'', rfl⟩ := Machine.run_interpreter_iff.1 hi''
    exact hleaving m'' hm''

end Interpreter

/-- A statement that makes a command with something that is no connection. -/
def brokenCommand (line : Nat) : Stmt :=
  .assign (.ident "x") (.call (.ident "SqlCommand") [.string "", .number (.int 1)]) (.ofNat line)

/-- A handler that calls another one, which goes wrong on its second line. -/
def brokenCall : World where
  handlers := .ofList [("A", [.call (.ident "B") [] (.ofNat 1)]), ("B", [brokenCommand 2])]

theorem parseBody_brokenCommand :
    parseBody "\nx=SqlCommand(\"\",1)" = .ok [brokenCommand 2] := by
  have hscan : Token.scan "\nx=SqlCommand(\"\",1)" =
      [⟨.newline, "\n", .ofNat 1, 1⟩, ⟨.identifier, "x", .ofNat 2, 1⟩,
        ⟨.operator, "=", .ofNat 2, 2⟩, ⟨.identifier, "SqlCommand", .ofNat 2, 3⟩,
        ⟨.punctuation, "(", .ofNat 2, 13⟩, ⟨.string, "", .ofNat 2, 14⟩,
        ⟨.punctuation, ",", .ofNat 2, 16⟩, ⟨.number, "1", .ofNat 2, 17⟩,
        ⟨.punctuation, ")", .ofNat 2, 18⟩, ⟨.eof, "", .ofNat 2, 19⟩] := by
    decide +kernel
  rw [parseBody, Stream.ofSource, hscan]
  cbv

theorem isParsed_brokenCall {key : Text} {body : List Stmt}
    (h : brokenCall.handlers.get? key = some body) : IsParsed body := by
  have hscan : Token.scan "B()" =
      [⟨.identifier, "B", .ofNat 1, 1⟩, ⟨.punctuation, "(", .ofNat 1, 2⟩,
        ⟨.punctuation, ")", .ofNat 1, 3⟩, ⟨.eof, "", .ofNat 1, 4⟩] := by
    decide +kernel
  have hcaller : parseBody "B()" = .ok [.call (.ident "B") [] (.ofNat 1)] := by
    rw [parseBody, Stream.ofSource, hscan]
    cbv
  have hhandlers : brokenCall.handlers =
    (Table.empty.set "A" [.call (.ident "B") [] (.ofNat 1)]).set "B" [brokenCommand 2] := rfl
  rw [hhandlers, Table.get?_set, Table.get?_set, Table.get?_empty] at h
  split at h
  · cases h
    exact .body parseBody_brokenCommand
  · split at h
    · cases h
      exact .body hcaller
    · cases h

namespace Interpreter

/-- The error ends both handlers, and the event has the result that its handler did not run to its
end; the line is the one inside the handler that was called. -/
theorem raise_aborts_brokenCall :
    ∃ i : Interpreter Rehearsal,
      Run (Rehearsal.silentHost.surroundings Rehearsal.answers_silentHost)
        (start "A" brokenCall unprepared) i ∧
      i.currentLine = .ofNat 2 ∧ i.callStack = [("A" : Text), ("B" : Text)] ∧
      i.control.fault? = some (.script ⟨.database .notAConnection, none⟩) ∧
      Run (Rehearsal.silentHost.surroundings Rehearsal.answers_silentHost) i
        ⟨.ended i.control.world (.error (.script ⟨.database .notAConnection, .ofNat 2⟩)), [], [],
          none, i.state⟩ ∧
      ∃ w' state', Outcome.Settles
        (Rehearsal.silentHost.surroundings Rehearsal.answers_silentHost) []
        (Script.fire "A" brokenCall) unprepared w' state' (.ok false) := by
  let env := Rehearsal.silentHost.surroundings Rehearsal.answers_silentHost
  have hraise : ∃ i i', Run env (start "A" brokenCall unprepared) i ∧ i.control.fault? = none ∧
      Step env i i' ∧ i'.control.fault? = some (.script ⟨.database .notAConnection, none⟩) ∧
      i'.currentLine = .ofNat 2 ∧ i'.callStack = [("A" : Text), ("B" : Text)] :=
    ⟨_, _, .head (.own rfl) (.head (.own rfl) (.head (.own rfl) (.head (.own rfl)
      (.head (.own rfl) .refl)))), rfl, .own rfl, rfl, rfl, rfl⟩
  obtain ⟨i, i', hrun, hi, hstep, hi', hline, hcalls⟩ := hraise
  obtain ⟨-, -, -, -, hended, -, hsettles⟩ :=
    (raise_aborts env "A" brokenCall unprepared fun _ _ => isParsed_brokenCall).2 rfl _ _ _ hrun hi
      hstep hi'
  rw [hline] at hended
  exact ⟨i', hrun.tail hstep, hline, hcalls, hi', hended, _, _, hsettles _ _ _ ⟨[], rfl, rfl⟩⟩

end Interpreter

/-- A handler that opens a message box, and one that goes wrong. -/
def boxed : World where
  handlers := .ofList
    [("A", [.call (.ident "MsgBox") [.string "hi"] (.ofNat 1),
      .assign (.ident "y") (.number (.int 1)) (.ofNat 2)]),
     ("B", [brokenCommand 1])]

/-- A host that fails message boxes with an error that it attributes to a line of its own. -/
def Rehearsal.strayHost : Host Rehearsal where
  receive request s :=
    match request with
    | .messageBox _ => .answered s [] (.error (.runtimeAt (.ofNat 99) .hostFailure))
    | request => Rehearsal.host.receive request s

/-- A host that raises the event of the broken handler while it keeps the message box open. -/
def boxedCue : Session Rehearsal where
  world := boxed
  state := { cues := [⟨.messageBox, "hi", .event "B"⟩] }

/-- An error that the host attributes to a line of its own keeps it, though the statement that opened
the box is on the first line. An error in a handler that the host runs while the box is open ends that
one: the handler that opened the box goes on with its second statement and runs to its end. -/
theorem Interpreter.astray_boxed :
    (parseBody "MsgBox(\"hi\")\ny = 1" = .ok [.call (.ident "MsgBox") [.string "hi"] (.ofNat 1),
        .assign (.ident "y") (.number (.int 1)) (.ofNat 2)] ∧
      parseBody "x=SqlCommand(\"\",1)" = .ok [brokenCommand 1]) ∧
    Turn.run Rehearsal.strayHost (Script.fireValue "A") boxed {} =
      .finished boxed
        { notes := #[.asked (.errorReport "Runtime error in A: host failure" (.ofNat 99))] }
        (.ok (.bool false)) ∧
    let (s, result) := boxedCue.perform Rehearsal.host 9 (Script.fireValue "A")
    result = .ok (.bool true) ∧ s.world.globals.get? "y" = some (.int 1) ∧
      s.state.notes = #[.asked (.messageBox "hi"),
        .asked (.errorReport ("Runtime error in B: " ++ DatabaseCause.notAConnection.message)
          (.ofNat 1)), .closed "hi"] := by
  have hscan : Token.scan "MsgBox(\"hi\")\ny = 1" =
      [⟨.identifier, "MsgBox", .ofNat 1, 1⟩, ⟨.punctuation, "(", .ofNat 1, 7⟩,
        ⟨.string, "hi", .ofNat 1, 8⟩, ⟨.punctuation, ")", .ofNat 1, 12⟩,
        ⟨.newline, "\n", .ofNat 1, 13⟩, ⟨.identifier, "y", .ofNat 2, 1⟩,
        ⟨.operator, "=", .ofNat 2, 3⟩, ⟨.number, "1", .ofNat 2, 5⟩,
        ⟨.eof, "", .ofNat 2, 6⟩] := by
    decide +kernel
  have hscan' : Token.scan "x=SqlCommand(\"\",1)" =
      [⟨.identifier, "x", .ofNat 1, 1⟩, ⟨.operator, "=", .ofNat 1, 2⟩,
        ⟨.identifier, "SqlCommand", .ofNat 1, 3⟩, ⟨.punctuation, "(", .ofNat 1, 13⟩,
        ⟨.string, "", .ofNat 1, 14⟩, ⟨.punctuation, ",", .ofNat 1, 16⟩,
        ⟨.number, "1", .ofNat 1, 17⟩, ⟨.punctuation, ")", .ofNat 1, 18⟩,
        ⟨.eof, "", .ofNat 1, 19⟩] := by
    decide +kernel
  refine ⟨⟨?_, ?_⟩, rfl, rfl, rfl, rfl⟩
  · rw [parseBody, Stream.ofSource, hscan]
    cbv
  · rw [parseBody, Stream.ofSource, hscan']
    cbv

end FormBasic
