import FormBasic.Proofs.Session.Settling
import FormBasic.Session.Rehearsal

/-!
# Scripts step by step

A machine that runs statements one step at a time, with an explicit stack of what is to be gone on
with: the rest of a block, a loop whose body is running, a caller that waits for its handler. The
machine has no bound of its own: a loop counts its rounds and compares them with the cap, and a
handler is entered unless it is running already. Nevertheless every run ends, with what a turn
gives.

## Main definitions

* `Machine` - the state of a run
* `Machine.next?`, `Machine.Step` - one step of a run
* `Machine.Ends` - every run ends, in a certain way
* `Invocation` - a block or a handler to be run

## Main statements

* `Machine.runs_loop` - a loop ends when its body does
* `Machine.runsBlock` - every block ends
* `Machine.terminates` - every run ends, and ends as the turn of its script does

## Design notes

Expressions are trees and are evaluated as such, up to the next request or call. What could go on
for ever are rounds of loops and calls of handlers, and each of these is a step of its own.
-/

namespace FormBasic

/-- What is to be gone on with. -/
inductive Continuation where
  /-- The rest of a block. -/
  | rest (ss : List Stmt)
  /-- A statement to whose line script errors are attributed. -/
  | line (line : Line)
  /-- A loop whose body is running. -/
  | round (l : Loop)
  /-- A caller that waits for the handler it called. -/
  | caller (key : Text) (resume : World → Except Fault Bool → Outcome Next)

/-- What is being done. -/
inductive Control where
  | block (w : World) (ss : List Stmt)
  | statement (w : World) (s : Stmt)
  | evaluation (o : Outcome Next)
  | ended (w : World) (result : Except Fault Unit)

/-- The state of a run. -/
structure Machine (σ : Type) where
  control : Control
  continuations : List Continuation
  /-- The state of the host. -/
  state : σ

namespace Machine

variable {σ : Type}

/-- The handlers that are running, the innermost first. -/
def stack (ks : List Continuation) : List Text :=
  ks.filterMap fun
    | .caller key _ => some key
    | _ => none

/-- What an evaluation that has ended leads to. -/
def follow (w : World) (ks : List Continuation) (state : σ) : Next → Machine σ
  | .finish => ⟨.ended w (.ok ()), ks, state⟩
  | .block body => ⟨.block w body, ks, state⟩
  | .loop l => ⟨.evaluation (l.enter w), ks, state⟩
  | .round l => ⟨.block w l.body, .round l :: ks, state⟩

/-- What the end of a statement, block or handler leads to. -/
def goOn (w : World) (result : Except Fault Unit) (ks : List Continuation) (state : σ) :
    Continuation → Machine σ
  | .rest ss =>
    match result with
    | .ok _ => ⟨.block w ss, ks, state⟩
    | .error fault => ⟨.ended w (.error fault), ks, state⟩
  | .line line => ⟨.ended w (result.mapError (Fault.attribute line)), ks, state⟩
  | .round l =>
    match result with
    | .ok _ => ⟨.evaluation (l.leave w), ks, state⟩
    | .error fault => ⟨.ended w (.error fault), ks, state⟩
  | .caller _ resume => ⟨.evaluation (resume w (result.map fun _ => true)), ks, state⟩

/-- What the machine does of its own accord; none if it has ended or waits for a reply. -/
def next? : Machine σ → Option (Machine σ)
  | ⟨.block w [], ks, state⟩ => some ⟨.ended w (.ok ()), ks, state⟩
  | ⟨.block w (s :: ss), ks, state⟩ =>
    if w.halted then some ⟨.ended w (.ok ()), ks, state⟩
    else some ⟨.statement w s, .rest ss :: ks, state⟩
  | ⟨.statement w s, ks, state⟩ =>
    if w.stopped then some ⟨.ended w (.ok ()), ks, state⟩
    else some ⟨.evaluation (s.begin w), .line s.line :: ks, state⟩
  | ⟨.evaluation (.done w next), ks, state⟩ => some (follow w ks state next)
  | ⟨.evaluation (.failed w fault), ks, state⟩ => some ⟨.ended w (.error fault), ks, state⟩
  | ⟨.evaluation (.asking _ _ _), _, _⟩ => none
  | ⟨.evaluation (.calling w key resume), ks, state⟩ =>
    match Turn.body? w (stack ks) key with
    | some body => some ⟨.block w body, .caller key resume :: ks, state⟩
    | none => some ⟨.evaluation (resume w (.ok false)), ks, state⟩
  | ⟨.ended _ _, [], _⟩ => none
  | ⟨.ended w result, k :: ks, state⟩ => some (goOn w result ks state k)

/-- One step of a run: the machine goes on, or a reply comes. -/
inductive Step (env : Surroundings σ) : Machine σ → Machine σ → Prop where
  | own {m m' : Machine σ} (h : m.next? = some m') : Step env m m'
  | reply {request : Request} {resume : World → Except Fault request.Reply → Outcome Next}
    {w w' : World} {ks : List Continuation} {state state' : σ}
    {reply : Except Fault request.Reply} (h : env.Replies request w state w' state' reply) :
    Step env ⟨.evaluation (.asking w request resume), ks, state⟩
      ⟨.evaluation (resume w' reply), ks, state'⟩

/-- Whether every run from here ends after finitely many steps, in a world, with a state of the
surroundings and with a result for which `P` holds. -/
inductive Ends (env : Surroundings σ) (P : World → σ → Except Fault Unit → Prop) :
    Machine σ → Prop where
  | ended {w : World} {result : Except Fault Unit} {state : σ} (h : P w state result) :
    Ends env P ⟨.ended w result, [], state⟩
  | step {m : Machine σ} (hsome : ∃ m', Step env m m')
    (hall : ∀ m', Step env m m' → Ends env P m') : Ends env P m

section Ends

variable {env : Surroundings σ} {P : World → σ → Except Fault Unit → Prop}

theorem Ends.own {m m₁ : Machine σ} (h : m.next? = some m₁) (hends : Ends env P m₁) :
    Ends env P m := by
  refine .step ⟨m₁, .own h⟩ fun m' hm' => ?_
  cases hm' with
  | own h' =>
    rw [h] at h'
    cases h'
    exact hends
  | reply h' => cases h

theorem Ends.asking {request : Request} {resume : World → Except Fault request.Reply → Outcome Next}
    {w : World} {ks : List Continuation} {state : σ}
    (h : ∀ w' state' reply, env.Replies request w state w' state' reply →
      Ends env P ⟨.evaluation (resume w' reply), ks, state'⟩) :
    Ends env P ⟨.evaluation (.asking w request resume), ks, state⟩ := by
  obtain ⟨w', state', reply, hreply⟩ := env.exists_reply request w state
  refine .step ⟨_, .reply hreply⟩ fun m' hm' => ?_
  cases hm' with
  | own h' => cases h'
  | reply h' => exact h _ _ _ h'

theorem Ends.mono {Q : World → σ → Except Fault Unit → Prop}
    (hPQ : ∀ w state result, P w state result → Q w state result) {m : Machine σ}
    (h : Ends env P m) : Ends env Q m := by
  induction h with
  | ended h => exact .ended (hPQ _ _ _ h)
  | step hsome _ ih => exact .step hsome ih

/-- No endless run starts where every run ends. -/
theorem Ends.acc {m : Machine σ} (h : Ends env P m) : Acc (fun m' m => Step env m m') m := by
  induction h with
  | ended =>
    refine ⟨_, fun m' hm' => ?_⟩
    cases hm' with
    | own h => cases h
  | step _ _ ih => exact ⟨_, ih⟩

end Ends

section Running

variable {env : Surroundings σ} {P : World → σ → Except Fault Unit → Prop}
  {handlers : Table (List Stmt)} {running : List Text}

/-- Whether every run that starts with a control ends, provided that it does from wherever an
outcome ends. -/
def Runs (env : Surroundings σ) (P : World → σ → Except Fault Unit → Prop) (running : List Text)
    (control : Control) (o : Outcome Unit) : Prop :=
  ∀ (ks : List Continuation) (state : σ), stack ks = running →
    (∀ w result state', Outcome.Settles env running o state w state' result →
      Ends env P ⟨.ended w result, ks, state'⟩) →
    Ends env P ⟨control, ks, state⟩

/-- Whether the machine runs a block to its end, in every world with these handlers. -/
def RunsBlock (env : Surroundings σ) (P : World → σ → Except Fault Unit → Prop)
    (handlers : Table (List Stmt)) (running : List Text) (body : List Stmt) : Prop :=
  ∀ w : World, w.handlers = handlers →
    Runs env P running (.block w body) (Script.block body w)

/-- Whether the machine runs every handler to its end that can be entered. -/
def RunsCalls (env : Surroundings σ) (P : World → σ → Except Fault Unit → Prop)
    (handlers : Table (List Stmt)) (running : List Text) : Prop :=
  ∀ key w body, w.handlers = handlers → Turn.body? w running key = some body →
    RunsBlock env P handlers (key :: running) body

/-- An evaluation ends when the handlers that it can call do. -/
theorem ends_evaluation (hcall : RunsCalls env P handlers running) (o : Outcome Next)
    {start : World} (ho : o.Tidy start) (hstart : start.handlers = handlers)
    {ks : List Continuation} (hks : stack ks = running) (state : σ)
    (h : ∀ w result state', Outcome.Settles env running o state w state' result →
      Ends env P ⟨.evaluation (.ended w result), ks, state'⟩) :
    Ends env P ⟨.evaluation o, ks, state⟩ := by
  induction o generalizing start state with
  | done w next => exact h w (.ok next) state (.done w next state)
  | failed w fault => exact h w (.error fault) state (.failed w fault state)
  | asking w request resume ih =>
    obtain ⟨⟨before, hbefore, rfl⟩, hresume⟩ := ho.of_asking
    refine .asking fun w₁ state₁ reply hreply => ?_
    have hw₁ : w₁.handlers = handlers := by
      rw [env.handlers hreply, ← hstart, ← hbefore.keep.2]
      rfl
    exact ih w₁ reply (hresume _ _) hw₁ state₁ fun w' result state' hsettle =>
      h w' result state' (.asking hreply hsettle)
  | calling w key resume ih =>
    obtain ⟨hcalled, hresume⟩ := ho.of_calling
    have hw : w.handlers = handlers := hcalled.keep.2.trans hstart
    cases hbody : Turn.body? w running key with
    | none =>
      have hnext : next? (⟨.evaluation (.calling w key resume), ks, state⟩ : Machine σ) =
          some ⟨.evaluation (resume w (.ok false)), ks, state⟩ := by
        simp only [next?, hks, hbody]
      refine .own hnext (ih w _ (hresume _ _) hw state fun w' result state' hsettle => ?_)
      exact h w' result state' (.skipped hbody hsettle)
    | some body =>
      have hnext : next? (⟨.evaluation (.calling w key resume), ks, state⟩ : Machine σ) =
          some ⟨.block w body, .caller key resume :: ks, state⟩ := by
        simp only [next?, hks, hbody]
      have hstack : stack (.caller key resume :: ks) = key :: running := congrArg (key :: ·) hks
      refine .own hnext (hcall key w body hw hbody w hw _ state hstack ?_)
      intro w₁ result₁ state₁ hsettle₁
      have hw₁ : w₁.handlers = handlers :=
        (hsettle₁.handlers (Script.tidy_block _ _)).trans hw
      refine .own rfl (ih w₁ _ (hresume _ _) hw₁ state₁ fun w' result state' hsettle => ?_)
      exact h w' result state' (.entered hbody hsettle₁ hsettle)

theorem Runs.own {control control' : Control} {o : Outcome Unit}
    (h : Runs env P running control' o)
    (hnext : ∀ ks (state : σ), next? ⟨control, ks, state⟩ = some ⟨control', ks, state⟩) :
    Runs env P running control o :=
  fun ks state hks hends => .own (hnext ks state) (h ks state hks hends)

theorem runs_ended (w : World) : Runs env P running (.ended w (.ok ())) (.done w ()) :=
  fun _ state _ hends => hends w (.ok ()) state (.done w () state)

/-- An evaluation is followed by what it leads to. -/
theorem runs_evaluation (hcall : RunsCalls env P handlers running) {m : Script Next}
    (hm : m.Tidy) {Q : Next → Prop} (hQ : m.Yields Q) {f : Next → Script Unit}
    (hf : ∀ w next, w.handlers = handlers → Q next →
      Runs env P running (.evaluation (.done w next)) (f next w))
    {w : World} (hw : w.handlers = handlers) :
    Runs env P running (.evaluation (m w)) ((m >>= f) w) := by
  intro ks state hks hends
  refine ends_evaluation hcall (m w) (hm w) hw hks state fun w₁ result₁ state₁ hsettle₁ => ?_
  cases result₁ with
  | error fault =>
    exact .own rfl (hends w₁ (.error fault) state₁ (hsettle₁.andThen (.failed w₁ fault state₁)))
  | ok next =>
    have hw₁ : w₁.handlers = handlers := (hsettle₁.handlers (hm w)).trans hw
    have hnext : Q next := hsettle₁.yields (hQ w) rfl
    exact hf w₁ next hw₁ hnext ks state₁ hks fun w' result state' hsettle =>
      hends w' result state' (hsettle₁.andThen hsettle)

/-- The body of a loop is followed by what comes after it. -/
theorem runs_round {l : Loop} (hbody : RunsBlock env P handlers running l.body) {f : Script Unit}
    (hf : ∀ w, w.handlers = handlers → Runs env P running (.evaluation (l.leave w)) (f w))
    {w : World} (hw : w.handlers = handlers) :
    Runs env P running (.evaluation (.done w (.round l)))
      ((Script.block l.body >>= fun _ => f) w) := by
  intro ks state hks hends
  refine .own rfl (hbody w hw (.round l :: ks) state hks fun w₁ result₁ state₁ hsettle₁ => ?_)
  have hw₁ : w₁.handlers = handlers :=
    (hsettle₁.handlers (Script.tidy_block _ _)).trans hw
  cases result₁ with
  | error fault =>
    exact .own rfl (hends w₁ (.error fault) state₁ (hsettle₁.andThen (.failed w₁ fault state₁)))
  | ok _ =>
    exact .own rfl (hf w₁ hw₁ ks state₁ hks fun w' result state' hsettle =>
      hends w' result state' (hsettle₁.andThen hsettle))

/-- A loop ends when its body does: the rounds left under the cap become fewer with every round. -/
theorem runs_loop (hcall : RunsCalls env P handlers running) (l : Loop)
    (hbody : RunsBlock env P handlers running l.body) {w : World} (hw : w.handlers = handlers) :
    Runs env P running (.evaluation (.done w (.loop l))) (l.script w) := by
  -- the body may change what the test looks at, but never the rounds left
  induction hleft : l.left using Nat.strongRecOn generalizing l w with
  | ind left ih =>
    subst hleft
    rw [l.script_eq]
    refine Runs.own ?_ fun _ _ => rfl
    refine runs_evaluation hcall l.tidy_enter l.yields_enter ?_ hw
    rintro w next hw (rfl | ⟨rfl, hless⟩)
    · exact (runs_ended w).own fun _ _ => rfl
    · refine runs_round (l := l.next) hbody (fun w hw => ?_) hw
      refine runs_evaluation hcall l.next.tidy_leave l.next.yields_leave ?_ hw
      rintro w next hw (rfl | ⟨l', rfl, -, hbody', hleft'⟩)
      · exact (runs_ended w).own fun _ _ => rfl
      · exact ih l'.left (by rw [hleft']; exact hless) l' (hbody' ▸ hbody) hw rfl

/-- A statement ends when its blocks do. -/
theorem runs_statement (hcall : RunsCalls env P handlers running) {s : Stmt}
    (hblocks : ∀ body ∈ s.blocks, RunsBlock env P handlers running body) {w : World}
    (hw : w.handlers = handlers) : Runs env P running (.statement w s) (Script.exec s w) := by
  have hbegin : Runs env P running (.evaluation (s.begin w)) ((s.begin >>= Next.script) w) := by
    refine runs_evaluation hcall s.tidy_begin s.yields_begin ?_ hw
    intro w next hw hnext
    cases next with
    | finish => exact (runs_ended w).own fun _ _ => rfl
    | block body => exact (hblocks body hnext w hw).own fun _ _ => rfl
    | loop l => exact runs_loop hcall l (hblocks l.body hnext.2) hw
    | round l => exact hnext.elim
  rw [Script.exec_eq]
  intro ks state hks hends
  rw [Script.onLine_apply] at hends
  by_cases hstopped : w.stopped = true
  · rw [if_pos hstopped] at hends
    refine .own ?_ (runs_ended w ks state hks hends)
    simp only [next?, hstopped, if_true]
  · rw [if_neg hstopped] at hends
    refine .own ?_ (hbegin (.line s.line :: ks) state hks fun w₁ result₁ state₁ hsettle₁ => ?_)
    · simp only [next?, hstopped]
      rfl
    · exact .own rfl (hends w₁ _ state₁ (hsettle₁.mapFault _))

theorem sizeOf_lt_of_mem_blocks {s : Stmt} {body : List Stmt} (h : body ∈ s.blocks) :
    sizeOf body < sizeOf s := by
  cases s with
  | cond test thenBody elseIfs otherwise line =>
    simp only [Stmt.blocks, List.mem_cons, List.mem_map] at h
    obtain rfl | rfl | ⟨⟨test', body'⟩, hmem, rfl⟩ := h
    · simp only [Stmt.cond.sizeOf_spec]
      omega
    · simp only [Stmt.cond.sizeOf_spec]
      omega
    · have := List.sizeOf_lt_of_mem hmem
      simp only [Stmt.cond.sizeOf_spec, ElseIf.mk.sizeOf_spec] at this ⊢
      omega
  | forLoop name start stop step loopBody line =>
    obtain rfl := List.mem_singleton.1 h
    simp only [Stmt.forLoop.sizeOf_spec]
    omega
  | whileLoop test loopBody line =>
    obtain rfl := List.mem_singleton.1 h
    simp only [Stmt.whileLoop.sizeOf_spec]
    omega
  | doLoop loopBody test ending testAtEnd line =>
    obtain rfl := List.mem_singleton.1 h
    simp only [Stmt.doLoop.sizeOf_spec]
    omega
  | _ => exact absurd h List.not_mem_nil

theorem runsBlock_cons {s : Stmt} {ss : List Stmt}
    (hs : ∀ w : World, w.handlers = handlers →
      Runs env P running (.statement w s) (Script.exec s w))
    (hss : RunsBlock env P handlers running ss) : RunsBlock env P handlers running (s :: ss) := by
  intro w hw ks state hks hends
  rw [Script.block_cons_apply] at hends
  by_cases hhalted : w.halted = true
  · rw [if_pos hhalted] at hends
    refine .own ?_ (runs_ended w ks state hks hends)
    simp only [next?, hhalted, if_true]
  · rw [if_neg hhalted] at hends
    refine .own ?_ (hs w hw (.rest ss :: ks) state hks fun w₁ result₁ state₁ hsettle₁ => ?_)
    · simp only [next?, hhalted]
      rfl
    have hw₁ : w₁.handlers = handlers :=
      (hsettle₁.handlers (Script.orderly_exec Conduct.lenient_any s (fun _ _ => trivial) w)).trans hw
    cases result₁ with
    | error fault =>
      exact .own rfl (hends w₁ (.error fault) state₁ (hsettle₁.andThen (.failed w₁ fault state₁)))
    | ok _ =>
      exact .own rfl (hss w₁ hw₁ ks state₁ hks fun w' result state' hsettle =>
        hends w' result state' (hsettle₁.andThen hsettle))

/-- A block ends when the handlers that it can call do. -/
theorem runsBlock_of_runsCalls (hcall : RunsCalls env P handlers running) :
    ∀ body : List Stmt, RunsBlock env P handlers running body
  | [] => fun w _ => (runs_ended w).own fun _ _ => rfl
  | s :: ss => by
    refine runsBlock_cons (fun w hw => ?_) (runsBlock_of_runsCalls hcall ss)
    refine runs_statement hcall (fun body hbody => ?_) hw
    have := sizeOf_lt_of_mem_blocks hbody
    exact runsBlock_of_runsCalls hcall body
termination_by body => sizeOf body
decreasing_by
  all_goals
    simp only [List.cons.sizeOf_spec]
    omega

/-- Every block ends: the handlers that are not running become fewer with every handler that is
entered. -/
theorem runsBlock (handlers : Table (List Stmt)) (running : List Text)
    (body : List Stmt) : RunsBlock env P handlers running body := by
  induction hidle : idleHandlers handlers running using Nat.strongRecOn
    generalizing running body with
  | ind idle ih =>
    subst hidle
    refine runsBlock_of_runsCalls (fun key w callee hw hcallee => ?_) body
    have hlt := Turn.idleHandlers_cons_lt hcallee
    rw [hw] at hlt
    exact ih _ hlt (key :: running) callee rfl

end Running

end Machine

/-- A block or a handler to be run. -/
inductive Invocation where
  | block (body : List Stmt)
  | handler (key : Text)

namespace Invocation

/-- After a handler that was called from outside there is nothing to be done. -/
def returned (w : World) (reply : Except Fault Bool) : Outcome Next :=
  .ended w (reply.map fun _ => .finish)

/-- The machine at the beginning of a run. -/
def machine {σ : Type} (i : Invocation) (w : World) (state : σ) : Machine σ :=
  match i with
  | .block body => ⟨.block w body, [], state⟩
  | .handler key => ⟨.evaluation (.calling w key returned), [], state⟩

/-- The script of an invocation. -/
def script : Invocation → Script Value
  | .block body => Turn.bodyScript body
  | .handler key => Script.asValue .bool (Script.call key)

/-- How an invocation ends. -/
def Settles {σ : Type} (env : Surroundings σ) (i : Invocation) (w : World) (state : σ)
    (w' : World) (state' : σ) (result : Except Fault Unit) : Prop :=
  match i with
  | .block body => Outcome.Settles env [] (Script.block body w) state w' state' result
  | .handler key => ∃ ran : Except Fault Bool,
    Outcome.Settles env [] (Script.call key w) state w' state' ran ∧ ran.map (fun _ => ()) = result

/-- The turn of an invocation gives the end that the invocation comes to. -/
theorem run_of_settles {σ : Type} {host : Host σ} {hhost : host.Answers} {i : Invocation}
    {w w' : World} {state state' : σ} {result : Except Fault Unit}
    (h : i.Settles (host.surroundings hhost) w state w' state' result) :
    ∃ value, Turn.run host i.script w state = .finished w' state' value ∧
      value.map (fun _ => ()) = result := by
  cases i with
  | block body =>
    refine ⟨_, Turn.run_of_settles h (Script.tidy_block body) fun _ => .nothing, ?_⟩
    cases result <;> rfl
  | handler key =>
    obtain ⟨ran, hran, rfl⟩ := h
    refine ⟨_, Turn.run_of_settles hran (Script.orderly_call key) .bool, ?_⟩
    cases ran <;> rfl

end Invocation

namespace Machine

variable {σ : Type}

/-- Every run of an invocation ends, and ends as its script does. -/
theorem ends_invocation (env : Surroundings σ) (i : Invocation) (w : World) (state : σ) :
    Ends env (i.Settles env w state) (i.machine w state) := by
  cases i with
  | block body =>
    exact runsBlock w.handlers [] body w rfl [] state rfl fun _ _ _ hsettle => .ended hsettle
  | handler key =>
    cases hbody : Turn.body? w [] key with
    | none =>
      have hnext : next? ⟨.evaluation (.calling w key Invocation.returned), [], state⟩ =
          some ⟨.evaluation (.done w .finish), [], state⟩ := by
        simp only [next?, stack, List.filterMap_nil, hbody]
        rfl
      refine .own hnext (.own rfl (.ended ?_))
      exact ⟨.ok false, .skipped hbody (.done w false state), rfl⟩
    | some body =>
      have hnext : next? ⟨.evaluation (.calling w key Invocation.returned), [], state⟩ =
          some ⟨.block w body, [.caller key Invocation.returned], state⟩ := by
        simp only [next?, stack, List.filterMap_nil, hbody]
      refine .own hnext (runsBlock w.handlers [key] body w rfl _ state rfl ?_)
      intro w₁ result₁ state₁ hsettle₁
      have hcall : (Invocation.handler key).Settles env w state w₁ state₁ result₁ := by
        refine ⟨_, .entered hbody hsettle₁ (Outcome.settles_ended w₁ state₁ _), ?_⟩
        cases result₁ <;> rfl
      refine .own rfl ?_
      cases result₁ <;> exact .own rfl (.ended hcall)

/-- Every run of the machine ends after finitely many steps, and there is no endless one, whatever the
handlers, the world and the cap on loops are, and whatever the surroundings do. With a host that
always replies it ends in the world, with the state of the host and with the fault, if any, that the
turn of its script gives. -/
theorem terminates (i : Invocation) (w : World) (state : σ) :
    (∀ env : Surroundings σ, Ends env (fun _ _ _ => True) (i.machine w state) ∧
      Acc (fun m' m => Step env m m') (i.machine w state)) ∧
      ∀ (host : Host σ) (hhost : host.Answers),
        Ends (host.surroundings hhost) (fun w' state' result =>
          ∃ value, Turn.run host i.script w state = .finished w' state' value ∧
            value.map (fun _ => ()) = result) (i.machine w state) := by
  refine ⟨fun env => ?_, fun host hhost => ?_⟩
  · have hends := ends_invocation env i w state
    exact ⟨hends.mono fun _ _ _ _ => trivial, hends.acc⟩
  · exact (ends_invocation _ i w state).mono fun _ _ _ hsettle =>
      Invocation.run_of_settles hsettle

end Machine

/-- The host that has nothing to say always replies. -/
theorem Rehearsal.answers_silentHost : Rehearsal.silentHost.Answers :=
  fun _ _ => ⟨_, _, _, rfl⟩

/-- Two handlers that call each other, one of them over and over again. -/
def pingPong : World where
  handlers := .ofList
    [("Ping", [.whileLoop (.boolean true) [.call (.ident "Pong") [] (.ofNat 2)] (.ofNat 1)]),
     ("Pong", [.call (.ident "Ping") [] (.ofNat 1)])]

/-- A host's state with nothing prepared. -/
def unprepared : Rehearsal := {}

theorem Machine.terminates_pingPong :
    ∃ hhost : Rehearsal.silentHost.Answers,
      Machine.Ends (Rehearsal.silentHost.surroundings hhost) (fun w' state' result =>
        ∃ value,
          Turn.run Rehearsal.silentHost (Invocation.handler "Ping").script pingPong unprepared =
            .finished w' state' value ∧ value.map (fun _ => ()) = result)
        ((Invocation.handler "Ping").machine pingPong unprepared) := by
  refine ⟨Rehearsal.answers_silentHost, ?_⟩
  have h := Machine.terminates (.handler "Ping") pingPong unprepared
  exact h.2 Rehearsal.silentHost Rehearsal.answers_silentHost

end FormBasic
