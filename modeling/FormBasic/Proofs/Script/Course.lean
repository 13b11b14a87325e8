import FormBasic.Proofs.Script.Rounds

/-!
# Courses of loops

The course of a loop lists what the loop does, deed by deed: it evaluates its condition, runs its
body, or reports a runaway. Every deed has the world in which it starts, what passes between the
script and its surroundings, and the world in which it ends. A loop has exactly the histories that
its courses spell.

## Main definitions

* `Deed` - one thing that a loop does
* `Loop.Course` - what a loop does until it ends

## Main statements

* `Loop.Course.traces`, `Loop.course_of_traces` - the histories of a loop are those of its courses
* `Stmt.IsLoop.traces_exec` - a loop statement begins, and then does what its loop does
-/

namespace FormBasic

/-- What a loop does that scripts can tell: all else only takes note of its counter. -/
inductive Deed.Sort where
  /-- It evaluates its condition. -/
  | evaluation
  /-- It runs its body. -/
  | run
  /-- It reports a runaway. -/
  | report
  deriving DecidableEq

/-- One thing that a loop does, from the world in which it starts to the one in which it ends. -/
structure Deed where
  sort : Deed.Sort
  start : World
  history : List Exchange
  finish : World

namespace Loop

-- ════════════════════════════════════════════════════════════════════════════
-- Deeds around a body
-- ════════════════════════════════════════════════════════════════════════════

/-- What a loop does to find out whether there is another round: a condition in front of the body is
evaluated in a session that goes on. -/
def looking (l : Loop) (start : World) (history : List Exchange) (finish : World) : List Deed :=
  match l.rounds with
  | .whileTrue _ => if start.halted then [] else [⟨.evaluation, start, history, finish⟩]
  | _ => []

/-- What a loop does after its body: a condition behind the body is evaluated. -/
def leaving (l : Loop) (start : World) (history : List Exchange) (finish : World) : List Deed :=
  match l.rounds with
  | .doUntil (some _) _ => [⟨.evaluation, start, history, finish⟩]
  | _ => []

/-- The world in which the body runs: a loop that counts has written its counter. -/
def ready (l : Loop) (w : World) : World :=
  match l.rounds with
  | .counting name _ _ counter => w.setVariable name (.ofNumber counter)
  | _ => w

/-- What a loop does until it ends, in the order in which it does it. -/
inductive Course : Loop → World → List Deed → World → Except Fault Unit → Prop where
  /-- The loop does not ask for another round. -/
  | ends {l : Loop} {history : List Exchange} {w w' : World} {asked : Except Fault Bool}
    (looked : l.Looks w history w' asked) (refused : asked ≠ .ok true) :
    Course l w (l.looking w history w') w' (asked.map fun _ => ())
  /-- The loop asks for more rounds than it may go through. -/
  | runaway {l : Loop} {first second : List Exchange} {w w₁ w' : World}
    {result : Except Fault Unit} (looked : l.Looks w first w₁ (.ok true))
    (capped : l.cap ≤ l.iterations)
    (reported : (Script.reportRunaway l.kind l.line w₁).Traces second w' result) :
    Course l w (l.looking w first w₁ ++ [⟨.report, w₁, second, w'⟩]) w' result
  /-- The body fails. -/
  | fails {l : Loop} {first second : List Exchange} {w w₁ w' : World} {fault : Fault}
    (looked : l.Looks w first w₁ (.ok true)) (allowed : ¬ l.cap ≤ l.iterations)
    (ran : (Script.block l.body (l.ready w₁)).Traces second w' (.error fault)) :
    Course l w (l.looking w first w₁ ++ [⟨.run, l.ready w₁, second, w'⟩]) w' (.error fault)
  /-- The loop is left after its body. -/
  | leaves {l : Loop} {first second third : List Exchange} {w w₁ w₂ w' : World}
    {next : Except Fault Next} (looked : l.Looks w first w₁ (.ok true))
    (allowed : ¬ l.cap ≤ l.iterations)
    (ran : (Script.block l.body (l.ready w₁)).Traces second w₂ (.ok ()))
    (left : (l.next.leave w₂).Traces third w' next) (ends : ∀ l', next ≠ .ok (.loop l')) :
    Course l w (l.looking w first w₁ ++ ⟨.run, l.ready w₁, second, w₂⟩ :: l.leaving w₂ third w') w'
      (next.map fun _ => ())
  /-- The loop goes on after its body. -/
  | continues {l l' : Loop} {first second third : List Exchange} {deeds : List Deed}
    {w w₁ w₂ w₃ w' : World} {result : Except Fault Unit} (looked : l.Looks w first w₁ (.ok true))
    (allowed : ¬ l.cap ≤ l.iterations)
    (ran : (Script.block l.body (l.ready w₁)).Traces second w₂ (.ok ()))
    (left : (l.next.leave w₂).Traces third w₃ (.ok (.loop l')))
    (rest : Course l' w₃ deeds w' result) :
    Course l w (l.looking w first w₁ ++ ⟨.run, l.ready w₁, second, w₂⟩ ::
      (l.leaving w₂ third w₃ ++ deeds)) w' result

variable {l : Loop} {history : List Exchange} {w w' : World}

/-- Finding out about another round takes no other exchanges than its deeds. -/
theorem Looks.flatMap_looking {asked : Except Fault Bool} (h : l.Looks w history w' asked) :
    (l.looking w history w').flatMap Deed.history = history := by
  cases h with
  | counting rounds => simp only [looking, rounds, List.flatMap_nil]
  | halted rounds halted => simp only [looking, rounds, halted, if_true, List.flatMap_nil]
  | holds rounds goesOn =>
    simp only [looking, rounds, goesOn, Bool.false_eq_true, if_false, List.flatMap_cons,
      List.flatMap_nil, List.append_nil]
  | notLeft rounds => simp only [looking, rounds, List.flatMap_nil]

/-- After its body a loop that counts advances its counter, from the variable as the body left it. -/
theorem leave_counting {name : Text} {stop step counter : Number}
    (hrounds : l.rounds = .counting name stop step counter) (w : World) :
    l.leave w =
      match ((w.globals.get? name).elim counter Value.toNumber).add step with
      | .ok sum => .done (w.setVariable name (.ofNumber sum.normalize))
        (.loop { l with rounds := .counting name stop step sum.normalize })
      | .error refusal => .failed w (.refused refusal) := by
  simp only [leave, hrounds]
  show Outcome.andThen (Outcome.andThen (Script.compute (Number.add _ step) w) _) _ = _
  cases w.globals.get? name with
  | none =>
    simp only [Option.elim_none]
    cases counter.add step <;> rfl
  | some value =>
    simp only [Option.elim_some]
    cases value.toNumber.add step <;> rfl

/-- What a loop does after its body takes no other exchanges than its deeds. -/
theorem flatMap_leaving {next : Except Fault Next} (h : (l.next.leave w).Traces history w' next) :
    (l.leaving w history w').flatMap Deed.history = history := by
  cases hrounds : l.rounds with
  | counting name stop step counter =>
    have hnext : l.next.rounds = .counting name stop step counter := hrounds
    rw [leave_counting hnext] at h
    simp only [leaving, hrounds, List.flatMap_nil]
    split at h
    · exact (Outcome.traces_done.1 h).1.symm
    · exact (Outcome.traces_failed.1 h).1.symm
  | whileTrue test =>
    simp only [leave, Loop.next, hrounds] at h
    simp only [leaving, hrounds, List.flatMap_nil]
    exact (Script.traces_pure.1 h).1.symm
  | doUntil test ending =>
    cases test with
    | none =>
      simp only [leave, Loop.next, hrounds] at h
      simp only [leaving, hrounds, List.flatMap_nil]
      exact (Script.traces_pure.1 h).1.symm
    | some test =>
      simp only [leaving, hrounds, List.flatMap_cons, List.flatMap_nil, List.append_nil]

/-- A round is the body in the world that is ready for it, and what comes after the body. -/
theorem round_apply (l : Loop) (w : World) :
    l.round w = (Script.block l.body >>= fun _ => l.next.leave) (l.ready w) := by
  obtain ⟨rounds, line, body, cap, iterations⟩ := l
  cases rounds <;> rfl

theorem Looks.traces_test {asked : Except Fault Bool} (h : l.Looks w history w' asked) :
    (l.test w).Traces history w' asked := by
  cases h with
  | @counting name stop step counter rounds =>
    simp only [test, rounds]
    cases hrange : Script.inRange stop step counter with
    | true =>
      rw [if_pos rfl, Bool.true_and]
      exact .done _ _
    | false =>
      rw [if_neg Bool.false_ne_true, Bool.false_and]
      exact .done _ _
  | halted rounds halted =>
    simp only [test, rounds]
    refine Script.traces_bind.2 (.inr ⟨[], [], w, false, rfl, ?_, .done _ _⟩)
    exact Outcome.traces_done.2 ⟨rfl, rfl, by rw [halted]; rfl⟩
  | @holds test history w' result rounds goesOn evaluated =>
    simp only [Loop.test, rounds]
    refine Script.traces_bind.2 (.inr ⟨[], history, w, true, rfl, ?_, ?_⟩)
    · exact Outcome.traces_done.2 ⟨rfl, rfl, by rw [goesOn]; rfl⟩
    · exact Script.traces_map.2 ⟨result, evaluated, rfl⟩
  | notLeft rounds =>
    simp only [test, rounds]
    exact .done _ _

/-- A loop that asks for a round which is allowed goes through it. -/
theorem Looks.traces_round {first second : List Exchange} {w₁ : World} {result : Except Fault Unit}
    (looked : l.Looks w first w₁ (.ok true)) (allowed : ¬ l.cap ≤ l.iterations)
    (h : Outcome.Traces ((l.round >>= Next.afterRound) w₁) second w' result) :
    (l.script w).Traces (first ++ second) w' result := by
  rw [script_eq_test]
  refine Script.traces_bind.2 (.inr ⟨first, second, w₁, true, rfl, looked.traces_test, ?_⟩)
  rw [if_pos rfl, if_neg allowed]
  exact h

-- ════════════════════════════════════════════════════════════════════════════
-- Courses and histories
-- ════════════════════════════════════════════════════════════════════════════

/-- What a course spells is a history of the loop. -/
theorem Course.traces {deeds : List Deed} {result : Except Fault Unit}
    (h : l.Course w deeds w' result) :
    (l.script w).Traces (deeds.flatMap Deed.history) w' result := by
  induction h with
  | @ends l history w w' asked looked refused =>
    rw [looked.flatMap_looking, script_eq_test]
    cases asked with
    | error fault => exact Script.traces_bind.2 (.inl ⟨fault, looked.traces_test, rfl⟩)
    | ok asked =>
      cases asked with
      | true => exact absurd rfl refused
      | false =>
        refine Script.traces_bind.2 (.inr ⟨history, [], w', false, ?_, looked.traces_test, .done _ _⟩)
        exact (List.append_nil history).symm
  | @runaway l first second w w₁ w' result looked capped reported =>
    rw [List.flatMap_append, looked.flatMap_looking, script_eq_test]
    refine Script.traces_bind.2 (.inr ⟨first, second, w₁, true, ?_, looked.traces_test, ?_⟩)
    · simp only [List.flatMap_cons, List.flatMap_nil, List.append_nil]
    · simpa only [if_true, capped] using reported
  | @fails l first second w w₁ w' fault looked allowed ran =>
    rw [List.flatMap_append, looked.flatMap_looking]
    refine looked.traces_round allowed (Script.traces_bind.2 (.inl ⟨fault, ?_, rfl⟩))
    rw [round_apply]
    refine Script.traces_bind.2 (.inl ⟨fault, ?_, rfl⟩)
    simpa only [List.flatMap_cons, List.flatMap_nil, List.append_nil] using ran
  | @leaves l first second third w w₁ w₂ w' next looked allowed ran left ends =>
    have hround : (l.round w₁).Traces (second ++ third) w' next := by
      rw [round_apply]
      exact Script.traces_bind.2 (.inr ⟨second, third, w₂, (), rfl, ran, left⟩)
    rw [List.flatMap_append, looked.flatMap_looking, List.flatMap_cons,
      flatMap_leaving left]
    refine looked.traces_round allowed ?_
    cases next with
    | error fault => exact Script.traces_bind.2 (.inl ⟨fault, hround, rfl⟩)
    | ok next =>
      refine Script.traces_bind.2 (.inr ⟨second ++ third, [], w', next, ?_, hround, ?_⟩)
      · exact (List.append_nil _).symm
      · cases next with
        | loop l' => exact absurd rfl (ends l')
        | finish => exact .done _ _
        | block => exact .done _ _
        | round => exact .done _ _
  | @continues l l' first second third deeds w w₁ w₂ w₃ w' result looked allowed ran left rest ih =>
    have hround : (l.round w₁).Traces (second ++ third) w₃ (.ok (.loop l')) := by
      rw [round_apply]
      exact Script.traces_bind.2 (.inr ⟨second, third, w₂, (), rfl, ran, left⟩)
    rw [List.flatMap_append, looked.flatMap_looking, List.flatMap_cons, List.flatMap_append,
      flatMap_leaving left]
    refine looked.traces_round allowed
      (Script.traces_bind.2 (.inr ⟨second ++ third, _, w₃, .loop l', ?_, hround, ih⟩))
    exact (List.append_assoc _ _ _).symm

theorem left_of_traces_leave {l' : Loop} (h : (l.leave w).Traces history w' (.ok (.loop l'))) :
    l'.left = l.left := by
  obtain h | ⟨l'', h, hsame, hiterations⟩ := continues_of_traces_leave h
  · cases h
  · cases h
    simp only [left, hsame.cap, hiterations]

/-- A round that is gone through and what follows: the body fails, the loop is left after it, or the
loop goes on. -/
theorem traces_round {result : Except Fault Unit}
    (h : Outcome.Traces ((l.round >>= Next.afterRound) w) history w' result) :
    (∃ fault, (Script.block l.body (l.ready w)).Traces history w' (.error fault) ∧
      result = .error fault) ∨
    ∃ first second w₁, history = first ++ second ∧
      (Script.block l.body (l.ready w)).Traces first w₁ (.ok ()) ∧
      ((∃ next, (l.next.leave w₁).Traces second w' next ∧ (∀ l', next ≠ .ok (.loop l')) ∧
        result = next.map fun _ => ()) ∨
      ∃ third fourth w₂ l', second = third ++ fourth ∧
        (l.next.leave w₁).Traces third w₂ (.ok (.loop l')) ∧
        (l'.script w₂).Traces fourth w' result) := by
  obtain ⟨fault, hround, rfl⟩ | ⟨during, after, w₂, next, rfl, hround, h⟩ := Script.traces_bind.1 h
  · rw [round_apply] at hround
    obtain ⟨_, ran, hfault⟩ | ⟨first, second, w₁, _, rfl, ran, left⟩ := Script.traces_bind.1 hround
    · cases hfault
      exact .inl ⟨fault, ran, rfl⟩
    · exact .inr ⟨first, second, w₁, rfl, ran, .inl ⟨_, left, fun _ => nofun, rfl⟩⟩
  · rw [round_apply] at hround
    obtain ⟨_, -, hfault⟩ | ⟨first, second, w₁, _, rfl, ran, left⟩ := Script.traces_bind.1 hround
    · cases hfault
    refine .inr ⟨first, second ++ after, w₁, List.append_assoc _ _ _, ran, ?_⟩
    obtain rfl | ⟨l', rfl, -⟩ := continues_of_traces_leave left
    · obtain ⟨rfl, rfl, rfl⟩ := Script.traces_pure.1 h
      rw [List.append_nil]
      exact .inl ⟨_, left, fun _ => nofun, rfl⟩
    · exact .inr ⟨second, after, w₂, l', rfl, left, h⟩

/-- Every history of a loop is spelled by a course. -/
theorem course_of_traces {result : Except Fault Unit} (h : (l.script w).Traces history w' result) :
    ∃ deeds, l.Course w deeds w' result ∧ history = deeds.flatMap Deed.history := by
  -- on the rounds that are left under the cap
  induction hn : l.left using Nat.strongRecOn generalizing l w history with
  | ind n ih =>
  obtain ⟨asked, looked, refused, rfl⟩ |
    ⟨first, rest, w₁, rfl, looked, ⟨capped, h⟩ | ⟨allowed, h⟩⟩ := traces_script h
  · exact ⟨_, .ends looked refused, looked.flatMap_looking.symm⟩
  · refine ⟨_, .runaway looked capped h, ?_⟩
    simp only [List.flatMap_append, looked.flatMap_looking, List.flatMap_cons, List.flatMap_nil,
      List.append_nil]
  obtain ⟨fault, ran, rfl⟩ | ⟨second, rest, w₂, rfl, ran, h⟩ := traces_round h
  · refine ⟨_, .fails looked allowed ran, ?_⟩
    simp only [List.flatMap_append, looked.flatMap_looking, List.flatMap_cons, List.flatMap_nil,
      List.append_nil]
  obtain ⟨next, left, ends, rfl⟩ | ⟨third, rest, w₃, l', rfl, left, h⟩ := h
  · refine ⟨_, .leaves looked allowed ran left ends, ?_⟩
    rw [List.flatMap_append, looked.flatMap_looking, List.flatMap_cons, flatMap_leaving left]
  · have hfewer : l'.left < n := by
      have hsame := left_of_traces_leave left
      have hround := left_eq_succ allowed
      omega
    obtain ⟨deeds, hdeeds, rfl⟩ := ih _ hfewer h rfl
    refine ⟨_, .continues looked allowed ran left hdeeds, ?_⟩
    rw [List.flatMap_append, looked.flatMap_looking, List.flatMap_cons, List.flatMap_append,
      flatMap_leaving left]

end Loop

/-- A loop statement does nothing in a session that is stopped, ends before its loop begins, or goes
through its loop. -/
theorem Stmt.IsLoop.traces_exec {s : Stmt} {kind : Script.LoopKind} {body : List Stmt}
    {history : List Exchange} {w w' : World} {result : Except Fault Unit} (hs : s.IsLoop kind body)
    (h : (Script.exec s w).Traces history w' result) :
    (w.stopped = true ∧ history = [] ∧ w' = w ∧ result = .ok ()) ∨
    (∃ ended, (s.begin w).Traces history w' ended ∧ (∀ next, ended = .ok next → next = .finish) ∧
      result = (ended.map fun _ => ()).mapError (Fault.attribute s.line)) ∨
    ∃ before during w₁ l ended, history = before ++ during ∧
      (s.begin w).Traces before w₁ (.ok (.loop l)) ∧ l.Begins kind body s.line w₁ ∧
      (l.script w₁).Traces during w' ended ∧ result = ended.mapError (Fault.attribute s.line) := by
  rw [Script.exec_eq, Script.onLine_apply] at h
  by_cases hstopped : w.stopped = true
  · rw [if_pos hstopped] at h
    obtain ⟨rfl, rfl, rfl⟩ := Outcome.traces_done.1 h
    exact .inl ⟨hstopped, rfl, rfl, rfl⟩
  rw [if_neg hstopped] at h
  obtain ⟨ended, hrun, rfl⟩ := Script.traces_mapFault.1 h
  obtain ⟨fault, hbegin, rfl⟩ | ⟨before, during, w₁, next, rfl, hbegin, hloop⟩ :=
    Script.traces_bind.1 hrun
  · exact .inr (.inl ⟨.error fault, hbegin, fun _ => nofun, rfl⟩)
  obtain rfl | ⟨l, rfl, hl⟩ := hs.begins hbegin
  · obtain ⟨rfl, rfl, rfl⟩ := Script.traces_pure.1 hloop
    rw [List.append_nil]
    exact .inr (.inl ⟨.ok .finish, hbegin, fun _ hnext => (Except.ok.inj hnext).symm, rfl⟩)
  · exact .inr (.inr ⟨before, during, w₁, l, ended, rfl, hbegin, hl, hloop, rfl⟩)

end FormBasic
