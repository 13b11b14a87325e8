import FormBasic.Proofs.Script.Histories

/-!
# Rounds of loops

A loop finds out whether its test asks for another round, and then runs its body or, at the cap,
reports a runaway. What a loop does is told as a list of acts, each of which is tied to a part of
the loop's history; which acts there can be does not depend on the cap. The cap then says which
lists come of a loop: as many rounds as it allows, and one report when the test asks once more.

Whether the session is stopped or paused is part of the test, and loops that count and loops with
their test at the end ask for it last. A loop with its test in front asks for it before it evaluates
its condition, so a condition that stops the session does not keep the report away.

## Main definitions

* `Loop.Looks` - how a loop finds out whether there is another round
* `Loop.round` - one round
* `Act`, `Loop.Acts` - what a loop does
* `Capped` - what a loop does under a cap
* `Stmt.IsLoop` - the loops among the statements

## Main statements

* `Loop.capped_of_traces` - what a loop under way does
* `Script.loop_is_capped` - what a loop statement does
-/

namespace FormBasic

/-- What a loop does. -/
inductive Act where
  /-- It finds out whether its test asks for another round. -/
  | look (asked : Bool)
  /-- It runs its body. -/
  | run
  /-- It reports a runaway. -/
  | report
  deriving DecidableEq

namespace Loop

/-- How a loop finds out whether there is another round. A loop that counts is in its range and the
session goes on; a loop with its test in front goes on and then its condition holds; a loop with its
test at the end was not left, and the session goes on. -/
inductive Looks (l : Loop) (w : World) : List Exchange → World → Except Fault Bool → Prop where
  | counting {name : Text} {stop step counter : Number}
    (rounds : l.rounds = .counting name stop step counter) :
    Looks l w [] w (.ok (Script.inRange stop step counter && !w.halted))
  | halted {test : Expr} (rounds : l.rounds = .whileTrue test) (halted : w.halted = true) :
    Looks l w [] w (.ok false)
  | holds {test : Expr} {history : List Exchange} {w' : World} {result : Except Fault Value}
    (rounds : l.rounds = .whileTrue test) (goesOn : w.halted = false)
    (evaluated : (Script.eval l.line test w).Traces history w' result) :
    Looks l w history w' (result.map Value.isTruthy)
  | notLeft {test : Option Expr} {ending : Bool} (rounds : l.rounds = .doUntil test ending) :
    Looks l w [] w (.ok !w.halted)

/-- One round: what comes before the body, the body, and what comes after it. -/
def round (l : Loop) : Script Next := do
  l.prepare
  Script.block l.body
  l.next.leave

/-- What a loop does in a history, whatever the order and the number of its acts. -/
inductive Acts : Loop → World → List Exchange → List Act → World → Except Fault Unit → Prop where
  /-- It ends. -/
  | ends (l : Loop) (w : World) : Acts l w [] [] w (.ok ())
  | looks {l : Loop} {asked : Bool} {first second : List Exchange} {acts : List Act}
    {w w₁ w₂ : World} {result : Except Fault Unit} (looked : l.Looks w first w₁ (.ok asked))
    (rest : Acts l w₁ second acts w₂ result) :
    Acts l w (first ++ second) (.look asked :: acts) w₂ result
  | lookFails {l : Loop} {history : List Exchange} {w w' : World} {fault : Fault}
    (looked : l.Looks w history w' (.error fault)) : Acts l w history [] w' (.error fault)
  | runs {l l' : Loop} {first second : List Exchange} {acts : List Act} {w w₁ w₂ : World}
    {result : Except Fault Unit} (ran : (l.round w).Traces first w₁ (.ok (.loop l')))
    (rest : Acts l' w₁ second acts w₂ result) :
    Acts l w (first ++ second) (.run :: acts) w₂ result
  /-- The test at its end leaves the loop. -/
  | leaves {l : Loop} {history : List Exchange} {w w' : World}
    (ran : (l.round w).Traces history w' (.ok .finish)) : Acts l w history [.run] w' (.ok ())
  | runFails {l : Loop} {history : List Exchange} {w w' : World} {fault : Fault}
    (ran : (l.round w).Traces history w' (.error fault)) :
    Acts l w history [.run] w' (.error fault)
  | reports {l : Loop} {first second : List Exchange} {acts : List Act} {w w₁ w₂ : World}
    {result : Except Fault Unit}
    (reported : (Script.reportRunaway l.kind l.line w).Traces first w₁ (.ok ()))
    (rest : Acts l w₁ second acts w₂ result) :
    Acts l w (first ++ second) (.report :: acts) w₂ result
  | reportFails {l : Loop} {history : List Exchange} {w w' : World} {fault : Fault}
    (reported : (Script.reportRunaway l.kind l.line w).Traces history w' (.error fault)) :
    Acts l w history [.report] w' (.error fault)

end Loop

/-- What a loop does when `cap` more rounds are allowed. -/
inductive Capped : Nat → List Act → Prop where
  | refused (cap : Nat) : Capped cap [.look false]
  | failed (cap : Nat) : Capped cap []
  | runaway : Capped 0 [.look true, .report]
  | last (cap : Nat) : Capped (cap + 1) [.look true, .run]
  | more {cap : Nat} {acts : List Act} (rest : Capped cap acts) :
    Capped (cap + 1) (.look true :: .run :: acts)

namespace Capped

variable {cap : Nat} {acts : List Act}

theorem count_run_le (h : Capped cap acts) : acts.count .run ≤ cap := by
  induction h with
  | refused => simp
  | failed => simp
  | runaway => simp
  | last => simp
  | more _ ih =>
    simp only [List.count_cons]
    simpa using ih

theorem count_report_le (h : Capped cap acts) : acts.count .report ≤ 1 := by
  induction h with
  | refused => simp
  | failed => simp
  | runaway => simp
  | last => simp
  | more _ ih => simpa [List.count_cons] using ih

/-- A report is the last act. -/
theorem getLast?_of_report (h : Capped cap acts) (hreport : .report ∈ acts) :
    acts.getLast? = some .report := by
  induction h with
  | refused => simp at hreport
  | failed => simp at hreport
  | runaway => rfl
  | last => simp at hreport
  | @more cap acts _ ih =>
    simp only [List.mem_cons, reduceCtorEq, false_or] at hreport
    rw [List.getLast?_cons_cons, List.getLast?_cons, ih hreport]
    rfl

/-- A beginning of a list that ends in an element is that element, or begins one further on. -/
theorem concat_prefix_cons {before acts : List Act} {a b : Act} :
    before ++ [a] <+: b :: acts ↔
      (before = [] ∧ a = b) ∨ ∃ rest, before = b :: rest ∧ rest ++ [a] <+: acts := by
  cases before with
  | nil => simp [List.cons_prefix_cons]
  | cons c rest =>
    simp only [List.cons_append, List.cons_prefix_cons, reduceCtorEq, false_and, false_or,
      List.cons.injEq]
    constructor
    · rintro ⟨rfl, h⟩
      exact ⟨rest, ⟨rfl, rfl⟩, h⟩
    · rintro ⟨_, ⟨rfl, rfl⟩, h⟩
      exact ⟨rfl, h⟩

theorem not_concat_prefix_nil {before : List Act} {a : Act} : ¬ before ++ [a] <+: [] := by
  simp

/-- The runaway is reported exactly when the test asks after as many rounds as are allowed. -/
theorem report_iff (h : Capped cap acts) :
    .report ∈ acts ↔ ∃ before, before.count .run = cap ∧ before ++ [.look true] <+: acts := by
  induction h with
  | refused cap => simp [concat_prefix_cons]
  | failed cap => simp
  | runaway =>
    simp only [List.mem_cons, reduceCtorEq, true_or, or_true, true_iff]
    exact ⟨[], rfl, by simp⟩
  | last cap =>
    simp only [List.mem_cons, reduceCtorEq, List.not_mem_nil, or_false, false_iff, not_exists,
      not_and]
    intro before hcount hprefix
    obtain ⟨rfl, -⟩ | ⟨rest, rfl, hrest⟩ := concat_prefix_cons.1 hprefix
    · simp at hcount
    · obtain ⟨-, h⟩ | ⟨rest', -, hrest'⟩ := concat_prefix_cons.1 hrest
      · cases h
      · exact not_concat_prefix_nil hrest'
  | @more cap acts _ ih =>
    simp only [List.mem_cons, reduceCtorEq, false_or, ih]
    constructor
    · rintro ⟨before, hcount, hprefix⟩
      refine ⟨.look true :: .run :: before, by simp [hcount], ?_⟩
      exact (List.prefix_append_right_inj [.look true, .run]).2 hprefix
    · rintro ⟨before, hcount, hprefix⟩
      obtain ⟨rfl, -⟩ | ⟨rest, rfl, hrest⟩ := concat_prefix_cons.1 hprefix
      · simp at hcount
      · obtain ⟨-, h⟩ | ⟨rest', rfl, hrest'⟩ := concat_prefix_cons.1 hrest
        · cases h
        · exact ⟨rest', by simpa [List.count_cons] using hcount, hrest'⟩

/-- The body only runs after the test has asked for it. -/
theorem asked_of_run (h : Capped cap acts) {before : List Act} (hrun : before ++ [.run] <+: acts) :
    ∃ earlier, before = earlier ++ [.look true] := by
  induction h generalizing before with
  | refused cap => simp [concat_prefix_cons] at hrun
  | failed cap => simp at hrun
  | runaway => simp [concat_prefix_cons] at hrun
  | last cap =>
    obtain ⟨-, h⟩ | ⟨rest, rfl, hrest⟩ := concat_prefix_cons.1 hrun
    · cases h
    · obtain ⟨rfl, -⟩ | ⟨rest', -, hrest'⟩ := concat_prefix_cons.1 hrest
      · exact ⟨[], rfl⟩
      · exact absurd hrest' not_concat_prefix_nil
  | more _ ih =>
    obtain ⟨-, h⟩ | ⟨rest, rfl, hrest⟩ := concat_prefix_cons.1 hrun
    · cases h
    · obtain ⟨rfl, -⟩ | ⟨rest', rfl, hrest'⟩ := concat_prefix_cons.1 hrest
      · exact ⟨[], rfl⟩
      · obtain ⟨earlier, rfl⟩ := ih hrest'
        exact ⟨.look true :: .run :: earlier, rfl⟩

end Capped

namespace Loop

variable {l : Loop} {history : List Exchange} {w w' : World}

-- ════════════════════════════════════════════════════════════════════════════
-- The parts of a loop
-- ════════════════════════════════════════════════════════════════════════════

theorem looks_of_traces_test {asked : Except Fault Bool}
    (h : (l.test w).Traces history w' asked) : l.Looks w history w' asked := by
  cases hrounds : l.rounds with
  | counting name stop step counter =>
    simp only [test, hrounds] at h
    have hlooks := Looks.counting (l := l) (w := w) hrounds
    by_cases hrange : Script.inRange stop step counter = true
    · simp only [hrange, if_true] at h
      obtain ⟨rfl, rfl, rfl⟩ := Outcome.traces_done.1 h
      simpa only [hrange, Bool.true_and] using hlooks
    · rw [Bool.not_eq_true] at hrange
      simp only [hrange, Bool.false_eq_true, if_false] at h
      obtain ⟨rfl, rfl, rfl⟩ := Script.traces_pure.1 h
      simpa only [hrange, Bool.false_and] using hlooks
  | whileTrue test =>
    simp only [Loop.test, hrounds] at h
    change Outcome.Traces ((if !w.halted then do return (← Script.eval l.line test).isTruthy
      else return false : Script Bool) w) history w' asked at h
    cases hhalted : w.halted with
    | true =>
      rw [hhalted] at h
      obtain ⟨rfl, rfl, rfl⟩ := Script.traces_pure.1 h
      exact .halted hrounds hhalted
    | false =>
      rw [hhalted] at h
      obtain ⟨result, hevaluated, rfl⟩ := Script.traces_map.1 h
      exact .holds hrounds hhalted hevaluated
  | doUntil test ending =>
    simp only [Loop.test, hrounds] at h
    obtain ⟨rfl, rfl, rfl⟩ := Outcome.traces_done.1 h
    exact .notLeft hrounds

/-- What stays the same while a loop goes through its rounds. -/
structure Continues (l l' : Loop) : Prop where
  kind : l'.kind = l.kind
  line : l'.line = l.line
  body : l'.body = l.body
  cap : l'.cap = l.cap

/-- After its body a loop is left, or it goes on with its next round. -/
theorem continues_of_traces_leave {next : Next}
    (h : (l.leave w).Traces history w' (.ok next)) :
    next = .finish ∨ ∃ l', next = .loop l' ∧ l.Continues l' ∧ l'.iterations = l.iterations := by
  have hsame : l.Continues l := ⟨rfl, rfl, rfl, rfl⟩
  cases hrounds : l.rounds with
  | counting name stop step counter =>
    simp only [leave, hrounds] at h
    obtain ⟨_, _, hfault⟩ | ⟨_, _, _, after, -, -, h⟩ := Script.traces_bind.1 h
    · cases hfault
    obtain ⟨_, _, hfault⟩ | ⟨_, _, _, _, -, -, h⟩ := Script.traces_bind.1 h
    · cases hfault
    obtain ⟨-, -, hnext⟩ := Script.traces_pure.1 h
    cases hnext
    refine .inr ⟨_, rfl, ⟨?_, rfl, rfl, rfl⟩, rfl⟩
    simp only [kind, hrounds]
  | whileTrue test =>
    simp only [leave, hrounds] at h
    obtain ⟨-, -, hnext⟩ := Script.traces_pure.1 h
    cases hnext
    exact .inr ⟨l, rfl, hsame, rfl⟩
  | doUntil test ending =>
    cases test with
    | none =>
      simp only [leave, hrounds] at h
      obtain ⟨-, -, hnext⟩ := Script.traces_pure.1 h
      cases hnext
      exact .inr ⟨l, rfl, hsame, rfl⟩
    | some test =>
      simp only [leave, hrounds] at h
      obtain ⟨fault | value, -, hnext⟩ := Script.traces_map.1 h
      · cases hnext
      · cases hnext
        by_cases hending : (value.isTruthy == ending) = true
        · exact .inl (if_pos hending)
        · exact .inr ⟨l, if_neg hending, hsame, rfl⟩

/-- After a round a loop is left, or it goes on with one round less. -/
theorem continues_of_traces_round {next : Next}
    (h : (l.round w).Traces history w' (.ok next)) :
    next = .finish ∨
      ∃ l', next = .loop l' ∧ l.Continues l' ∧ l'.iterations = l.iterations + 1 := by
  obtain ⟨_, _, hfault⟩ | ⟨_, _, _, _, -, -, h⟩ := Script.traces_bind.1 h
  · cases hfault
  obtain ⟨_, _, hfault⟩ | ⟨_, _, _, _, -, -, h⟩ := Script.traces_bind.1 h
  · cases hfault
  obtain hfinish | ⟨l', hloop, hl', hiterations⟩ := continues_of_traces_leave h
  · exact .inl hfinish
  · exact .inr ⟨l', hloop, ⟨hl'.kind, hl'.line, hl'.body, hl'.cap⟩, hiterations⟩

end Loop

/-- How a loop goes on after a round. -/
def Next.afterRound : Next → Script Unit
  | .loop l => l.script
  | _ => pure ()

namespace Loop

variable {l : Loop} {history : List Exchange} {w w' : World}

theorem prepare_round (l : Loop) :
    (l.prepare >>= fun _ => (Next.round l.next).script) = l.round >>= Next.afterRound := by
  refine Eq.trans (Script.bind_congr _ fun _ => ?_) (Script.bind_assoc _ _ _).symm
  refine Eq.trans (Script.bind_congr _ fun _ => ?_) (Script.bind_assoc _ _ _).symm
  exact Script.bind_congr _ fun next => by cases next <;> rfl

/-- A loop that is under way is its test, followed by a round or a report if the test asks for it. -/
theorem script_eq_test (l : Loop) : l.script = l.test >>= fun asked =>
    if asked then
      if l.cap ≤ l.iterations then Script.reportRunaway l.kind l.line
      else l.round >>= Next.afterRound
    else pure () := by
  rw [l.script_eq, enter]
  refine (Script.bind_assoc _ _ _).trans (Script.bind_congr _ fun asked => ?_)
  cases asked with
  | false => rfl
  | true =>
    simp only [if_true]
    split
    · exact (Script.bind_assoc _ _ _).trans (Script.bind_pure _)
    · exact (Script.bind_assoc _ _ _).trans l.prepare_round

/-- A loop that is under way finds out whether there is another round. At the cap it then reports a
runaway, and below the cap it goes through the round and goes on. -/
theorem traces_script {result : Except Fault Unit} (h : (l.script w).Traces history w' result) :
    (∃ asked, l.Looks w history w' asked ∧ asked ≠ .ok true ∧ result = asked.map fun _ => ()) ∨
      ∃ first second w₁, history = first ++ second ∧ l.Looks w first w₁ (.ok true) ∧
        (l.cap ≤ l.iterations ∧
            (Script.reportRunaway l.kind l.line w₁).Traces second w' result ∨
          ¬ l.cap ≤ l.iterations ∧
            Outcome.Traces ((l.round >>= Next.afterRound) w₁) second w' result) := by
  rw [script_eq_test] at h
  obtain ⟨fault, hlook, rfl⟩ | ⟨first, second, w₁, asked, rfl, hlook, h⟩ := Script.traces_bind.1 h
  · exact .inl ⟨_, looks_of_traces_test hlook, by simp, rfl⟩
  · have hlook := looks_of_traces_test hlook
    cases asked with
    | false =>
      obtain ⟨rfl, rfl, rfl⟩ := Script.traces_pure.1 h
      exact .inl ⟨.ok false, by rwa [List.append_nil], by simp, rfl⟩
    | true =>
      refine .inr ⟨first, second, w₁, rfl, hlook, ?_⟩
      simp only [if_true] at h
      by_cases hcap : l.cap ≤ l.iterations
      · rw [if_pos hcap] at h
        exact .inl ⟨hcap, h⟩
      · rw [if_neg hcap] at h
        exact .inr ⟨hcap, h⟩

/-- A test that asks for another round was asked in a session that goes on, unless a condition in
front of the loop was evaluated since. -/
theorem Looks.goesOn {asked : Except Fault Bool} (h : l.Looks w history w' asked)
    (hasked : asked = .ok true) : l.kind = .whileLoop ∨ w'.halted = false := by
  cases h with
  | counting rounds =>
    rw [Except.ok.injEq, Bool.and_eq_true, Bool.not_eq_true'] at hasked
    exact .inr hasked.2
  | halted => cases hasked
  | holds rounds => exact .inl (by simp only [kind, rounds])
  | notLeft rounds =>
    rw [Except.ok.injEq, Bool.not_eq_true'] at hasked
    exact .inr hasked

theorem Looks.acts {asked : Except Fault Bool} (h : l.Looks w history w' asked)
    (hasked : asked ≠ .ok true) : ∃ acts, l.Acts w history acts w' (asked.map fun _ => ()) ∧
      (∀ cap, Capped cap acts) ∧ .report ∉ acts := by
  match asked, hasked with
  | .error fault, _ => exact ⟨[], .lookFails h, Capped.failed, List.not_mem_nil⟩
  | .ok false, _ =>
    refine ⟨[.look false], ?_, Capped.refused, by simp⟩
    have hacts := Acts.looks h (.ends l w')
    rwa [List.append_nil] at hacts

/-- A report of a runaway is one exchange, and its reply is what the loop ends with. -/
theorem traces_reportRunaway {kind : Script.LoopKind} {line : Line} {result : Except Fault Unit}
    (h : (Script.reportRunaway kind line w).Traces history w' result) :
    history = [.asked (.errorReport (Script.runawayMessage kind w.config.maxIterations) line) w w'
      result] :=
  Script.traces_ask.1 h

/-- What a loop under way does: at most as many rounds as are left under the cap, and one report if
its test asks once more, which is then the last thing it does. -/
theorem capped_of_traces {result : Except Fault Unit} (h : (l.script w).Traces history w' result) :
    ∃ acts, l.Acts w history acts w' result ∧ Capped l.left acts ∧
      (.report ∈ acts → ∃ earlier left, (l.kind = .whileLoop ∨ left.halted = false) ∧
        history = earlier ++ [.asked (.errorReport
          (Script.runawayMessage l.kind left.config.maxIterations) l.line) left w' result]) := by
  induction hleft : l.left generalizing l w history with
  | zero =>
    obtain ⟨asked, hlook, hasked, rfl⟩ | ⟨first, second, w₁, rfl, hlook, ⟨hcap, h⟩ | ⟨hcap, h⟩⟩ :=
      traces_script h
    · obtain ⟨acts, hacts, hcapped, hnone⟩ := hlook.acts hasked
      exact ⟨acts, hacts, hcapped 0, fun hreport => absurd hreport hnone⟩
    · refine ⟨[.look true, .report], ?_, .runaway, fun _ => ?_⟩
      · refine .looks hlook ?_
        cases result with
        | error fault => exact .reportFails h
        | ok ended =>
          have hacts := Acts.reports h (.ends l w')
          rwa [List.append_nil] at hacts
      · exact ⟨first, w₁, hlook.goesOn rfl, congrArg (first ++ ·) (traces_reportRunaway h)⟩
    · have := left_eq_succ hcap
      omega
  | succ cap ih =>
    obtain ⟨asked, hlook, hasked, rfl⟩ | ⟨first, second, w₁, rfl, hlook, ⟨hcap, h⟩ | ⟨hcap, h⟩⟩ :=
      traces_script h
    · obtain ⟨acts, hacts, hcapped, hnone⟩ := hlook.acts hasked
      exact ⟨acts, hacts, hcapped _, fun hreport => absurd hreport hnone⟩
    · have := left_eq_zero hcap
      omega
    · obtain ⟨fault, hround, rfl⟩ | ⟨third, fourth, w₂, next, rfl, hround, h⟩ :=
        Script.traces_bind.1 h
      · exact ⟨[.look true, .run], .looks hlook (.runFails hround), .last cap,
          fun h => by simp at h⟩
      obtain rfl | ⟨l', rfl, hl', hiterations⟩ := continues_of_traces_round hround
      · obtain ⟨rfl, rfl, rfl⟩ := Script.traces_pure.1 h
        rw [List.append_nil]
        exact ⟨[.look true, .run], .looks hlook (.leaves hround), .last cap, fun h => by simp at h⟩
      · have hleft' : l'.left = cap := by
          have hsucc := left_eq_succ hcap
          simp only [left, next, hl'.cap, hiterations] at hsucc hleft ⊢
          omega
        obtain ⟨acts, hacts, hcapped, hreport⟩ := ih h hleft'
        refine ⟨.look true :: .run :: acts, .looks hlook (.runs hround hacts), .more hcapped, ?_⟩
        intro hmem
        obtain ⟨earlier, left, hgoes, rfl⟩ := hreport (by simpa using hmem)
        rw [hl'.kind] at hgoes
        refine ⟨first ++ (third ++ earlier), left, hgoes, ?_⟩
        rw [hl'.kind, hl'.line, List.append_assoc, List.append_assoc]

end Loop

-- ════════════════════════════════════════════════════════════════════════════
-- Loop statements
-- ════════════════════════════════════════════════════════════════════════════

/-- The loops among the statements, with their kind and their body. -/
inductive Stmt.IsLoop : Stmt → Script.LoopKind → List Stmt → Prop where
  | forLoop (name : Text) (start stop : Expr) (step : Option Expr) (body : List Stmt)
    (line : Line) : IsLoop (.forLoop name start stop step body line) .forLoop body
  | whileLoop (test : Expr) (body : List Stmt) (line : Line) :
    IsLoop (.whileLoop test body line) .whileLoop body
  | doLoop (body : List Stmt) (test : Option Expr) (ending testAtEnd : Bool) (line : Line) :
    IsLoop (.doLoop body test ending testAtEnd line) .doLoop body

/-- A loop that has not gone through any round yet, under the cap that the settings of the world
have. -/
structure Loop.Begins (l : Loop) (kind : Script.LoopKind) (body : List Stmt) (line : Line)
    (w : World) : Prop where
  kind : l.kind = kind
  body : l.body = body
  line : l.line = line
  cap : l.cap = w.config.maxIterations
  iterations : l.iterations = 0

/-- What the cap says about what a loop does: how often it runs its body, each time because its test
asked for it, and when it reports a runaway. -/
structure WithinCap (cap : Int) (acts : List Act) : Prop where
  runs : acts.count .run ≤ cap.toNat
  asked : ∀ earlier, earlier ++ [.run] <+: acts → ∃ before, earlier = before ++ [.look true]
  reports : acts.count .report ≤ 1
  report_iff : .report ∈ acts ↔
    ∃ earlier, earlier.count .run = cap.toNat ∧ earlier ++ [.look true] <+: acts
  report_last : .report ∈ acts → acts.getLast? = some .report

theorem Capped.withinCap {cap : Int} {acts : List Act} (h : Capped cap.toNat acts) :
    WithinCap cap acts :=
  ⟨h.count_run_le, fun _ => h.asked_of_run, h.count_report_le, h.report_iff, h.getLast?_of_report⟩

section Begin

variable {s : Stmt} {kind : Script.LoopKind} {body : List Stmt} {history : List Exchange}
  {w w' : World} {next : Next}

theorem begins_of_traces_beginLoop {rounds : Rounds} {line : Line}
    (h : (beginLoop rounds line body w).Traces history w' (.ok next)) :
    ∃ l, next = .loop l ∧ l.Begins l.kind body line w' ∧ l.rounds = rounds := by
  obtain ⟨-, rfl, hnext⟩ := Outcome.traces_done.1 h
  cases hnext
  exact ⟨_, rfl, ⟨rfl, rfl, rfl, rfl, rfl⟩, rfl⟩

theorem begins_of_traces_beginCounting {name : Text} {start stop step : Number} {line : Line}
    (h : (beginCounting name start stop step line body w).Traces history w' (.ok next)) :
    next = .finish ∨ ∃ l, next = .loop l ∧ l.Begins .forLoop body line w' := by
  obtain ⟨_, _, hfault⟩ | ⟨_, _, _, _, -, -, h⟩ := Script.traces_bind.1 h
  · cases hfault
  split at h
  · obtain ⟨-, -, hnext⟩ := Script.traces_pure.1 h
    cases hnext
    exact .inl rfl
  · obtain ⟨l, rfl, hl, hrounds⟩ := begins_of_traces_beginLoop h
    refine .inr ⟨l, rfl, ⟨?_, hl.body, hl.line, hl.cap, hl.iterations⟩⟩
    simp only [Loop.kind, hrounds]

/-- A loop statement leads to its loop, unless it counts by steps of zero. -/
theorem Stmt.IsLoop.begins (hs : s.IsLoop kind body)
    (h : (s.begin w).Traces history w' (.ok next)) :
    next = .finish ∨ ∃ l, next = .loop l ∧ l.Begins kind body s.line w' := by
  cases hs with
  | forLoop name start stop step _ line =>
    obtain ⟨_, _, hfault⟩ | ⟨_, _, _, first, -, -, h⟩ := Script.traces_bind.1 h
    · cases hfault
    obtain ⟨_, _, hfault⟩ | ⟨_, _, _, last, -, -, h⟩ := Script.traces_bind.1 h
    · cases hfault
    cases step with
    | none =>
      change Outcome.Traces (beginCounting name first.toNumber last.toNumber (.int 1) line body _)
        _ _ _ at h
      exact begins_of_traces_beginCounting h
    | some e =>
      obtain ⟨_, _, hfault⟩ | ⟨_, _, _, value, -, -, h⟩ := Script.traces_bind.1 h
      · cases hfault
      change Outcome.Traces (beginCounting name first.toNumber last.toNumber value.toNumber line
        body _) _ _ _ at h
      exact begins_of_traces_beginCounting h
  | whileLoop test _ line =>
    obtain ⟨l, rfl, hl, hrounds⟩ := begins_of_traces_beginLoop h
    refine .inr ⟨l, rfl, ⟨?_, hl.body, hl.line, hl.cap, hl.iterations⟩⟩
    simp only [Loop.kind, hrounds]
  | doLoop _ test ending testAtEnd line =>
    obtain ⟨l, rfl, hl, hrounds⟩ := begins_of_traces_beginLoop h
    refine .inr ⟨l, rfl, ⟨?_, hl.body, hl.line, hl.cap, hl.iterations⟩⟩
    simp only [Loop.kind, hrounds]

end Begin

namespace Script

variable {s : Stmt} {kind : LoopKind} {body : List Stmt} {history : List Exchange}
  {w w' : World} {result : Except Fault Unit}

/-- A block goes on with the statement after one that has ended. -/
theorem traces_block_cons {rest : List Stmt} {later : List Exchange} {w'' : World}
    {result' : Except Fault Unit} (hgoes : w.halted = false)
    (hfirst : (exec s w).Traces history w' (.ok ()))
    (hrest : (block rest w').Traces later w'' result') :
    (block (s :: rest) w).Traces (history ++ later) w'' result' := by
  rw [block_cons_apply, hgoes]
  exact traces_bind.2 (.inr ⟨history, later, w', (), rfl, hfirst, hrest⟩)

/-- What a loop statement does, whatever hosts reply and whatever happens while it waits. It does
nothing in a session that is stopped; it may end before its loop begins, because an expression fails
or because it counts by steps of zero. Otherwise its loop begins with no round gone through, under
the cap of the settings. The loop runs its body at most as often as the cap allows, each time
because its test asked for it. It reports a runaway at most once, and exactly when the test asks for
more after as many rounds as the cap allows. The report is the last thing the loop does: the
statement ends with the host's reply to it, and the block goes on with the next statement. Loops
that count and loops with their test at the end report only in a session that is neither stopped nor
paused; a loop with its test in front found the session so before it evaluated its condition. -/
theorem loop_is_capped (hs : s.IsLoop kind body) (h : (exec s w).Traces history w' result) :
    (w.stopped = true ∧ history = [] ∧ w' = w ∧ result = .ok ()) ∨
    (∃ ended, (s.begin w).Traces history w' ended ∧ (∀ next, ended = .ok next → next = .finish) ∧
      result = (ended.map fun _ => ()).mapError (Fault.attribute s.line)) ∨
    ∃ before during w₁ l acts ended, history = before ++ during ∧
      (s.begin w).Traces before w₁ (.ok (.loop l)) ∧ l.Begins kind body s.line w₁ ∧
      l.Acts w₁ during acts w' ended ∧ result = ended.mapError (Fault.attribute s.line) ∧
      WithinCap l.cap acts ∧
      (.report ∈ acts →
        (∃ earlier left, (kind = .whileLoop ∨ left.halted = false) ∧
          during = earlier ++ [.asked (.errorReport
            (runawayMessage kind left.config.maxIterations) s.line) left w' ended]) ∧
        (ended = .ok () → w.halted = false → ∀ rest later w'' result',
          (block rest w').Traces later w'' result' →
            (block (s :: rest) w).Traces (history ++ later) w'' result')) := by
  have hexec := h
  rw [exec_eq, onLine_apply] at h
  by_cases hstopped : w.stopped = true
  · rw [if_pos hstopped] at h
    obtain ⟨rfl, rfl, rfl⟩ := Outcome.traces_done.1 h
    exact .inl ⟨hstopped, rfl, rfl, rfl⟩
  rw [if_neg hstopped] at h
  obtain ⟨ended, hrun, rfl⟩ := traces_mapFault.1 h
  obtain ⟨fault, hbegin, rfl⟩ | ⟨before, during, w₁, next, rfl, hbegin, hloop⟩ :=
    traces_bind.1 hrun
  · exact .inr (.inl ⟨.error fault, hbegin, fun _ hnext => (by cases hnext), rfl⟩)
  obtain rfl | ⟨l, rfl, hl⟩ := hs.begins hbegin
  · obtain ⟨rfl, rfl, rfl⟩ := traces_pure.1 hloop
    rw [List.append_nil]
    exact .inr (.inl ⟨.ok .finish, hbegin, fun _ hnext => (Except.ok.inj hnext).symm, rfl⟩)
  have hleft : l.left = l.cap.toNat := by
    rw [Loop.left, hl.iterations, Int.natCast_zero, Int.sub_zero]
  obtain ⟨acts, hacts, hcapped, hreport⟩ := Loop.capped_of_traces hloop
  rw [hleft] at hcapped
  refine .inr (.inr ⟨before, during, w₁, l, acts, ended, rfl, hbegin, hl, hacts, rfl,
    hcapped.withinCap, fun hmem => ⟨?_, ?_⟩⟩)
  · obtain ⟨earlier, left, hgoes, hduring⟩ := hreport hmem
    rw [hl.kind] at hgoes hduring
    rw [hl.line] at hduring
    exact ⟨earlier, left, hgoes, hduring⟩
  · rintro rfl hgoes rest later w'' result' hrest
    exact traces_block_cons hgoes hexec hrest

/-- A loop whose condition stops the session and holds. -/
def closingLoop : Stmt :=
  .whileLoop (.unary .not (.call (.member (.ident "Me") "Close") [])) [] (.ofNat 1)

/-- A world in which loops are allowed no round. -/
def noRounds : World where
  config := { maxIterations := 0 }

/-- The report of the loop, in the session that its condition stopped. -/
def closingReport : Exchange :=
  .asked (.errorReport (runawayMessage .whileLoop 0) (.ofNat 1)) (noRounds.signal .stop)
    (noRounds.signal .stop) (.ok ())

theorem traces_closingLoop :
    (exec closingLoop noRounds).Traces [closingReport] (noRounds.signal .stop) (.ok ()) :=
  .asking (.done _ _)

/-- The loop with its test in front reports a runaway although its condition has stopped the
session. -/
theorem loop_is_capped_closingLoop :
    closingLoop.IsLoop .whileLoop [] ∧
    (exec closingLoop noRounds).Traces [closingReport] (noRounds.signal .stop) (.ok ()) ∧
    (noRounds.signal .stop).halted = true ∧
    ∃ (l : Loop) (acts : List Act) (ended : Except Fault Unit),
      l.Begins .whileLoop [] (.ofNat 1) noRounds ∧
      l.Acts noRounds [closingReport] acts (noRounds.signal .stop) ended ∧
      WithinCap 0 acts := by
  have hloop : closingLoop.IsLoop .whileLoop [] := .whileLoop _ _ _
  refine ⟨hloop, traces_closingLoop, rfl, ?_⟩
  obtain ⟨hstopped, -⟩ | ⟨ended, hbegin, -⟩ |
    ⟨before, during, w₁, l, acts, ended, hhistory, hbegin, hl, hacts, -, hcap, -⟩ :=
    loop_is_capped hloop traces_closingLoop
  · cases hstopped
  · obtain ⟨hnil, -⟩ := Outcome.traces_done.1 hbegin
    cases hnil
  · obtain ⟨rfl, rfl, -⟩ := Outcome.traces_done.1 hbegin
    rw [List.nil_append] at hhistory
    subst hhistory
    rw [hl.cap] at hcap
    exact ⟨l, acts, ended, hl, hacts, hcap⟩

end Script

end FormBasic
