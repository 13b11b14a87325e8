import FormBasic.Proofs.Script.Course

/-!
# Loops in a session that is stopped or paused

When a run of its body leaves the session stopped or paused, a loop ends without doing anything
else, with one exception: a condition behind the body is evaluated before the loop finds out. If the
session is still stopped or paused afterwards, the loop ends there.

## Main definitions

* `Loop.Rests` - what may follow a run of the body in a session that is stopped or paused

## Main statements

* `Loop.Course.eq_nil_of_halted` - a loop that finds the session stopped or paused does nothing
* `Loop.Course.rests` - what follows a run of the body in the course of a loop
* `Script.halted_loop_rests` - what a loop statement does
-/

namespace FormBasic

/-- What may follow a run of the body that ends in a session that is stopped or paused. -/
inductive Loop.Rests (l : Loop) (finish : World) : List Deed → Prop where
  | ends : Rests l finish []
  /-- The condition behind the body is evaluated, and nothing else is done unless this leaves the
  session going on. -/
  | looks {test : Expr} {ending : Bool} {look : Deed} {later : List Deed}
    (rounds : l.rounds = .doUntil (some test) ending) (sort : look.sort = .evaluation)
    (start : look.start = finish) (still : look.finish.halted = true → later = []) :
    Rests l finish (look :: later)

namespace Loop

variable {l : Loop} {history : List Exchange} {w w' : World} {deeds : List Deed}
  {result : Except Fault Unit}

/-- A loop that finds the session stopped or paused asks for no other round. -/
theorem Looks.refused_of_halted {asked : Except Fault Bool} (h : l.Looks w history w' asked)
    (hw : w.halted = true) : l.looking w history w' = [] ∧ w' = w ∧ asked = .ok false := by
  cases h with
  | counting rounds =>
    refine ⟨?_, rfl, ?_⟩
    · simp only [looking, rounds]
    · rw [hw, Bool.not_true, Bool.and_false]
  | halted rounds =>
    refine ⟨?_, rfl, rfl⟩
    simp only [looking, rounds, hw, if_true]
  | holds rounds goesOn =>
    rw [hw] at goesOn
    cases goesOn
  | notLeft rounds =>
    refine ⟨?_, rfl, ?_⟩
    · simp only [looking, rounds]
    · rw [hw, Bool.not_true]

/-- A loop that finds the session stopped or paused does nothing. -/
theorem Course.eq_nil_of_halted (h : l.Course w deeds w' result) (hw : w.halted = true) :
    deeds = [] ∧ w' = w ∧ result = .ok () := by
  cases h with
  | ends looked =>
    obtain ⟨hdeeds, rfl, rfl⟩ := looked.refused_of_halted hw
    exact ⟨hdeeds, rfl, rfl⟩
  | runaway looked => cases (looked.refused_of_halted hw).2.2
  | fails looked => cases (looked.refused_of_halted hw).2.2
  | leaves looked => cases (looked.refused_of_halted hw).2.2
  | continues looked => cases (looked.refused_of_halted hw).2.2

/-- Finding out about another round runs no body. -/
theorem sort_looking {d : Deed} {start finish : World}
    (h : d ∈ l.looking start history finish) : d.sort = .evaluation := by
  unfold looking at h
  split at h
  · split at h
    · cases h
    · rw [List.mem_singleton.1 h]
  · cases h

/-- What a loop does after its body runs no body. -/
theorem sort_leaving {d : Deed} {start finish : World}
    (h : d ∈ l.leaving start history finish) : d.sort = .evaluation := by
  unfold leaving at h
  split at h
  · rw [List.mem_singleton.1 h]
  · cases h

/-- What a loop does after its body and after that, when the body leaves the session stopped or
paused. -/
theorem rests_leaving {next : Except Fault Next} (left : (l.next.leave w).Traces history w' next)
    (hw : w.halted = true) (hlater : w'.halted = true → deeds = []) :
    l.Rests w (l.leaving w history w' ++ deeds) := by
  cases hrounds : l.rounds with
  | counting name stop step counter =>
    have hnext : l.next.rounds = .counting name stop step counter := hrounds
    have hw' : w'.halted = true := by
      rw [leave_counting hnext] at left
      split at left
      · rw [(Outcome.traces_done.1 left).2.1]
        exact hw
      · rw [(Outcome.traces_failed.1 left).2.1]
        exact hw
    simp only [leaving, hrounds, List.nil_append]
    rw [hlater hw']
    exact .ends
  | whileTrue test =>
    simp only [leave, Loop.next, hrounds] at left
    obtain ⟨-, rfl, -⟩ := Script.traces_pure.1 left
    simp only [leaving, hrounds, List.nil_append]
    rw [hlater hw]
    exact .ends
  | doUntil test ending =>
    cases test with
    | none =>
      simp only [leave, Loop.next, hrounds] at left
      obtain ⟨-, rfl, -⟩ := Script.traces_pure.1 left
      simp only [leaving, hrounds, List.nil_append]
      rw [hlater hw]
      exact .ends
    | some test =>
      simp only [leaving, hrounds]
      exact .looks hrounds rfl rfl hlater

/-- A loop goes on with the same test behind its body. -/
theorem rounds_of_leave {l' : Loop} (left : (l.leave w).Traces history w' (.ok (.loop l')))
    {test : Option Expr} {ending : Bool} (h : l'.rounds = .doUntil test ending) :
    l.rounds = .doUntil test ending := by
  cases hrounds : l.rounds with
  | counting name stop step counter =>
    rw [leave_counting hrounds] at left
    split at left
    · cases (Outcome.traces_done.1 left).2.2
      cases h
    · cases (Outcome.traces_failed.1 left).2.2
  | whileTrue test =>
    simp only [leave, hrounds] at left
    cases (Script.traces_pure.1 left).2.2
    rw [hrounds] at h
    cases h
  | doUntil test ending =>
    cases test with
    | none =>
      simp only [leave, hrounds] at left
      cases (Script.traces_pure.1 left).2.2
      rw [← hrounds, h]
    | some test =>
      simp only [leave, hrounds] at left
      obtain ⟨fault | value, -, hnext⟩ := Script.traces_map.1 left
      · cases hnext
      · rw [Except.map, Except.ok.injEq] at hnext
        split at hnext
        · cases hnext
        · cases hnext
          rw [← hrounds, h]

theorem Rests.of_rounds {l' : Loop} {finish : World} (h : l'.Rests finish deeds)
    (hrounds : ∀ test ending, l'.rounds = .doUntil test ending → l.rounds = .doUntil test ending) :
    l.Rests finish deeds := by
  cases h with
  | ends => exact .ends
  | looks rounds sort start still => exact .looks (hrounds _ _ rounds) sort start still

/-- Evaluations in front of other deeds are no runs. -/
theorem suffix_of_evaluations {evaluations later : List Deed} {run : Deed}
    (hevaluations : ∀ d ∈ evaluations, d.sort = .evaluation) (hrun : run.sort = .run)
    (h : run :: later <:+ evaluations ++ deeds) : run :: later <:+ deeds := by
  induction evaluations with
  | nil => exact h
  | cons d rest ih =>
    rcases List.suffix_cons_iff.1 h with heq | h
    · have hsort := hevaluations d List.mem_cons_self
      rw [← (List.cons.inj heq).1, hrun] at hsort
      cases hsort
    · exact ih (fun d hd => hevaluations d (List.mem_cons_of_mem _ hd)) h

/-- In the course of a loop, only a condition behind the body may come after a run of the body that
ends in a session that is stopped or paused. -/
theorem Course.rests (h : l.Course w deeds w' result) {run : Deed} {later : List Deed}
    (hsuffix : run :: later <:+ deeds) (hrun : run.sort = .run) (hhalted : run.finish.halted = true) :
    l.Rests run.finish later := by
  induction h with
  | @ends l history w w' asked =>
    have hmem := hsuffix.subset List.mem_cons_self
    rw [sort_looking hmem] at hrun
    cases hrun
  | @runaway l first second w w₁ w' result =>
    have hlast := suffix_of_evaluations (fun _ => sort_looking) hrun hsuffix
    obtain rfl := List.mem_singleton.1 (hlast.subset List.mem_cons_self)
    cases hrun
  | @fails l first second w w₁ w' fault =>
    have hlast := suffix_of_evaluations (fun _ => sort_looking) hrun hsuffix
    rcases List.suffix_cons_iff.1 hlast with heq | hnil
    · rw [(List.cons.inj heq).2]
      exact .ends
    · cases List.suffix_nil.1 hnil
  | @leaves l first second third w w₁ w₂ w' next looked allowed ran left ends =>
    have hlast := suffix_of_evaluations (fun _ => sort_looking) hrun hsuffix
    rcases List.suffix_cons_iff.1 hlast with heq | hleaving
    · obtain ⟨rfl, rfl⟩ := List.cons.inj heq
      have hrests := rests_leaving left hhalted fun _ => rfl
      rwa [List.append_nil] at hrests
    · rw [sort_leaving (hleaving.subset List.mem_cons_self)] at hrun
      cases hrun
  | @continues l l' first second third deeds w w₁ w₂ w₃ w' result looked allowed ran left rest ih =>
    have hlast := suffix_of_evaluations (fun _ => sort_looking) hrun hsuffix
    rcases List.suffix_cons_iff.1 hlast with heq | hafter
    · obtain ⟨rfl, rfl⟩ := List.cons.inj heq
      exact rests_leaving left hhalted fun hw₃ => (rest.eq_nil_of_halted hw₃).1
    · have hrest := suffix_of_evaluations (fun _ => sort_leaving) hrun hafter
      exact (ih hrest).of_rounds fun _ _ => rounds_of_leave (l := l.next) left

end Loop

namespace Script

variable {s : Stmt} {kind : LoopKind} {body : List Stmt} {history : List Exchange}
  {w w' : World} {result : Except Fault Unit}

/-- What a loop statement does when runs of its body leave the session stopped or paused, whatever
hosts reply and whatever happens while it waits. -/
theorem halted_loop_rests (hs : s.IsLoop kind body) (h : (exec s w).Traces history w' result) :
    (w.stopped = true ∧ history = [] ∧ w' = w ∧ result = .ok ()) ∨
    (∃ ended, (s.begin w).Traces history w' ended ∧ (∀ next, ended = .ok next → next = .finish) ∧
      result = (ended.map fun _ => ()).mapError (Fault.attribute s.line)) ∨
    ∃ before w₁ l deeds ended, (s.begin w).Traces before w₁ (.ok (.loop l)) ∧
      l.Begins kind body s.line w₁ ∧ l.Course w₁ deeds w' ended ∧
      history = before ++ deeds.flatMap Deed.history ∧
      result = ended.mapError (Fault.attribute s.line) ∧
      ∀ run later, run :: later <:+ deeds → run.sort = .run → run.finish.halted = true →
        l.Rests run.finish later := by
  obtain hstopped | hends | ⟨before, during, w₁, l, ended, rfl, hbegin, hl, hloop, rfl⟩ :=
    hs.traces_exec h
  · exact .inl hstopped
  · exact .inr (.inl hends)
  · obtain ⟨deeds, hcourse, rfl⟩ := Loop.course_of_traces hloop
    exact .inr (.inr ⟨before, w₁, l, deeds, ended, hbegin, hl, hcourse, rfl, rfl,
      fun run later => hcourse.rests⟩)

/-- A loop whose body stops the session and whose condition asks the host. -/
def askingLoop : Stmt :=
  .doLoop [.call (.member (.ident "Me") "Close") [] (.ofNat 2)]
    (some (.call (.ident "InputBox") [.string "More?"])) false true (.ofNat 1)

/-- A world in which loops are allowed two rounds. -/
def twoRounds : World where
  config := { maxIterations := 2 }

/-- What the condition asks, in the session that the body stopped. -/
def askedAgain : Exchange :=
  .asked (.inputBox "More?" none none) (twoRounds.signal .stop) (twoRounds.signal .stop)
    (.ok (Value.text ""))

theorem traces_askingLoop :
    (exec askingLoop twoRounds).Traces [askedAgain] (twoRounds.signal .stop) (.ok ()) :=
  .asking (.done _ _)

/-- The condition behind the body asks the host in a session that the body has stopped, and nothing
else follows. -/
theorem halted_loop_rests_askingLoop :
    askingLoop.IsLoop .doLoop [.call (.member (.ident "Me") "Close") [] (.ofNat 2)] ∧
    (exec askingLoop twoRounds).Traces [askedAgain] (twoRounds.signal .stop) (.ok ()) ∧
    askedAgain.left.halted = true ∧
    ∃ (l : Loop) (deeds : List Deed) (ended : Except Fault Unit),
      l.Course twoRounds deeds (twoRounds.signal .stop) ended ∧
      [askedAgain] = deeds.flatMap Deed.history ∧
      ∀ run later, run :: later <:+ deeds → run.sort = .run → run.finish.halted = true →
        l.Rests run.finish later := by
  have hloop : askingLoop.IsLoop .doLoop [.call (.member (.ident "Me") "Close") [] (.ofNat 2)] :=
    .doLoop _ _ _ _ _
  refine ⟨hloop, traces_askingLoop, rfl, ?_⟩
  obtain ⟨hstopped, -⟩ | ⟨ended, hbegin, -⟩ |
    ⟨before, w₁, l, deeds, ended, hbegin, -, hcourse, hhistory, -, hrests⟩ :=
    halted_loop_rests hloop traces_askingLoop
  · cases hstopped
  · obtain ⟨hnil, -⟩ := Outcome.traces_done.1 hbegin
    cases hnil
  · obtain ⟨rfl, rfl, -⟩ := Outcome.traces_done.1 hbegin
    exact ⟨l, deeds, ended, hcourse, hhistory, hrests⟩

end Script

end FormBasic
