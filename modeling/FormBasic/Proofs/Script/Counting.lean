import FormBasic.Proofs.Script.Course
import FormBasic.Proofs.Script.Running
import FormBasic.Proofs.Table

/-!
# Loops that count

A loop that counts over integers runs its body once for every integer of its range that is reached
in steps from its start, unless the cap allows fewer rounds. When the body leaves the variable alone
and the session going on, every run finds the next integer in the variable, and the loop leaves the
first integer there that it has not run for.

What the body does while the loop counts is up to its surroundings, so it is described by the waits
that may happen: a body is steady if it ends well and leaves the variable alone whenever its waits
are of some sort.

## Main definitions

* `Script.roundsFrom` - the number of integers in a range, in steps
* `Script.Steady` - bodies that let a loop count
* `Script.CountedRuns` - runs of a body, one for every integer
* `Script.CountsTo` - what a loop that counts does

## Main statements

* `Script.CountedRuns.sees`, `Script.CountedRuns.leaves` - the variable in these runs and after them
* `Script.traces_counting` - a loop under way counts
* `Script.for_counts` - a loop statement counts
-/

namespace FormBasic

namespace World

theorem setVariable_of_get? {w : World} {name : Text} {value : Value}
    (h : w.globals.get? name = some value) : w.setVariable name value = w := by
  rw [setVariable, Table.set_of_get? h]

theorem get?_setVariable (w : World) (name : Text) (value : Value) :
    (w.setVariable name value).globals.get? name = some value := by
  rw [setVariable, Table.get?_set, if_pos rfl]

end World

namespace Script

-- ════════════════════════════════════════════════════════════════════════════
-- Ranges
-- ════════════════════════════════════════════════════════════════════════════

/-- The number of integers that lie in a range and are reached in steps from its start; none if the
steps lead away from the stop. -/
def roundsFrom (start stop step : Int) : Nat := ((stop - start).fdiv step + 1).toNat

theorem roundsFrom_pos_iff {start stop step : Int} (hstep : step ≠ 0) :
    0 < roundsFrom start stop step ↔ if 0 < step then start ≤ stop else stop ≤ start := by
  have hpos : 0 < roundsFrom start stop step ↔ 0 ≤ (stop - start).fdiv step := by
    rw [roundsFrom]
    omega
  rw [hpos]
  by_cases h : 0 < step
  · rw [if_pos h, Int.fdiv_eq_ediv_of_nonneg _ (Int.le_of_lt h), Int.ediv_nonneg_iff_of_pos h]
    omega
  · have hneg : 0 < -step := by omega
    rw [if_neg h, ← Int.neg_fdiv_neg, Int.fdiv_eq_ediv_of_nonneg _ (Int.le_of_lt hneg),
      Int.ediv_nonneg_iff_of_pos hneg]
    omega

/-- A counter is in its range as long as there are integers left. -/
theorem inRange_int {counter stop step : Int} (hstep : step ≠ 0) :
    inRange (.int stop) (.int step) (.int counter) = true ↔ 0 < roundsFrom counter stop step := by
  rw [roundsFrom_pos_iff hstep, inRange]
  simp only [Number.less_int, Number.atMost_int, decide_eq_true_eq]
  split <;> exact decide_eq_true_iff

/-- One step further there is one integer less. -/
theorem roundsFrom_succ {counter stop step : Int} (hstep : step ≠ 0)
    (h : 0 < roundsFrom counter stop step) :
    roundsFrom counter stop step = roundsFrom (counter + step) stop step + 1 := by
  have hfurther : (stop - (counter + step)).fdiv step = (stop - counter).fdiv step - 1 := by
    have hsplit : stop - (counter + step) = stop - counter + -1 * step := by omega
    rw [hsplit, Int.add_mul_fdiv_right _ _ hstep]
    rfl
  rw [roundsFrom] at h
  rw [roundsFrom, roundsFrom, hfurther]
  omega

-- ════════════════════════════════════════════════════════════════════════════
-- Runs
-- ════════════════════════════════════════════════════════════════════════════

/-- Whether a body, whenever its waits are of some sort, ends well, leaves a variable as it was and
the session going on. -/
structure Steady (P : Exchange → Prop) (name : Text) (body : List Stmt) : Prop where
  completes : ∀ w, w.halted = false →
    ∃ history w', (block body w).Traces history w' (.ok ()) ∧ ∀ e ∈ history, P e
  keeps : ∀ {w w' history result}, w.halted = false → (∀ e ∈ history, P e) →
    (block body w).Traces history w' result →
      result = .ok () ∧ w'.globals.get? name = w.globals.get? name ∧ w'.halted = false

/-- Runs of a body in which a counter is advanced after every run. -/
inductive CountedRuns (name : Text) (body : List Stmt) (step : Int) :
    Int → World → List Deed → World → Prop where
  | nil (counter : Int) (w : World) : CountedRuns name body step counter w [] w
  | cons {counter : Int} {history : List Exchange} {runs : List Deed} {w w₁ last : World}
    (ran : (block body w).Traces history w₁ (.ok ()))
    (rest : CountedRuns name body step (counter + step)
      (w₁.setVariable name (.int (counter + step))) runs last) :
    CountedRuns name body step counter w (⟨.run, w, history, w₁⟩ :: runs) last

/-- How a loop ends that has counted: there is nothing left in its range, or it reports a
runaway. -/
inductive CountEnds (line : Line) (last : World) (runaway : Prop) :
    List Exchange → World → Except Fault Unit → Prop where
  | finished (all : ¬ runaway) : CountEnds line last runaway [] last (.ok ())
  | reported (more : runaway) (w' : World) (reply : Except Fault Unit) :
    CountEnds line last runaway [.asked (.errorReport
      (runawayMessage .forLoop last.config.maxIterations) line) last w' reply] w' reply

/-- What a loop does that counts over `rounds` integers under a cap. -/
def CountsTo (name : Text) (body : List Stmt) (step : Int) (line : Line) (rounds cap : Nat)
    (counter : Int) (w : World) (history : List Exchange) (w' : World)
    (result : Except Fault Unit) : Prop :=
  ∃ runs last ending, CountedRuns name body step counter w runs last ∧
    runs.length = min rounds cap ∧ history = runs.flatMap Deed.history ++ ending ∧
    CountEnds line last (cap < rounds) ending w' result

section Runs

variable {P : Exchange → Prop} {name : Text} {body : List Stmt} {step counter : Int} {line : Line}
  {history : List Exchange} {runs : List Deed} {w w' last : World} {result : Except Fault Unit}

namespace CountedRuns

theorem further (counter step : Int) (i : Nat) :
    counter + step + i * step = counter + (i + 1 : Nat) * step := by
  rw [Int.natCast_succ, Int.add_mul, Int.one_mul]
  omega

/-- Every run finds the variable one step further. -/
theorem sees (h : CountedRuns name body step counter w runs last)
    (hw : w.globals.get? name = some (.int counter)) {i : Nat} {run : Deed}
    (hrun : runs[i]? = some run) :
    run.start.globals.get? name = some (.int (counter + i * step)) := by
  induction h generalizing i with
  | nil => cases hrun
  | cons ran rest ih =>
    cases i with
    | zero =>
      cases hrun
      rw [hw, Int.natCast_zero, Int.zero_mul, Int.add_zero]
    | succ i => rw [ih (World.get?_setVariable _ _ _) hrun, further]

/-- After all runs the variable is one step further for each of them. -/
theorem leaves (h : CountedRuns name body step counter w runs last)
    (hw : w.globals.get? name = some (.int counter)) :
    last.globals.get? name = some (.int (counter + runs.length * step)) := by
  induction h with
  | nil => rw [hw, List.length_nil, Int.natCast_zero, Int.zero_mul, Int.add_zero]
  | cons ran rest ih => rw [ih (World.get?_setVariable _ _ _), further, List.length_cons]

end CountedRuns

theorem countsTo_zero {cap : Nat} :
    CountsTo name body step line 0 cap counter w history w' result ↔
      history = [] ∧ w' = w ∧ result = .ok () := by
  constructor
  · rintro ⟨runs, last, ending, hruns, hlength, rfl, hends⟩
    rw [Nat.zero_min, List.length_eq_zero_iff] at hlength
    subst hlength
    cases hruns
    cases hends with
    | finished => exact ⟨rfl, rfl, rfl⟩
    | reported more => exact absurd more (Nat.not_lt_zero cap)
  · rintro ⟨rfl, rfl, rfl⟩
    exact ⟨[], w', [], .nil counter w', (Nat.zero_min cap).symm, rfl, .finished (Nat.not_lt_zero cap)⟩

theorem countsTo_runaway {rounds : Nat} :
    CountsTo name body step line (rounds + 1) 0 counter w history w' result ↔
      (reportRunaway .forLoop line w).Traces history w' result := by
  refine Iff.trans ?_ traces_ask.symm
  constructor
  · rintro ⟨runs, last, ending, hruns, hlength, rfl, hends⟩
    rw [Nat.min_zero, List.length_eq_zero_iff] at hlength
    subst hlength
    cases hruns
    cases hends with
    | finished all => exact absurd rounds.succ_pos all
    | reported => rfl
  · rintro rfl
    exact ⟨[], w, _, .nil counter w, (Nat.min_zero _).symm, rfl, .reported rounds.succ_pos w' result⟩

theorem countsTo_succ {rounds cap : Nat} :
    CountsTo name body step line (rounds + 1) (cap + 1) counter w history w' result ↔
      ∃ first second w₁, history = first ++ second ∧ (block body w).Traces first w₁ (.ok ()) ∧
        CountsTo name body step line rounds cap (counter + step)
          (w₁.setVariable name (.int (counter + step))) second w' result := by
  have hmin : min (rounds + 1) (cap + 1) = min rounds cap + 1 := Nat.succ_min_succ rounds cap
  have hmore : cap + 1 < rounds + 1 ↔ cap < rounds := Nat.succ_lt_succ_iff
  simp only [CountsTo, hmin, hmore]
  constructor
  · rintro ⟨runs, last, ending, hruns, hlength, rfl, hends⟩
    cases hruns with
    | nil => cases hlength
    | @cons _ first runs _ w₁ _ ran rest =>
      exact ⟨first, runs.flatMap Deed.history ++ ending, w₁, List.append_assoc _ _ _, ran, runs,
        last, ending, rest, Nat.succ.inj hlength, rfl, hends⟩
  · rintro ⟨first, _, w₁, rfl, ran, runs, last, ending, rest, hlength, rfl, hends⟩
    exact ⟨_, last, ending, .cons ran rest, congrArg Nat.succ hlength,
      (List.append_assoc _ _ _).symm, hends⟩

-- ════════════════════════════════════════════════════════════════════════════
-- Loops under way
-- ════════════════════════════════════════════════════════════════════════════

/-- What a loop that counts does next in a session that goes on. -/
theorem script_counting {l : Loop} {stop : Int}
    (hrounds : l.rounds = .counting name (.int stop) (.int step) (.int counter))
    (hstep : step ≠ 0) (hw : w.halted = false)
    (hvariable : w.globals.get? name = some (.int counter)) :
    l.script w =
      if 0 < roundsFrom counter stop step then
        if l.cap ≤ l.iterations then reportRunaway .forLoop l.line w
        else (block l.body >>= fun _ => l.next.leave >>= Next.afterRound) w
      else .done w () := by
  have hready : l.ready w = w := by
    simp only [Loop.ready, hrounds]
    exact World.setVariable_of_get? hvariable
  have hround : (l.round >>= Next.afterRound) w =
      (block l.body >>= fun _ => l.next.leave >>= Next.afterRound) w := by
    rw [← bind_assoc]
    show Outcome.andThen (l.round w) _ = Outcome.andThen _ _
    rw [Loop.round_apply, hready]
  have hkind : l.kind = .forLoop := by simp only [Loop.kind, hrounds]
  rw [Loop.script_eq_test, hkind, ← hround]
  simp only [Loop.test, hrounds, ← inRange_int hstep]
  by_cases hrange : inRange (.int stop) (.int step) (.int counter) = true
  · rw [if_pos hrange, if_pos hrange]
    show (if !w.halted then if l.cap ≤ l.iterations then reportRunaway .forLoop l.line
      else l.round >>= Next.afterRound else pure () : Script Unit) w = _
    rw [hw]
    show (if l.cap ≤ l.iterations then reportRunaway .forLoop l.line
      else l.round >>= Next.afterRound : Script Unit) w = _
    split <;> rfl
  · rw [if_neg hrange, if_neg hrange]
    rfl

/-- After a body that has left its variable alone, a loop goes on with the next integer. -/
theorem leave_int {l : Loop} {stop : Int}
    (hrounds : l.rounds = .counting name (.int stop) (.int step) (.int counter))
    (hvariable : w.globals.get? name = some (.int counter)) :
    (l.leave >>= Next.afterRound) w =
      Loop.script { l with rounds := .counting name (.int stop) (.int step) (.int (counter + step)) }
        (w.setVariable name (.int (counter + step))) := by
  show Outcome.andThen (l.leave w) _ = _
  rw [Loop.leave_counting hrounds, hvariable]
  rfl

/-- A loop under way counts over the integers that are left in its range. -/
theorem traces_counting {l : Loop} {stop : Int}
    (hrounds : l.rounds = .counting name (.int stop) (.int step) (.int counter))
    (hstep : step ≠ 0) (hbody : Steady P name l.body) (hw : w.halted = false)
    (hvariable : w.globals.get? name = some (.int counter)) (hwaits : ∀ e ∈ history, P e) :
    (l.script w).Traces history w' result ↔
      CountsTo name l.body step l.line (roundsFrom counter stop step) l.left counter w history w'
        result := by
  -- on the rounds that are left under the cap
  induction hleft : l.left generalizing l counter w history with
  | zero =>
    have hcap : l.cap ≤ l.iterations := by
      rw [Loop.left] at hleft
      omega
    rw [script_counting hrounds hstep hw hvariable]
    cases hcount : roundsFrom counter stop step with
    | zero => rw [if_neg (Nat.lt_irrefl 0), countsTo_zero, Outcome.traces_done]
    | succ rounds => rw [if_pos rounds.succ_pos, if_pos hcap, countsTo_runaway]
  | succ left ih =>
    have hcap : ¬ l.cap ≤ l.iterations := by
      rw [Loop.left] at hleft
      omega
    rw [script_counting hrounds hstep hw hvariable]
    cases hcount : roundsFrom counter stop step with
    | zero => rw [if_neg (Nat.lt_irrefl 0), countsTo_zero, Outcome.traces_done]
    | succ rounds =>
      rw [if_pos rounds.succ_pos, if_neg hcap, countsTo_succ]
      -- a run that is steady leads to the same loop, one step further
      have hgoesOn : ∀ {first second w₁ ended}, (∀ e ∈ first ++ second, P e) →
          (block l.body w).Traces first w₁ ended → ended = .ok () ∧
            (((l.next.leave >>= Next.afterRound) w₁).Traces second w' result ↔
              CountsTo name l.body step l.line rounds left (counter + step)
                (w₁.setVariable name (.int (counter + step))) second w' result) := by
        intro first second w₁ ended hwaits ran
        rw [List.forall_mem_append] at hwaits
        obtain ⟨hended, hsame, hgoes⟩ := hbody.keeps hw hwaits.1 ran
        have hrest : roundsFrom (counter + step) stop step = rounds := by
          have hleft : 0 < roundsFrom counter stop step := hcount ▸ rounds.succ_pos
          have hfewer := roundsFrom_succ hstep hleft
          omega
        have hnext : l.next.left = left := by
          have hfewer := Loop.left_eq_succ hcap
          omega
        have hrounds' : l.next.rounds = .counting name (.int stop) (.int step) (.int counter) :=
          hrounds
        refine ⟨hended, ?_⟩
        rw [leave_int hrounds' (hsame.trans hvariable), ← hrest]
        exact ih rfl hbody hgoes (World.get?_setVariable _ _ _) hwaits.2 hnext
      constructor
      · intro h
        obtain ⟨fault, ran, -⟩ | ⟨first, second, w₁, _, rfl, ran, h⟩ := traces_bind.1 h
        · have hall : ∀ e ∈ history ++ [], P e := by rwa [List.append_nil]
          cases (hgoesOn hall ran).1
        · exact ⟨first, second, w₁, rfl, ran, (hgoesOn hwaits ran).2.1 h⟩
      · rintro ⟨first, second, w₁, rfl, ran, h⟩
        exact traces_bind.2 (.inr ⟨first, second, w₁, (), rfl, ran, (hgoesOn hwaits ran).2.2 h⟩)

/-- A steady body can be run as often as one likes. -/
theorem exists_countedRuns (hbody : Steady P name body) (k : Nat) (counter : Int)
    (hw : w.halted = false) :
    ∃ runs last, CountedRuns name body step counter w runs last ∧ runs.length = k ∧
      ∀ e ∈ runs.flatMap Deed.history, P e := by
  induction k generalizing counter w with
  | zero => exact ⟨[], w, .nil counter w, rfl, fun _ he => absurd he List.not_mem_nil⟩
  | succ k ih =>
    obtain ⟨history, w₁, ran, hwaits⟩ := hbody.completes w hw
    obtain ⟨-, -, hgoes⟩ := hbody.keeps hw hwaits ran
    obtain ⟨runs, last, hruns, hlength, hrest⟩ :=
      ih (counter + step) (w := w₁.setVariable name (.int (counter + step))) hgoes
    refine ⟨_, last, .cons ran hruns, congrArg Nat.succ hlength, ?_⟩
    rw [List.flatMap_cons]
    exact List.forall_mem_append.2 ⟨hwaits, hrest⟩

end Runs

-- ════════════════════════════════════════════════════════════════════════════
-- Statements
-- ════════════════════════════════════════════════════════════════════════════

/-- Whether an expression is evaluated to an integer without any effect. -/
def StandsFor (line : Line) (w : World) (e : Expr) (n : Int) : Prop :=
  ∃ v, eval line e w = .done w v ∧ v.toNumber = .int n

/-- Whether an optional step is evaluated to an integer without any effect; steps are of one unless
stated. -/
def StepsBy (line : Line) (w : World) : Option Expr → Int → Prop
  | some e, n => StandsFor line w e n
  | none, n => n = 1

variable {name : Text} {start stop : Expr} {step : Option Expr} {body : List Stmt} {line : Line}
  {s e d : Int} {w : World}

/-- A loop statement over integers leads to the loop that counts over them. -/
theorem begin_forLoop (hstart : StandsFor line w start s) (hstop : StandsFor line w stop e)
    (hstep : StepsBy line w step d) (hd : d ≠ 0) :
    (Stmt.forLoop name start stop step body line).begin w =
      .done (w.setVariable name (.int s)) (.loop {
        rounds := .counting name (.int e) (.int d) (.int s), line, body,
        cap := w.config.maxIterations, iterations := 0 }) := by
  obtain ⟨first, hfirst, hs⟩ := hstart
  obtain ⟨second, hsecond, he⟩ := hstop
  have hzero : (Number.int d).isZero = false := by
    rw [Number.isZero, Number.same_int, beq_eq_false_iff_ne]
    exact hd
  have hcounting : beginCounting name (.int s) (.int e) (.int d) line body w =
      .done (w.setVariable name (.int s)) (.loop {
        rounds := .counting name (.int e) (.int d) (.int s), line, body,
        cap := w.config.maxIterations, iterations := 0 }) := by
    show (if (Number.int d).isZero then pure .finish
      else beginLoop (.counting name (.int e) (.int d) (.int s)) line body : Script Next)
      (w.setVariable name (.int s)) = _
    rw [hzero]
    rfl
  rw [Stmt.begin, bind_of_done hfirst, bind_of_done hsecond, hs, he]
  cases step with
  | none =>
    obtain rfl : d = 1 := hstep
    exact hcounting
  | some e' =>
    obtain ⟨third, hthird, hd'⟩ := hstep
    show (eval line e' >>= fun v => beginCounting name (.int s) (.int e) v.toNumber line body) w = _
    rw [bind_of_done hthird, hd', hcounting]

/-- A loop statement over integers with a steady body counts over them. -/
theorem traces_forLoop {P : Exchange → Prop} {c : Nat} (hw : w.halted = false)
    (hcap : w.config.maxIterations = c) (hd : d ≠ 0) (hstart : StandsFor line w start s)
    (hstop : StandsFor line w stop e) (hstep : StepsBy line w step d)
    (hbody : Steady P name body) {history : List Exchange} {w' : World}
    {result : Except Fault Unit} (hwaits : ∀ x ∈ history, P x) :
    (exec (.forLoop name start stop step body line) w).Traces history w' result ↔
      ∃ ended, CountsTo name body d line (roundsFrom s e d) c s
        (w.setVariable name (.int s)) history w' ended ∧
        result = ended.mapError (Fault.attribute line) := by
  have hstopped : w.stopped = false := (Bool.or_eq_false_iff.1 hw).1
  let l : Loop := {
    rounds := .counting name (.int e) (.int d) (.int s), line, body,
    cap := w.config.maxIterations, iterations := 0 }
  have hleft : l.left = c := by
    show (w.config.maxIterations - (0 : Nat)).toNat = c
    omega
  have hloop : ((Stmt.forLoop name start stop step body line).begin >>= Next.script) w =
      l.script (w.setVariable name (.int s)) :=
    bind_of_done (begin_forLoop hstart hstop hstep hd) _
  have hcounts : ∀ ended, (l.script (w.setVariable name (.int s))).Traces history w' ended ↔
      CountsTo name body d line (roundsFrom s e d) c s (w.setVariable name (.int s)) history w'
        ended := by
    intro ended
    rw [← hleft]
    exact traces_counting rfl hd hbody hw (World.get?_setVariable w name (.int s)) hwaits
  rw [exec_eq, onLine_apply, hstopped, if_neg Bool.false_ne_true, traces_mapFault]
  simp only [hloop, hcounts]
  rfl

/-- A loop over the integers from `s` to `e` in steps of `d`, under a cap `c` and with a steady body,
runs its body once for each of them, at most `c` times. The run with the number `i` finds the integer
`s + i * d` in the variable, and after all runs the variable is one step further. If there are more
than `c` integers in the range, the loop then reports a runaway, and otherwise it does nothing else.
Such runs exist, and they make all the histories of the loop. -/
theorem for_counts {P : Exchange → Prop} {c : Nat} (hw : w.halted = false)
    (hcap : w.config.maxIterations = c) (hd : d ≠ 0) (hstart : StandsFor line w start s)
    (hstop : StandsFor line w stop e) (hstep : StepsBy line w step d)
    (hbody : Steady P name body) :
    (∃ runs last, CountedRuns name body d s (w.setVariable name (.int s)) runs last ∧
      runs.length = min (roundsFrom s e d) c ∧ ∀ x ∈ runs.flatMap Deed.history, P x) ∧
    ∀ history w' result, (∀ x ∈ history, P x) →
      ((exec (.forLoop name start stop step body line) w).Traces history w' result ↔
        ∃ runs last ending ended,
          CountedRuns name body d s (w.setVariable name (.int s)) runs last ∧
          runs.length = min (roundsFrom s e d) c ∧
          (∀ (i : Nat) run, runs[i]? = some run →
            run.start.globals.get? name = some (.int (s + i * d))) ∧
          last.globals.get? name = some (.int (s + min (roundsFrom s e d) c * d)) ∧
          history = runs.flatMap Deed.history ++ ending ∧
          CountEnds line last (c < roundsFrom s e d) ending w' ended ∧
          ((∀ x ∈ ending, x.found.globals.get? name = x.left.globals.get? name) →
            w'.globals.get? name = some (.int (s + min (roundsFrom s e d) c * d))) ∧
          result = ended.mapError (Fault.attribute line)) := by
  refine ⟨exists_countedRuns hbody _ s hw, fun history w' result hwaits => ?_⟩
  rw [traces_forLoop hw hcap hd hstart hstop hstep hbody hwaits]
  have hvariable := World.get?_setVariable w name (.int s)
  constructor
  · rintro ⟨ended, ⟨runs, last, ending, hruns, hlength, hhistory, hends⟩, hresult⟩
    have hlast := hruns.leaves hvariable
    rw [hlength] at hlast
    refine ⟨runs, last, ending, ended, hruns, hlength, fun i run hrun => hruns.sees hvariable hrun,
      hlast, hhistory, hends, fun hkept => ?_, hresult⟩
    cases hends with
    | finished => exact hlast
    | reported => exact (hkept _ List.mem_cons_self).trans hlast
  · rintro ⟨runs, last, ending, ended, hruns, hlength, -, -, hhistory, hends, -, hresult⟩
    exact ⟨ended, ⟨runs, last, ending, hruns, hlength, hhistory, hends⟩, hresult⟩

/-- A body that writes another variable. -/
def copying : List Stmt := [.assign (.ident "x") (.ident "i") (.ofNat 2)]

/-- The world after the body has run. -/
def copied (w : World) : World :=
  if w.globals.contains "x" || !("x" == selfName || w.hasComponent "x") then
    w.setVariable "x" (w.identifier "i")
  else w

theorem block_copying (hw : w.halted = false) : block copying w = .done (copied w) () := by
  have hstopped : w.stopped = false := (Bool.or_eq_false_iff.1 hw).1
  have hassign : exec (.assign (.ident "x") (.ident "i") (.ofNat 2)) w = .done (copied w) () := by
    show onLine (.ofNat 2) (eval (.ofNat 2) (.ident "i") >>= assign (.ofNat 2) (.ident "x")) w = _
    rw [onLine_apply, hstopped]
    show Outcome.andThen ((if w.globals.contains "x" || !("x" == selfName || w.hasComponent "x") then
      setVariable "x" (w.identifier "i") else pure () : Script Unit) w) _ = _
    unfold copied
    split <;> rfl
  rw [copying, block_cons_apply, hw, if_neg Bool.false_ne_true, bind_of_done hassign]
  rfl

theorem steady_copying : Steady (fun _ => True) "i" copying where
  completes w hw := ⟨[], copied w, block_copying hw ▸ .done _ _, fun _ _ => trivial⟩
  keeps := by
    intro w w' history result hw _ h
    rw [block_copying hw] at h
    obtain ⟨-, rfl, rfl⟩ := Outcome.traces_done.1 h
    refine ⟨rfl, ?_, ?_⟩
    · unfold copied
      split
      · rw [World.setVariable, Table.get?_set, if_neg (by decide)]
      · rfl
    · unfold copied
      split <;> exact hw

/-- A world in which loops are allowed two rounds. -/
def roundsOfTwo : World where
  config := { maxIterations := 2 }

/-- A loop over the integers `10`, `6` and `2`. -/
def countingDown : Stmt :=
  .forLoop "i" (.number (.int 10)) (.number (.int 1)) (some (.unary .neg (.number (.int 4)))) copying
    (.ofNat 1)

/-- Of three integers, a loop that is allowed two rounds runs for two, leaves the third one in its
variable and reports a runaway. -/
theorem for_counts_countingDown :
    roundsOfTwo.halted = false ∧ roundsFrom 10 1 (-4) = 3 ∧ Steady (fun _ => True) "i" copying ∧
    ∃ runs last, CountedRuns "i" copying (-4) 10 (roundsOfTwo.setVariable "i" (.int 10)) runs last ∧
      runs.length = 2 ∧ last.globals.get? "i" = some (.int 2) ∧
      (exec countingDown roundsOfTwo).Traces (runs.flatMap Deed.history ++ [.asked (.errorReport
        (runawayMessage .forLoop last.config.maxIterations) (.ofNat 1)) last last (.ok ())]) last
        (.ok ()) := by
  have hcount : roundsFrom 10 1 (-4) = 3 := by decide
  have hstart : StandsFor (.ofNat 1) roundsOfTwo (.number (.int 10)) 10 := ⟨.int 10, rfl, rfl⟩
  have hstop : StandsFor (.ofNat 1) roundsOfTwo (.number (.int 1)) 1 := ⟨.int 1, rfl, rfl⟩
  have hstep : StepsBy (.ofNat 1) roundsOfTwo (some (.unary .neg (.number (.int 4)))) (-4) :=
    ⟨.int (-4), rfl, rfl⟩
  have hcounts := for_counts (c := 2) rfl rfl (by decide) hstart hstop hstep steady_copying
  rw [hcount] at hcounts
  obtain ⟨⟨runs, last, hruns, hlength, -⟩, hiff⟩ := hcounts
  have hvariable := World.get?_setVariable roundsOfTwo "i" (.int 10)
  have hlast := hruns.leaves hvariable
  rw [hlength] at hlast
  refine ⟨rfl, hcount, steady_copying, runs, last, hruns, hlength, hlast, ?_⟩
  refine (hiff _ _ _ fun _ _ => trivial).2 ⟨runs, last, _, .ok (), hruns, hlength,
    fun i run hrun => hruns.sees hvariable hrun, hlast, rfl, .reported (by decide) last (.ok ()),
    fun _ => hlast, rfl⟩

end Script

end FormBasic
