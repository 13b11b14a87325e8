import FormBasic.Proofs.Session.Law
import Mathlib.Algebra.Order.Ring.Rat

/-!
# A session step by step

Runs of a session one step at a time, with the order of turns left open. A step is the turn of one
of the jobs that can run, whichever it is, or something that comes from outside: time passes, a
script is run, handlers are loaded, the flags are changed. Sleepers may oversleep, but none wakes
early. Each command of a session is a run of such steps.

## Main definitions

* `Session.Step` - one step; it says what may be run from outside
* `Session.Steps` - runs

## Main statements

* `Session.steps_perform`, `Session.steps_spawn`, `Session.steps_join`, `Session.steps_waitIdle`,
  `Session.steps_advance` - commands are runs
* `Session.steps_play` - so are sequences of moves that nobody makes out of turn

## Design notes

Within a run, states between two turns can be told apart from those in the middle of a command. What
is said of each step of a run is said of the instants at which things happen.
-/

namespace FormBasic

/-- Whether a job of this owner is begun from outside. -/
def Owner.Outside : Owner → Prop
  | .tick _ => False
  | _ => True

namespace Job

variable {σ : Type}

/-- On whose behalf a job runs; none for a tick loop. -/
def owner? : Job σ → Option Owner
  | .run owner _ _ | .close owner _ _ _ => some owner
  | _ => none

/-- The timer and the number of a tick loop; none for other jobs. -/
def loop? : Job σ → Option (Key × Nat)
  | .beginLoop timer number | .wakeLoop timer number => some (timer, number)
  | _ => none

theorem loop?_of_owner? {job : Job σ} {owner : Owner} (h : job.owner? = some owner) :
    job.loop? = none := by
  cases job with
  | run | close => rfl
  | beginLoop | wakeLoop => cases h

end Job

/-- The world after a turn. -/
def Turn.world {σ : Type} : Turn σ → World
  | .finished w _ _ => w
  | .held w _ _ => w

/-- The state of the host after a turn. -/
def Turn.state {σ : Type} : Turn σ → σ
  | .finished _ state _ => state
  | .held _ state _ => state

/-- Whether nobody takes a move out of turn: no sleeper is woken early, and no job is given up. -/
def Move.InTurn : Move → Prop
  | .take _ | .cancel _ => False
  | .launch owner _ => owner.Outside
  | _ => True

/-- Whether a script is that of an execution. -/
def Script.Executed (script : Script Value) : Prop :=
  ∃ execution : Execution, script = execution.script

namespace Session

variable {σ : Type} {host : Host σ} {calls : Script Value → Prop} {s s' : Session σ}

-- ════════════════════════════════════════════════════════════════════════════
-- Steps
-- ════════════════════════════════════════════════════════════════════════════

/-- One step of a session in which certain scripts may be run from outside. -/
inductive Step (host : Host σ) (calls : Script Value → Prop) : Session σ → Session σ → Prop where
  /-- Any job of the queue takes its turn. -/
  | turn {s : Session σ} {before after : List (Job σ)} {job : Job σ}
      (hready : s.ready = before ++ job :: after) :
      Step host calls s (work host { s with ready := before ++ after } job)
  /-- Time passes, and sleepers wake. -/
  | wake (s : Session σ) (instant : Rat) : Step host calls s (s.wake instant)
  /-- Time passes. -/
  | pass (s : Session σ) {instant : Rat} (h : s.clock ≤ instant) :
      Step host calls s { s with clock := instant }
  /-- A script is added to what can run. -/
  | call {s : Session σ} {before after : List (Job σ)} (hready : s.ready = before ++ after)
      {owner : Owner} (howner : owner.Outside) {script : Script Value} (hscript : calls script) :
      Step host calls s { s with ready := before ++ .run owner script [] :: after }
  /-- Results are taken, or room is made for them. -/
  | results (s : Session σ) (result : Option (Except Fault Value))
      (spawned : Array (Option (Except Fault Value))) :
      Step host calls s { s with result, spawned }
  /-- The flags are changed. -/
  | signal (s : Session σ) (signal : Signal) :
      Step host calls s { s with world := s.world.signal signal }
  /-- Handlers are loaded. -/
  | load (s : Session σ) (handlers : Table (List Stmt)) (parseErrors : Table Text) :
      Step host calls s { s with world := { s.world with handlers, parseErrors } }
  /-- The session is stopped. -/
  | stop (s : Session σ) : Step host calls s s.stop

/-- Runs of a session in which certain scripts may be run from outside. -/
abbrev Steps (host : Host σ) (calls : Script Value → Prop) : Session σ → Session σ → Prop :=
  Relation.ReflTransGen (Step host calls)

/-- After a turn the new tick loops are at the end of the queue, and of other jobs only the
invocation itself is added, in front of the queue or asleep. -/
theorem exists_conclude_eq (s : Session σ) (owner : Owner) (boxes : List (Pending σ))
    (turn : Turn σ) :
    ∃ front back result spawned ticks,
      (∀ job ∈ front, job.owner? = some owner) ∧ (∀ e ∈ back, e.2.owner? = some owner) ∧
      s.conclude owner boxes turn =
        { s with
          world := { turn.world with timers := { turn.world.timers with created := [] } }
          state := turn.state
          ready := front ++ s.ready ++ turn.world.timers.created.map (fun e => .beginLoop e.1 e.2)
          sleeping := s.sleeping ++ back
          result, spawned, ticks } := by
  have hnone : ∀ e ∈ ([] : List (Rat × Job σ)), e.2.owner? = some owner := by simp
  cases turn with
  | finished w state result =>
    cases boxes with
    | nil =>
      refine ⟨[], [], (s.record owner result).result, (s.record owner result).spawned,
        (s.record owner result).ticks, by simp, hnone, ?_⟩
      rw [List.append_nil]
      cases owner <;> rfl
    | cons box boxes =>
      refine ⟨[.close owner (result.map fun _ => ()) box boxes], [], s.result, s.spawned, s.ticks,
        by simp [Job.owner?], hnone, ?_⟩
      rw [List.append_nil]
      rfl
  | held w state box =>
    unfold conclude
    simp only
    split
    · next seconds hhold =>
      exact ⟨[], [(s.clock + seconds, .close owner (.ok ()) box boxes)], s.result, s.spawned,
        s.ticks, by simp, by simp [Job.owner?], rfl⟩
    · next key hhold =>
      refine ⟨[.run owner (Script.fireValue key) (box :: boxes)], [], s.result, s.spawned, s.ticks,
        by simp [Job.owner?], hnone, ?_⟩
      rw [List.append_nil]
      rfl

/-- A tick loop that goes to sleep does so until its next tick, if there is one. -/
theorem sleepLoop_cases (s : Session σ) (timer : Key) (number : Nat) :
    s.sleepLoop timer number = s ∨ ∃ seconds, s.timeToTick? timer = some seconds ∧
      s.sleepLoop timer number = s.sleep seconds (.wakeLoop timer number) := by
  unfold sleepLoop
  split
  · next seconds htime => exact .inr ⟨seconds, htime, rfl⟩
  · exact .inl rfl

/-- A tick loop that wakes starts a tick and goes back to sleep, if it goes on and is the registered
one. -/
theorem work_wakeLoop_cases (host : Host σ) (s : Session σ) (timer : Key) (number : Nat) :
    s.work host (.wakeLoop timer number) = s ∨ s.loopTicks timer number = true ∧
      s.work host (.wakeLoop timer number) = (s.startTick timer).sleepLoop timer number := by
  rw [work]
  split
  · next hticks => exact .inr ⟨hticks, rfl⟩
  · exact .inl rfl

/-- A tick loop that begins goes to sleep, if it goes on. -/
theorem work_beginLoop_cases (host : Host σ) (s : Session σ) (timer : Key) (number : Nat) :
    s.work host (.beginLoop timer number) = s ∨ s.loopGoesOn number = true ∧
      s.work host (.beginLoop timer number) = s.sleepLoop timer number := by
  rw [work]
  split
  · next hgoesOn => exact .inr ⟨hgoesOn, rfl⟩
  · exact .inl rfl

theorem clock_sleepLoop (s : Session σ) (timer : Key) (number : Nat) :
    (s.sleepLoop timer number).clock = s.clock := by
  obtain heq | ⟨seconds, -, heq⟩ := s.sleepLoop_cases timer number
  all_goals rw [heq]
  rfl

theorem clock_conclude (s : Session σ) (owner : Owner) (boxes : List (Pending σ)) (turn : Turn σ) :
    (s.conclude owner boxes turn).clock = s.clock := by
  obtain ⟨front, back, result, spawned, ticks, -, -, heq⟩ := s.exists_conclude_eq owner boxes turn
  rw [heq]

/-- No time passes in a turn. -/
theorem clock_work (s : Session σ) (job : Job σ) : (s.work host job).clock = s.clock := by
  cases job with
  | run owner script boxes => exact clock_conclude s owner boxes _
  | close owner event box boxes => exact clock_conclude s owner boxes _
  | beginLoop timer number =>
    obtain heq | ⟨-, heq⟩ := s.work_beginLoop_cases host timer number
    all_goals rw [heq]
    exact clock_sleepLoop s timer number
  | wakeLoop timer number =>
    obtain heq | ⟨-, heq⟩ := s.work_wakeLoop_cases host timer number
    all_goals rw [heq]
    exact clock_sleepLoop (s.startTick timer) timer number

/-- Whoever wakes goes from the sleepers to the queue. -/
theorem perm_wake (s : Session σ) (instant : Rat) : (s.wake instant).jobs.Perm s.jobs := by
  have hsleeping := List.filter_append_perm (fun e => decide (e.1 ≤ instant)) s.sleeping
  rw [jobs, wake, jobs, List.append_assoc, ← List.map_append]
  exact (hsleeping.map Prod.snd).append_left s.ready

/-- The clock is not turned back by what it is to reach. -/
theorem le_reached (clock instant : Rat) :
    clock ≤ if clock < instant then instant else clock := by
  split
  · next h => exact h.le
  · exact le_rfl

/-- No step turns the clock back. -/
theorem Step.clock_le (h : Step host calls s s') : s.clock ≤ s'.clock := by
  cases h with
  | turn hready => exact (clock_work _ _).ge
  | wake instant => exact le_reached s.clock instant
  | pass h => exact h
  | _ => exact le_rfl

-- ════════════════════════════════════════════════════════════════════════════
-- Commands
-- ════════════════════════════════════════════════════════════════════════════

theorem steps_step (s : Session σ) : Steps host calls s (s.step host) := by
  unfold step
  split
  · exact .refl
  · next job ready hready => exact .single (.turn (hready.trans (List.nil_append _).symm))

theorem steps_drive (goal : Session σ → Bool) (limit : Option Rat) (fuel : Nat) (s : Session σ) :
    Steps host calls s (drive host goal limit fuel s) :=
  drive_induction (fun s' h _ => h.trans (steps_step s'))
    (fun s' instant h => h.tail (.wake s' instant)) limit fuel .refl

theorem steps_perform (fuel : Nat) {script : Script Value} (hscript : calls script)
    (s : Session σ) : Steps host calls s (s.perform host fuel script).1 := by
  have howner : Owner.Outside .command := trivial
  have hcleared : Step host calls s { s with result := none } := .results s none s.spawned
  have hcalled : Step host calls { s with result := none }
      (({ s with result := none } : Session σ).first (.run .command script [])) :=
    .call (List.nil_append _).symm howner hscript
  exact .head hcleared (.head hcalled (steps_drive _ none fuel _))

theorem steps_spawn {key : Text} (hscript : calls (Script.fireValue key)) (s : Session σ) :
    Steps host calls s (s.spawn key) := by
  have howner : Owner.Outside (.spawned s.spawned.size) := trivial
  have hcalled : Step host calls s
      { s with ready := s.ready ++ [.run (.spawned s.spawned.size) (Script.fireValue key) []] } :=
    .call (List.append_nil _).symm howner hscript
  exact .head hcalled (.single (.results _ s.result (s.spawned.push none)))

theorem steps_join (fuel : Nat) (s : Session σ) : Steps host calls s (s.join host fuel).1 :=
  (steps_drive (fun s => s.spawned.all Option.isSome) none fuel s).tail (.results _ _ #[])

theorem steps_waitIdle (fuel : Nat) (s : Session σ) : Steps host calls s (s.waitIdle host fuel) :=
  steps_drive _ none fuel s

theorem steps_advance (fuel : Nat) (seconds : Rat) (s : Session σ) :
    Steps host calls s (s.advance host fuel seconds) := by
  refine (steps_drive (fun _ => false) (some (s.clock + seconds)) fuel s).tail (.pass _ ?_)
  exact le_reached _ _

/-- Moves in turn are runs in which executions are run from outside. -/
theorem steps_play {moves : List Move} (hmoves : ∀ m ∈ moves, m.InTurn) (s : Session σ) :
    Steps host Script.Executed s (s.play host moves) := by
  induction moves generalizing s with
  | nil => exact .refl
  | cons m moves ih =>
    have hlater := ih fun m' hm' => hmoves m' (List.mem_cons_of_mem _ hm')
    refine Relation.ReflTransGen.trans ?_ (hlater _)
    have hm := hmoves m List.mem_cons_self
    cases m with
    | launch owner execution => exact .single (.call (List.append_nil _).symm hm ⟨execution, rfl⟩)
    | take => exact hm.elim
    | cancel => exact hm.elim
    | signal signal => exact .single (.signal s signal)
    | perform fuel execution => exact steps_perform fuel ⟨execution, rfl⟩ s
    | spawn key => exact steps_spawn ⟨.event key, rfl⟩ s
    | join fuel => exact steps_join fuel s
    | waitIdle fuel => exact steps_waitIdle fuel s
    | advance fuel seconds => exact steps_advance fuel seconds s
    | stop => exact .single (.stop s)

end Session

end FormBasic
