import FormBasic.Proofs.Script.Orderly
import FormBasic.Session.Schedule
import Mathlib.Data.List.Perm.Basic

/-!
# What every turn keeps

Runs of a session with the order of turns left open, and what holds throughout them. A law is
something that is kept by whatever a script does between two waits, by the host's signals and by its
replies. It may speak of the requests that still wait for a reply, because a script that waits may
owe something. A law that holds of a session holds of it after any run.

## Main definitions

* `Execution` - what can be run in a session
* `Move`, `Session.play` - runs of a session, with the order of turns left open
* `Law` - what is kept by scripts and by the host
* `Session.Waits` - the requests that wait for a reply
* `Outcome.Reaches` - where an outcome ends that ends with a value
* `Session.Kept` - sessions of which a law holds
* `Session.KeptThen` - sessions of which one law holds until a command has ended, and then another

## Main statements

* `Turn.kept_follow` - a turn keeps a law
* `Session.kept_work` - so does the job that takes it, whichever it is
* `Session.result_work` - a command that ends with a value has reached what its script reaches
* `Session.Kept.play`, `Session.KeptThen.play` - a run keeps a law, or two laws in turn

## Design notes

The queue of a session fixes an order of turns. A move may also take a job out of the middle of the
queue or wake a sleeper early, so that runs cover every order in which invocations can go on.
-/

namespace FormBasic

-- ════════════════════════════════════════════════════════════════════════════
-- Runs
-- ════════════════════════════════════════════════════════════════════════════

/-- What can be run in a session: scripts in one form or another, and changes by the user. -/
inductive Execution where
  /-- A handler by its name. -/
  | handler (key : Text)
  /-- Statements. -/
  | block (body : List Stmt)
  /-- Statements given as text. -/
  | statements (source : Text)
  /-- An expression given as text. -/
  | expression (source : Text)
  /-- The handler of an event, with script errors reported. -/
  | event (key : Text)
  /-- Statements, with script errors reported under a name. -/
  | named (name : Text) (body : List Stmt)
  /-- Statements given as text, with errors reported under a name. -/
  | namedSource (name source : Text)
  /-- The first handler of a session, and then the timers. -/
  | start
  /-- A value that the user changed. -/
  | userUpdate (component property : Text) (value : Value)

/-- The script of an execution. -/
def Execution.script : Execution → Script Value
  | .handler key => .asValue .bool (.call key)
  | .block body => Turn.bodyScript body
  | .statements source => .asValue (fun _ => .nothing) (.parseAndExecute source)
  | .expression source => .evaluateSource source
  | .event key => .fireValue key
  | .named name body => .asValue .bool (.runBlock name body)
  | .namedSource name source => .asValue .bool (.executeSource name source)
  | .start => .asValue (fun _ => .nothing) .start
  | .userUpdate component property value =>
    .asValue (fun _ => .nothing) (.updateFromUser component property value)

/-- One thing that happens to a session. -/
inductive Move where
  /-- An execution is added to what can run. -/
  | launch (owner : Owner) (execution : Execution)
  /-- A job that waits, be it in the queue or asleep, goes on. -/
  | take (position : Nat)
  /-- A job that waits is given up. -/
  | cancel (position : Nat)
  /-- The flags are changed from outside. -/
  | signal (signal : Signal)
  | perform (fuel : Nat) (execution : Execution)
  | spawn (key : Text)
  | join (fuel : Nat)
  | waitIdle (fuel : Nat)
  | advance (fuel : Nat) (seconds : Rat)
  | stop

/-- Whether a move begins a command. -/
def Move.Commands : Move → Prop
  | .launch owner _ => owner = .command
  | .perform _ _ => True
  | _ => False

/-- Whether a move gives up a job. -/
def Move.Cancels : Move → Prop
  | .cancel _ => True
  | _ => False

namespace Session

variable {σ : Type}

/-- The job that waits at a position, the sleepers coming after the queue, and the session without
it. -/
def taken? (s : Session σ) (position : Nat) : Option (Job σ × Session σ) :=
  match s.ready[position]? with
  | some job => some (job, { s with ready := s.ready.eraseIdx position })
  | none =>
    match s.sleeping[position - s.ready.length]? with
    | some e => some (e.2, { s with sleeping := s.sleeping.eraseIdx (position - s.ready.length) })
    | none => none

/-- The session after a move. -/
def move (host : Host σ) (s : Session σ) : Move → Session σ
  | .launch owner execution =>
    { s with ready := s.ready ++ [.run owner execution.script []] }
  | .take position =>
    match s.taken? position with
    | some (job, s) => s.work host job
    | none => s
  | .cancel position =>
    match s.taken? position with
    | some (_, s) => s
    | none => s
  | .signal signal => { s with world := s.world.signal signal }
  | .perform fuel execution => (s.perform host fuel execution.script).1
  | .spawn key => s.spawn key
  | .join fuel => (s.join host fuel).1
  | .waitIdle fuel => s.waitIdle host fuel
  | .advance fuel seconds => s.advance host fuel seconds
  | .stop => s.stop

/-- The session after several moves. -/
def play (host : Host σ) (s : Session σ) (moves : List Move) : Session σ :=
  moves.foldl (move host) s

end Session

theorem Script.Tidy.asValue {α : Type} {script : Script α} (h : script.Tidy) (f : α → Value) :
    (Script.asValue f script).Tidy :=
  h.bind fun _ => Script.orderly_pure _

theorem Script.tidy_bodyScript (body : List Stmt) : (Turn.bodyScript body).Tidy :=
  (Script.tidy_block body).bind fun _ => Script.orderly_pure _

theorem Script.tidy_fireValue (key : Text) : (Script.fireValue key).Tidy :=
  Script.Tidy.asValue (Script.orderly_fire Conduct.lenient_any key) _

/-- Whatever can be run is orderly. -/
theorem Execution.tidy_script (execution : Execution) : execution.script.Tidy := by
  have hk := Conduct.lenient_any
  cases execution with
  | handler key => exact Script.Tidy.asValue (Script.orderly_call key) _
  | block body => exact Script.tidy_bodyScript body
  | statements source =>
    exact Script.Tidy.asValue (Script.orderly_parseAndExecute hk (fun _ => trivial) source) _
  | expression source => exact Script.orderly_evaluateSource hk source
  | event key => exact Script.tidy_fireValue key
  | named name body =>
    exact Script.Tidy.asValue (Script.orderly_runBlock hk name fun _ _ => trivial) _
  | namedSource name source =>
    exact Script.Tidy.asValue (Script.orderly_executeSource hk (fun _ => trivial) name source) _
  | start => exact Script.Tidy.asValue (Script.orderly_start hk) _
  | userUpdate component property value =>
    exact Script.Tidy.asValue (Script.orderly_updateFromUser component property value) _

-- ════════════════════════════════════════════════════════════════════════════
-- Laws
-- ════════════════════════════════════════════════════════════════════════════

/-- Requests that wait, with one more among them. -/
def also (request : Request) (waiting : Request → Prop) : Request → Prop :=
  fun r => r = request ∨ waiting r

/-- Whether something holds after a reception: with the reply dealt with, or with one more request
that waits. -/
def Reception.Leaves {σ : Type} {request : Request}
    (Holds : (Request → Prop) → World → σ → Prop)
    (Fair : (request : Request) → (Except Fault Unit → σ → Reception σ request) → Prop)
    (waiting : Request → Prop) (w : World) : Reception σ request → Prop
  | .answered state signals reply => Holds waiting ((w.signals signals).served request reply) state
  | .held state signals _ release =>
    Holds (also request waiting) (w.signals signals) state ∧ Fair request release

/-- Something that holds of the world and of the host's state while some requests wait, whatever
scripts and the host do. -/
structure Law {σ : Type} (host : Host σ) where
  Holds : (Request → Prop) → World → σ → Prop
  /-- What is known of how the host looks at a held request again. -/
  Fair : (request : Request) → (Except Fault Unit → σ → Reception σ request) → Prop
  mono : ∀ {waiting waiting' : Request → Prop} {w : World} {state : σ},
    (∀ r, waiting r → waiting' r) → Holds waiting w state → Holds waiting' w state
  change : ∀ {waiting : Request → Prop} {w w' : World} {state : σ},
    World.Change (fun _ => True) w w' → Holds waiting w state → Holds waiting w' state
  signal : ∀ {waiting : Request → Prop} {w : World} {state : σ} (signal : Signal),
    Holds waiting w state → Holds waiting (w.signal signal) state
  collect : ∀ {waiting : Request → Prop} {w : World} {state : σ}, Holds waiting w state →
    Holds waiting { w with timers := { w.timers with created := [] } } state
  /-- Nothing has to wait for a stopped session. -/
  stop : ∀ {waiting waiting' : Request → Prop} {w : World} {state : σ}, Holds waiting w state →
    Holds waiting' w.stopTimers state
  receive : ∀ {waiting : Request → Prop} {w : World} {state : σ} (request : Request),
    Holds waiting w state →
    (host.receive request state).Leaves Holds Fair waiting (w.announced request)
  release : ∀ {waiting : Request → Prop} {w : World} {state : σ} {request : Request}
    {release : Except Fault Unit → σ → Reception σ request} (event : Except Fault Unit),
    Fair request release → Holds (also request waiting) w state →
    (release event state).Leaves Holds Fair waiting w

/-- Whether a law does not depend on what waits, so that jobs may be given up. -/
def Law.Forgiving {σ : Type} {host : Host σ} (law : Law host) : Prop :=
  ∀ {waiting waiting' : Request → Prop} {w : World} {state : σ},
    law.Holds waiting w state → law.Holds waiting' w state

theorem Law.changes {σ : Type} {host : Host σ} (law : Law host) {waiting : Request → Prop}
    {w w' : World} {state : σ} (h : World.Changes (fun _ => True) w w')
    (hw : law.Holds waiting w state) : law.Holds waiting w' state := by
  induction h with
  | refl => exact hw
  | tail _ hstep ih => exact law.change hstep ih

/-- Whether an outcome that ends with a value does so in a world of some sort. -/
def Outcome.Reaches {α : Type} (Q : World → Prop) : Outcome α → Prop
  | .done w _ => Q w
  | .failed _ _ => True
  | .asking _ _ resume => ∀ w reply, (resume w reply).Reaches Q
  | .calling _ _ resume => ∀ w reply, (resume w reply).Reaches Q

theorem Outcome.Reaches.mono {α : Type} {Q R : World → Prop} (hQR : ∀ w, Q w → R w)
    {o : Outcome α} (ho : o.Reaches Q) : o.Reaches R := by
  induction o with
  | done w a => exact hQR w ho
  | failed => exact trivial
  | asking w request resume ih => exact fun w reply => ih w reply (ho w reply)
  | calling w key resume ih => exact fun w reply => ih w reply (ho w reply)

theorem Outcome.reaches_any {α : Type} {Q : World → Prop} (hQ : ∀ w, Q w) (o : Outcome α) :
    o.Reaches Q := by
  induction o with
  | done w a => exact hQ w
  | failed => exact trivial
  | asking w request resume ih => exact ih
  | calling w key resume ih => exact ih

/-- A sequence reaches what its last part reaches. -/
theorem Script.reaches_bind {α β : Type} {Q : World → Prop} (m : Script α) {f : α → Script β}
    (hf : ∀ a w, (f a w).Reaches Q) (w : World) : ((m >>= f) w).Reaches Q := by
  change ((m w).andThen _).Reaches Q
  induction m w with
  | done w a => exact hf a w
  | failed => exact trivial
  | asking w request resume ih => exact ih
  | calling w key resume ih => exact ih

/-- A result that is taken as a value is reached where it was. -/
theorem Outcome.Reaches.asValue {α : Type} {Q : World → Prop} {script : Script α} {w : World}
    (h : (script w).Reaches Q) (f : α → Value) : (Script.asValue f script w).Reaches Q := by
  change ((script w).andThen _).Reaches Q
  generalize script w = o at h
  induction o with
  | done w a => exact h
  | failed => exact trivial
  | asking w request resume ih => exact fun w reply => ih w reply (h w reply)
  | calling w key resume ih => exact fun w reply => ih w reply (h w reply)

-- ════════════════════════════════════════════════════════════════════════════
-- Turns
-- ════════════════════════════════════════════════════════════════════════════

section Turns

variable {σ : Type} {host : Host σ} {law : Law host} {waiting : Request → Prop}
  {Q R : World → Prop} {w : World} {state : σ}

/-- Whether a held invocation goes on in an orderly way, and its request is in fair hands. -/
structure Pending.Sound (law : Law host) (p : Pending σ) : Prop where
  fair : law.Fair p.request p.release
  resume : ∀ w reply, (p.resume w reply).Tidy (w.served p.request reply)
  frames : ∀ frame ∈ p.frames, ∀ w reply, (frame.resume w reply).Tidy w

/-- Whether a held invocation that ends with a value does so in a world of some sort: what matters
is its outermost caller. -/
def Pending.Reaches (Q : World → Prop) (p : Pending σ) : Prop :=
  match p.frames.getLast? with
  | some frame => ∀ w reply, (frame.resume w reply).Reaches Q
  | none => ∀ w reply, (p.resume w reply).Reaches Q

/-- Whether a law holds after a turn, and the invocation reaches some sort of world. -/
def Turn.Kept (law : Law host) (waiting : Request → Prop) (Q : World → Prop) : Turn σ → Prop
  | .finished w state result => law.Holds waiting w state ∧ ∀ value, result = .ok value → Q w
  | .held w state pending =>
    law.Holds (also pending.request waiting) w state ∧ pending.Sound law ∧ pending.Reaches Q

/-- A held invocation may be the handler that others wait for. -/
theorem Turn.Kept.suspend {pending : Pending σ}
    (h : Turn.Kept law waiting R (.held w state pending)) {frames : List Frame}
    (hframes : ∀ frame ∈ frames, ∀ w reply, (frame.resume w reply).Tidy w) {last : Frame}
    (hlast : frames.getLast? = some last) (hreaches : ∀ w reply, (last.resume w reply).Reaches Q) :
    Turn.Kept law waiting Q
      (.held w state { pending with frames := pending.frames ++ frames }) := by
  obtain ⟨hw, ⟨hfair, hresume, hcallers⟩, -⟩ := h
  refine ⟨hw, ⟨hfair, hresume, fun frame hmem => ?_⟩, ?_⟩
  · rcases List.mem_append.1 hmem with hmem | hmem
    · exact hcallers frame hmem
    · exact hframes frame hmem
  · rw [Pending.Reaches, List.getLast?_append, hlast]
    exact hreaches

/-- A turn keeps a law if the handlers do that are entered. -/
theorem Turn.kept_follow {stack : List Text} {enter : World → σ → Text → List Stmt → Turn σ}
    (henter : ∀ w state key body, law.Holds waiting w state →
      (enter w state key body).Kept law waiting fun _ => True)
    (o : Outcome Value) (ho : o.Tidy w) (hreaches : o.Reaches Q) (hw : law.Holds waiting w state) :
    (follow host stack enter o state).Kept law waiting Q := by
  induction o generalizing w state with
  | done w' value => exact ⟨law.changes ho hw, fun _ _ => hreaches⟩
  | failed w' fault => exact ⟨law.changes ho.1 hw, fun _ h => by cases h⟩
  | asking w' request resume ih =>
    obtain ⟨⟨before, hbefore, rfl⟩, hresume, -⟩ := ho
    have hresume : ∀ w reply, (resume w reply).Tidy (w.served request reply) :=
      fun w reply => hresume w reply (failsOnly_any reply fun _ => trivial)
    have hreceived := law.receive request (law.changes hbefore hw)
    rw [follow]
    cases hr : host.receive request state with
    | answered state' signals reply =>
      rw [hr] at hreceived
      exact ih _ reply (hresume _ reply) (hreaches _ reply) hreceived
    | held state' signals hold release =>
      rw [hr] at hreceived
      exact ⟨hreceived.1, ⟨hreceived.2, hresume, fun _ h => absurd h List.not_mem_nil⟩, hreaches⟩
  | calling w' key resume ih =>
    obtain ⟨hcalled, hresume⟩ := ho.of_calling
    have hcall := law.changes hcalled hw
    rw [follow]
    cases body? w' stack key with
    | none => exact ih _ _ (hresume _ _) (hreaches _ _) hcall
    | some body =>
      have hturn := henter w' state key body hcall
      simp only
      cases he : enter w' state key body with
      | finished w'' state'' result =>
        rw [he] at hturn
        exact ih _ _ (hresume _ _) (hreaches _ _) hturn.1
      | held w'' state'' pending =>
        rw [he] at hturn
        refine hturn.suspend (fun frame hmem => ?_) rfl hreaches
        rw [List.mem_singleton.1 hmem]
        exact hresume

theorem Turn.kept_nested (depth : Nat) (stack : List Text) (w : World) (state : σ) (key : Text)
    (body : List Stmt) (hw : law.Holds waiting w state) :
    (nested host depth stack w state key body).Kept law waiting fun _ => True := by
  have hreaches : ∀ body w, (bodyScript body w).Reaches fun _ => True :=
    fun body w => Outcome.reaches_any (fun _ => trivial) _
  induction depth generalizing stack w state key body with
  | zero =>
    refine kept_follow ?_ _ (Script.tidy_bodyScript body w) (hreaches body w) hw
    exact fun _ _ _ _ h => ⟨h, fun _ _ => trivial⟩
  | succ depth ih =>
    exact kept_follow (ih (key :: stack)) _ (Script.tidy_bodyScript body w) (hreaches body w) hw

theorem Turn.kept_resume {stack : List Text} {o : Outcome Value} (ho : o.Tidy w)
    (hreaches : o.Reaches Q) (hw : law.Holds waiting w state) :
    (resume host stack o state).Kept law waiting Q :=
  kept_follow (fun w => kept_nested w.handlers.size stack w) o ho hreaches hw

/-- The callers go on after a turn; what the last of them reaches is what the invocation reaches. -/
theorem Turn.kept_unwind {frames : List Frame}
    (hframes : ∀ frame ∈ frames, ∀ w reply, (frame.resume w reply).Tidy w)
    (hlast : ∀ frame, frames.getLast? = some frame →
      ∀ w reply, (frame.resume w reply).Reaches Q)
    {turn : Turn σ} (h : turn.Kept law waiting fun w => frames = [] → Q w) :
    (unwind host frames turn).Kept law waiting Q := by
  induction frames generalizing turn with
  | nil =>
    cases turn with
    | finished w state result => exact ⟨h.1, fun value hvalue => h.2 value hvalue rfl⟩
    | held w state pending =>
      refine ⟨h.1, h.2.1, ?_⟩
      have hreaches := h.2.2
      unfold Pending.Reaches at hreaches ⊢
      split at hreaches
      all_goals exact fun w reply => (hreaches w reply).mono fun _ h => h rfl
  | cons frame frames ih =>
    cases turn with
    | finished w state result =>
      refine ih (fun f hf => hframes f (List.mem_cons_of_mem _ hf)) (fun f hf => hlast f ?_) ?_
      · rw [List.getLast?_cons, hf]
        rfl
      · refine kept_resume (hframes frame List.mem_cons_self w _) ?_ h.1
        by_cases hempty : frames = []
        · subst hempty
          exact (hlast frame rfl w _).mono fun _ h _ => h
        · exact Outcome.reaches_any (fun _ h => absurd h hempty) _
    | held w state pending =>
      obtain ⟨last, hl⟩ : ∃ last, (frame :: frames).getLast? = some last :=
        Option.isSome_iff_exists.1 (by simp)
      exact h.suspend hframes hl (hlast last hl)

/-- The next turn of a held invocation keeps a law once what its request waited for has happened. -/
theorem Pending.kept_next {p : Pending σ} (hp : p.Sound law) (hreaches : p.Reaches Q)
    (event : Except Fault Unit) (hw : law.Holds (also p.request waiting) w state) :
    (p.next host event w state).Kept law waiting Q := by
  have hreleased := law.release event hp.fair hw
  rw [Pending.next]
  cases hr : p.release event state with
  | answered state' signals reply =>
    rw [hr] at hreleased
    refine Turn.kept_unwind hp.frames (fun frame hframe => ?_) ?_
    · rwa [Pending.Reaches, hframe] at hreaches
    · refine Turn.kept_resume (hp.resume _ _) ?_ hreleased
      cases hframes : p.frames with
      | nil =>
        rw [Pending.Reaches, hframes] at hreaches
        exact (hreaches _ _).mono fun _ h _ => h
      | cons frame frames => exact Outcome.reaches_any (fun _ h => by cases h) _
  | held state' signals hold release =>
    rw [hr] at hreleased
    exact ⟨hreleased.1, ⟨hreleased.2, hp.resume, hp.frames⟩, hreaches⟩

end Turns

-- ════════════════════════════════════════════════════════════════════════════
-- Sessions
-- ════════════════════════════════════════════════════════════════════════════

/-- The boxes of a job, the innermost first. -/
def Job.boxes {σ : Type} : Job σ → List (Pending σ)
  | .run _ _ boxes => boxes
  | .close _ _ box boxes => box :: boxes
  | .beginLoop _ _ => []
  | .wakeLoop _ _ => []

/-- Whether the job belongs to the command given from outside. -/
def Job.ofCommand {σ : Type} : Job σ → Bool
  | .run .command _ _ => true
  | .close .command _ _ _ => true
  | _ => false

/-- What an invocation has to reach: only the command has something to reach. -/
def Owner.duty (Q : World → Prop) : Owner → World → Prop
  | .command => Q
  | _ => fun _ => True

/-- All jobs of a session, the sleepers coming after the queue. -/
def Session.jobs {σ : Type} (s : Session σ) : List (Job σ) := s.ready ++ s.sleeping.map Prod.snd

/-- The requests of some boxes. -/
def requestsOf {σ : Type} (boxes : List (Pending σ)) : Request → Prop :=
  fun r => ∃ box ∈ boxes, box.request = r

/-- The requests that wait for a reply. -/
def Session.Waits {σ : Type} (s : Session σ) : Request → Prop :=
  fun r => ∃ job ∈ s.jobs, requestsOf job.boxes r

theorem mem_iff_of_getElem? {α : Type} {l : List α} {n : Nat} {a : α} (h : l[n]? = some a)
    (b : α) : b ∈ l ↔ b = a ∨ b ∈ l.eraseIdx n := by
  obtain ⟨hlt, rfl⟩ := List.getElem?_eq_some_iff.1 h
  rw [← (List.getElem_cons_eraseIdx_perm hlt).mem_iff, List.mem_cons]

section Sessions

variable {σ : Type} {host : Host σ} {law : Law host} {waiting : Request → Prop} {Q : World → Prop}

/-- Whether boxes are sound, and the outermost of them reaches some sort of world. -/
structure BoxesKept (law : Law host) (Q : World → Prop) (boxes : List (Pending σ)) : Prop where
  sound : ∀ box ∈ boxes, box.Sound law
  reaches : ∀ box, boxes.getLast? = some box → box.Reaches Q

/-- Whether a job goes on in an orderly way and does its duty. -/
def Job.Kept (law : Law host) (Q : World → Prop) : Job σ → Prop
  | .run owner script boxes =>
    script.Tidy ∧ (boxes = [] → ∀ w, (script w).Reaches (owner.duty Q)) ∧
      BoxesKept law (owner.duty Q) boxes
  | .close owner _ box boxes => BoxesKept law (owner.duty Q) (box :: boxes)
  | .beginLoop _ _ => True
  | .wakeLoop _ _ => True

theorem boxesKept_nil (law : Law host) (Q : World → Prop) : BoxesKept law Q [] :=
  ⟨fun _ h => absurd h List.not_mem_nil, fun _ h => by cases h⟩

/-- An event has no duty unless it is the command. -/
theorem Job.kept_event (law : Law host) (Q : World → Prop) (owner : Owner)
    (howner : owner ≠ .command) (key : Text) :
    (Job.run owner (Script.fireValue key) []).Kept law Q := by
  refine ⟨Script.tidy_fireValue key, fun _ w => Outcome.reaches_any (fun w => ?_) _,
    boxesKept_nil law _⟩
  cases owner with
  | command => exact absurd rfl howner
  | _ => trivial

/-- A job that does not belong to the command has no duty. -/
theorem Job.Kept.of_not_ofCommand {R : World → Prop} {job : Job σ} (h : job.Kept law R)
    (hjob : job.ofCommand = false) : job.Kept law Q := by
  cases job with
  | run owner script boxes =>
    cases owner with
    | command => cases hjob
    | _ => exact h
  | close owner event box boxes =>
    cases owner with
    | command => cases hjob
    | _ => exact h
  | _ => trivial

theorem Pending.Reaches.mono {R : World → Prop} (hQR : ∀ w, Q w → R w) {p : Pending σ}
    (h : p.Reaches Q) : p.Reaches R := by
  unfold Pending.Reaches at h ⊢
  split at h
  all_goals exact fun w reply => (h w reply).mono hQR

theorem Pending.reaches_any (hQ : ∀ w, Q w) (p : Pending σ) : p.Reaches Q := by
  unfold Pending.Reaches
  split
  all_goals exact fun w reply => Outcome.reaches_any hQ _

theorem Job.Kept.mono {R : World → Prop} (hQR : ∀ w, Q w → R w) {job : Job σ}
    (h : job.Kept law Q) : job.Kept law R := by
  have hduty : ∀ (owner : Owner) w, owner.duty Q w → owner.duty R w := by
    intro owner w h
    cases owner with
    | command => exact hQR w h
    | _ => trivial
  cases job with
  | run owner script boxes =>
    obtain ⟨htidy, hreaches, hboxes⟩ := h
    refine ⟨htidy, fun hempty w => (hreaches hempty w).mono (hduty owner), hboxes.sound, ?_⟩
    exact fun box hbox => (hboxes.reaches box hbox).mono (hduty owner)
  | close owner event box boxes =>
    exact ⟨h.sound, fun box hbox => (h.reaches box hbox).mono (hduty owner)⟩
  | _ => trivial

/-- The jobs of a session under one law are jobs under another that is as fair. -/
theorem Job.Kept.of_fair {job : Job σ} (h : job.Kept law Q) (law' : Law host)
    (hfair : ∀ request release, law.Fair request release → law'.Fair request release) :
    job.Kept law' Q := by
  have hboxes : ∀ {R : World → Prop} {boxes : List (Pending σ)}, BoxesKept law R boxes →
      BoxesKept law' R boxes := by
    refine fun h => ⟨fun box hbox => ?_, h.reaches⟩
    obtain ⟨hfair', hresume, hframes⟩ := h.sound box hbox
    exact ⟨hfair _ _ hfair', hresume, hframes⟩
  cases job with
  | run owner script boxes => exact ⟨h.1, h.2.1, hboxes h.2.2⟩
  | close owner event box boxes => exact hboxes h
  | _ => trivial

theorem Job.Kept.turn_run {owner : Owner} {script : Script Value} {boxes : List (Pending σ)}
    (h : (Job.run owner script boxes).Kept law Q) {w : World} {state : σ}
    (hw : law.Holds waiting w state) :
    (Turn.run host script w state).Kept law waiting fun w => boxes = [] → owner.duty Q w := by
  obtain ⟨htidy, hreaches, -⟩ := h
  refine Turn.kept_resume (htidy w) ?_ hw
  by_cases hempty : boxes = []
  · exact (hreaches hempty w).mono fun _ h _ => h
  · exact Outcome.reaches_any (fun _ h => absurd h hempty) _

theorem Job.Kept.turn_close {owner : Owner} {event : Except Fault Unit} {box : Pending σ}
    {boxes : List (Pending σ)} (h : (Job.close owner event box boxes).Kept law Q)
    {others : Request → Prop} {w : World} {state : σ}
    (hw : law.Holds (fun r => others r ∨ requestsOf (box :: boxes) r) w state) :
    (box.next host event w state).Kept law (fun r => others r ∨ requestsOf boxes r)
      fun w => boxes = [] → owner.duty Q w := by
  refine Pending.kept_next (h.sound box List.mem_cons_self) ?_ event (law.mono ?_ hw)
  · cases boxes with
    | nil => exact (h.reaches box rfl).mono fun _ h _ => h
    | cons => exact Pending.reaches_any (fun _ h => by cases h) box
  · rintro r (hr | ⟨b, hb, rfl⟩)
    · exact .inr (.inl hr)
    · rcases List.mem_cons.1 hb with rfl | hb
      · exact .inl rfl
      · exact .inr (.inr ⟨b, hb, rfl⟩)

/-- Whether a law holds of a session and all its jobs go on in an orderly way. -/
structure Session.Kept (law : Law host) (Q : World → Prop) (s : Session σ) : Prop where
  world : law.Holds s.Waits s.world s.state
  jobs : ∀ job ∈ s.jobs, job.Kept law Q

namespace Session

variable {s s' : Session σ}

theorem mem_jobs {job : Job σ} : job ∈ s.jobs ↔ job ∈ s.ready ∨ ∃ e ∈ s.sleeping, e.2 = job := by
  simp only [Session.jobs, List.mem_append, List.mem_map]

theorem waits_of_jobs (h : ∀ job ∈ s.jobs, job ∈ s'.jobs) {r : Request} (hr : s.Waits r) :
    s'.Waits r := by
  obtain ⟨job, hjob, hbox⟩ := hr
  exact ⟨job, h job hjob, hbox⟩

/-- A law only cares for the world, the state of the host and the jobs. -/
theorem Kept.of_jobs (h : s.Kept law Q) (hworld : s'.world = s.world) (hstate : s'.state = s.state)
    (hold : ∀ job ∈ s.jobs, job ∈ s'.jobs)
    (hnew : ∀ job ∈ s'.jobs, job ∈ s.jobs ∨ job.Kept law Q) : s'.Kept law Q := by
  refine ⟨?_, fun job hjob => (hnew job hjob).elim (h.jobs job) id⟩
  rw [hworld, hstate]
  exact law.mono (fun r => waits_of_jobs hold) h.world

/-- A job may be put anywhere in the queue. -/
theorem Kept.add (h : s.Kept law Q) {before after : List (Job σ)} (hready : s.ready = before ++ after)
    {job : Job σ} (hjob : job.Kept law Q) :
    Kept law Q { s with ready := before ++ job :: after } := by
  refine h.of_jobs rfl rfl (fun j hj => ?_) fun j hj => ?_
  · simp only [mem_jobs, hready, List.mem_append, List.mem_cons] at hj ⊢
    grind
  · simp only [mem_jobs, hready, List.mem_append, List.mem_cons] at hj ⊢
    grind

theorem Kept.first (h : s.Kept law Q) {job : Job σ} (hjob : job.Kept law Q) :
    (s.first job).Kept law Q :=
  h.add (List.nil_append _).symm hjob

theorem Kept.last (h : s.Kept law Q) {job : Job σ} (hjob : job.Kept law Q) :
    Kept law Q { s with ready := s.ready ++ [job] } :=
  h.add (List.append_nil _).symm hjob

theorem Kept.sleep (h : s.Kept law Q) (seconds : Rat) {job : Job σ} (hjob : job.Kept law Q) :
    (s.sleep seconds job).Kept law Q := by
  refine h.of_jobs rfl rfl (fun j hj => ?_) fun j hj => ?_
  · simp only [mem_jobs, Session.sleep, List.mem_append] at hj ⊢
    grind
  · simp only [mem_jobs, Session.sleep, List.mem_append, List.mem_singleton] at hj ⊢
    grind

theorem Kept.wake (h : s.Kept law Q) (instant : Rat) : (s.wake instant).Kept law Q := by
  have hjobs : ∀ job, job ∈ (s.wake instant).jobs ↔ job ∈ s.jobs := by
    intro job
    simp only [mem_jobs, Session.wake, List.mem_append, List.mem_map, List.mem_filter]
    grind
  exact h.of_jobs rfl rfl (fun job => (hjobs job).2) fun job hjob => .inl ((hjobs job).1 hjob)

/-- The tick loops that were registered do not wait for any reply. -/
theorem Kept.collect (h : s.Kept law Q) : s.collect.Kept law Q := by
  have hjobs : ∀ job, job ∈ s.collect.jobs ↔
      job ∈ s.jobs ∨ ∃ e ∈ s.world.timers.created, Job.beginLoop e.1 e.2 = job := by
    intro job
    simp only [mem_jobs, Session.collect, List.mem_append, List.mem_map]
    grind
  refine ⟨?_, fun job hjob => ?_⟩
  · exact law.collect (law.mono (fun r => waits_of_jobs fun job hjob => (hjobs job).2 (.inl hjob))
      h.world)
  · obtain hjob | ⟨e, -, rfl⟩ := (hjobs job).1 hjob
    · exact h.jobs job hjob
    · trivial

theorem Kept.record (h : s.Kept law Q) (owner : Owner) (result : Except Fault Value) :
    (s.record owner result).Kept law Q := by
  cases owner <;> exact ⟨h.world, h.jobs⟩

/-- A law that holds while the requests of one more job wait holds of the session with that job. -/
theorem kept_with (job : Job σ) (hjob : job.Kept law Q) (hjobs : ∀ job ∈ s.jobs, job.Kept law Q)
    (hmem : ∀ j, j ∈ s'.jobs ↔ j = job ∨ j ∈ s.jobs)
    (hw : law.Holds (fun r => s.Waits r ∨ requestsOf job.boxes r) s'.world s'.state) :
    s'.Kept law Q := by
  refine ⟨law.mono (fun r hr => ?_) hw, fun j hj => ?_⟩
  · obtain hr | hr := hr
    · exact waits_of_jobs (fun j hj => (hmem j).2 (.inr hj)) hr
    · exact ⟨job, (hmem job).2 (.inl rfl), hr⟩
  · obtain rfl | hj := (hmem j).1 hj
    · exact hjob
    · exact hjobs j hj

/-- What comes after a turn keeps a law if the turn did. -/
theorem kept_conclude (hjobs : ∀ job ∈ s.jobs, job.Kept law Q) {owner : Owner}
    {boxes : List (Pending σ)} (hboxes : BoxesKept law (owner.duty Q) boxes) {turn : Turn σ}
    (hturn : turn.Kept law (fun r => s.Waits r ∨ requestsOf boxes r)
      fun w => boxes = [] → owner.duty Q w) : (s.conclude owner boxes turn).Kept law Q := by
  have hfirst : ∀ (w : World) (state : σ) (job j : Job σ),
      j ∈ (({ s with world := w, state } : Session σ).first job).jobs ↔ j = job ∨ j ∈ s.jobs := by
    intro w state job j
    simp only [mem_jobs, Session.first, List.mem_cons]
    grind
  cases turn with
  | finished w state result =>
    cases boxes with
    | nil =>
      have hs : Kept law Q { s with world := w, state } :=
        ⟨law.mono (fun r hr => hr.elim id fun ⟨_, hbox, _⟩ => absurd hbox List.not_mem_nil) hturn.1,
          hjobs⟩
      exact hs.collect.record owner result
    | cons box boxes =>
      have hs : Kept law Q (({ s with world := w, state } : Session σ).first
          (.close owner (result.map fun _ => ()) box boxes)) :=
        kept_with (.close owner _ box boxes) hboxes hjobs (hfirst w state _) hturn.1
      exact hs.collect
  | held w state box =>
    obtain ⟨hw, hsound, hreaches⟩ := hturn
    have hall : BoxesKept law (owner.duty Q) (box :: boxes) := by
      refine ⟨fun b hb => ?_, fun b hb => ?_⟩
      · rcases List.mem_cons.1 hb with rfl | hb
        · exact hsound
        · exact hboxes.sound b hb
      · cases boxes with
        | nil =>
          cases hb
          exact hreaches.mono fun _ h => h rfl
        | cons box' boxes => exact hboxes.reaches b hb
    have hwait : law.Holds (fun r => s.Waits r ∨ requestsOf (box :: boxes) r) w state := by
      refine law.mono (fun r hr => ?_) hw
      obtain rfl | hr | ⟨b, hb, hrequest⟩ := hr
      · exact .inr ⟨box, List.mem_cons_self, rfl⟩
      · exact .inl hr
      · exact .inr ⟨b, List.mem_cons_of_mem _ hb, hrequest⟩
    rw [Session.conclude]
    split
    · next seconds hhold =>
      have hs : Kept law Q (({ s with world := w, state } : Session σ).sleep seconds
          (.close owner (.ok ()) box boxes)) := by
        refine kept_with (.close owner (.ok ()) box boxes) hall hjobs (fun j => ?_) hwait
        simp only [mem_jobs, Session.sleep, List.mem_append, List.mem_singleton]
        grind
      exact hs.collect
    · next key hhold =>
      have hs : Kept law Q (({ s with world := w, state } : Session σ).first
          (.run owner (Script.fireValue key) (box :: boxes))) :=
        kept_with (.run owner (Script.fireValue key) (box :: boxes))
          ⟨Script.tidy_fireValue key, fun h => absurd h (List.cons_ne_nil _ _), hall⟩ hjobs
          (hfirst w state _) hwait
      exact hs.collect

theorem Kept.sleepLoop (h : s.Kept law Q) (timer : Key) (number : Nat) :
    (s.sleepLoop timer number).Kept law Q := by
  unfold Session.sleepLoop
  split
  · exact h.sleep _ trivial
  · exact h

theorem Kept.startTick (h : s.Kept law Q) (timer : Key) : (s.startTick timer).Kept law Q := by
  have hs := h.last (Job.kept_event law Q (.tick s.nextTick) (fun h => by cases h)
    (World.tickKey timer))
  exact ⟨hs.world, hs.jobs⟩

/-- A job that takes its turn keeps a law, whichever it is. -/
theorem kept_work (hjobs : ∀ job ∈ s.jobs, job.Kept law Q) {job : Job σ} (hjob : job.Kept law Q)
    (hw : law.Holds (fun r => s.Waits r ∨ requestsOf job.boxes r) s.world s.state) :
    (s.work host job).Kept law Q := by
  have hidle : job.boxes = [] → s.Kept law Q := fun hempty =>
    ⟨law.mono (fun r hr => hr.elim id fun ⟨_, hbox, _⟩ =>
      absurd (hempty ▸ hbox) List.not_mem_nil) hw, hjobs⟩
  cases job with
  | run owner script boxes => exact kept_conclude hjobs hjob.2.2 (hjob.turn_run hw)
  | close owner event box boxes =>
    have hboxes : BoxesKept law (owner.duty Q) boxes := by
      refine ⟨fun b hb => hjob.sound b (List.mem_cons_of_mem _ hb), fun b hb => hjob.reaches b ?_⟩
      rw [List.getLast?_cons, hb]
      rfl
    exact kept_conclude hjobs hboxes (hjob.turn_close hw)
  | beginLoop timer number =>
    rw [Session.work]
    split
    · exact (hidle rfl).sleepLoop timer number
    · exact hidle rfl
  | wakeLoop timer number =>
    rw [Session.work]
    split
    · exact ((hidle rfl).startTick timer).sleepLoop timer number
    · exact hidle rfl

/-- Whether a command that has ended with a value has reached a world of some sort. -/
def Reached (Q : World → Prop) (s : Session σ) : Prop :=
  ∀ value, s.result = some (.ok value) → Q s.world

/-- Only the last turn of the command gives a result. -/
theorem result_conclude
    (hcollect : ∀ w : World, Q w → Q { w with timers := { w.timers with created := [] } })
    {owner : Owner} {boxes : List (Pending σ)} {turn : Turn σ}
    (hturn : turn.Kept law waiting fun w => boxes = [] → owner.duty Q w) :
    (s.conclude owner boxes turn).result = s.result ∨ (s.conclude owner boxes turn).Reached Q := by
  cases turn with
  | finished w state result =>
    cases boxes with
    | nil =>
      cases owner with
      | command =>
        refine .inr fun value hvalue => ?_
        exact hcollect w (hturn.2 value (Option.some.inj hvalue) rfl)
      | _ => exact .inl rfl
    | cons box boxes => exact .inl rfl
  | held w state box =>
    rw [Session.conclude]
    split <;> exact .inl rfl

theorem result_sleepLoop (s : Session σ) (timer : Key) (number : Nat) :
    (s.sleepLoop timer number).result = s.result := by
  unfold Session.sleepLoop
  split <;> rfl

theorem result_work
    (hcollect : ∀ w : World, Q w → Q { w with timers := { w.timers with created := [] } })
    {job : Job σ} (hjob : job.Kept law Q)
    (hw : law.Holds (fun r => s.Waits r ∨ requestsOf job.boxes r) s.world s.state) :
    (s.work host job).result = s.result ∨ (s.work host job).Reached Q := by
  cases job with
  | run owner script boxes => exact result_conclude hcollect (hjob.turn_run hw)
  | close owner event box boxes => exact result_conclude hcollect (hjob.turn_close hw)
  | beginLoop timer number =>
    rw [Session.work]
    split
    · exact .inl (result_sleepLoop s timer number)
    · exact .inl rfl
  | wakeLoop timer number =>
    rw [Session.work]
    split
    · exact .inl (result_sleepLoop (s.startTick timer) timer number)
    · exact .inl rfl

/-- Whether a session is left when a job is taken out of another one. -/
structure Took (s : Session σ) (job : Job σ) (rest : Session σ) : Prop where
  world : rest.world = s.world
  state : rest.state = s.state
  result : rest.result = s.result
  jobs : ∀ j, j ∈ s.jobs ↔ j = job ∨ j ∈ rest.jobs

theorem took_of_ready {job : Job σ} {ready : List (Job σ)} (hready : s.ready = job :: ready) :
    s.Took job { s with ready } := by
  refine ⟨rfl, rfl, rfl, fun j => ?_⟩
  simp only [mem_jobs, hready, List.mem_cons]
  grind

theorem took_of_taken? {position : Nat} {job : Job σ} {rest : Session σ}
    (h : s.taken? position = some (job, rest)) : s.Took job rest := by
  unfold taken? at h
  split at h
  · next j hj =>
    cases h
    refine ⟨rfl, rfl, rfl, fun j => ?_⟩
    simp only [mem_jobs, mem_iff_of_getElem? hj]
    grind
  · split at h
    · next e he =>
      cases h
      refine ⟨rfl, rfl, rfl, fun j => ?_⟩
      simp only [mem_jobs, mem_iff_of_getElem? he]
      grind
    · cases h

section Took

variable {job : Job σ} {rest : Session σ}

/-- When a job is taken out, a law holds while its requests and those of the others wait. -/
theorem Kept.without (h : s.Kept law Q) (ht : s.Took job rest) :
    (∀ j ∈ rest.jobs, j.Kept law Q) ∧ job.Kept law Q ∧
      law.Holds (fun r => rest.Waits r ∨ requestsOf job.boxes r) rest.world rest.state := by
  rw [ht.world, ht.state]
  refine ⟨fun j hj => h.jobs j ((ht.jobs j).2 (.inr hj)), h.jobs job ((ht.jobs job).2 (.inl rfl)),
    law.mono ?_ h.world⟩
  rintro r ⟨j, hj, hr⟩
  obtain rfl | hj := (ht.jobs j).1 hj
  · exact .inr hr
  · exact .inl ⟨j, hj, hr⟩

theorem Kept.take (h : s.Kept law Q) (ht : s.Took job rest) : (rest.work host job).Kept law Q := by
  obtain ⟨hjobs, hjob, hw⟩ := h.without ht
  exact kept_work hjobs hjob hw

theorem Kept.result_take
    (hcollect : ∀ w : World, Q w → Q { w with timers := { w.timers with created := [] } })
    (h : s.Kept law Q) (ht : s.Took job rest) :
    (rest.work host job).result = s.result ∨ (rest.work host job).Reached Q := by
  obtain ⟨-, hjob, hw⟩ := h.without ht
  rw [← ht.result]
  exact result_work hcollect hjob hw

end Took

/-- The first job of the queue takes its turn. -/
theorem Kept.step (h : s.Kept law Q) : (s.step host).Kept law Q := by
  unfold Session.step
  split
  · exact h
  · next job ready hready => exact h.take (took_of_ready hready)

/-- What steps and the passing of time keep is kept until a goal is reached. -/
theorem drive_induction {P : Session σ → Prop} {goal : Session σ → Bool}
    (hstep : ∀ s, P s → goal s = false → P (s.step host))
    (hwake : ∀ s instant, P s → P (s.wake instant)) (limit : Option Rat) (fuel : Nat) (hs : P s) :
    P (drive host goal limit fuel s) := by
  induction fuel generalizing s with
  | zero => exact hs
  | succ fuel ih =>
    rw [drive]
    split
    · exact hs
    next hgoal =>
    split
    · exact ih (hstep s hs (by simpa using hgoal))
    split
    · split
      · exact ih (hwake s _ hs)
      · exact hs
    · exact hs

theorem Kept.drive (h : s.Kept law Q) (goal : Session σ → Bool) (limit : Option Rat) (fuel : Nat) :
    (Session.drive host goal limit fuel s).Kept law Q :=
  drive_induction (fun _ h _ => h.step) (fun _ instant h => h.wake instant) limit fuel h

theorem Kept.perform (h : s.Kept law Q) (fuel : Nat) {script : Script Value} (htidy : script.Tidy)
    (hreaches : ∀ w, (script w).Reaches Q) :
    (s.perform host fuel script).1.Kept law Q := by
  have hs : Kept law Q { s with result := none } := ⟨h.world, h.jobs⟩
  have hjob : (Job.run .command script [] : Job σ).Kept law Q :=
    ⟨htidy, fun _ => hreaches, boxesKept_nil law _⟩
  exact (hs.first hjob).drive _ _ fuel

theorem Kept.launch (h : s.Kept law Q) {owner : Owner} (howner : owner = .command → ∀ w, Q w)
    (execution : Execution) :
    Kept law Q { s with ready := s.ready ++ [.run owner execution.script []] } := by
  refine h.last ⟨execution.tidy_script, fun _ w => ?_, boxesKept_nil law _⟩
  refine Outcome.reaches_any (fun w => ?_) _
  cases owner with
  | command => exact howner rfl w
  | _ => trivial

theorem Kept.spawn (h : s.Kept law Q) (key : Text) : (s.spawn key).Kept law Q := by
  have hs := h.last (Job.kept_event law Q (.spawned s.spawned.size) (fun h => by cases h) key)
  exact ⟨hs.world, hs.jobs⟩

theorem Kept.stop (h : s.Kept law Q) : s.stop.Kept law Q := by
  refine ⟨law.stop h.world, fun job hjob => h.jobs job ?_⟩
  rw [mem_jobs] at hjob ⊢
  obtain hjob | ⟨e, he, rfl⟩ := hjob
  · exact .inl (List.mem_filter.1 hjob).1
  · exact .inr ⟨e, (List.mem_filter.1 he).1, rfl⟩

/-- A move keeps a law, if no job is given up or the law does not depend on what waits; commands
that begin have to have nothing to reach. -/
theorem Kept.move (h : s.Kept law Q) {m : Move} (hm : ¬ m.Cancels ∨ law.Forgiving)
    (hcommand : m.Commands → ∀ w, Q w) : (s.move host m).Kept law Q := by
  cases m with
  | launch owner execution => exact h.launch hcommand execution
  | take position =>
    rw [Session.move]
    split
    · next job rest htaken => exact h.take (took_of_taken? htaken)
    · exact h
  | cancel position =>
    rw [Session.move]
    split
    · next job rest htaken =>
      obtain ⟨hjobs, -, hw⟩ := h.without (took_of_taken? htaken)
      obtain hm | hforgiving := hm
      · exact absurd trivial hm
      · exact ⟨hforgiving hw, hjobs⟩
    · exact h
  | signal signal => exact ⟨law.signal signal h.world, h.jobs⟩
  | perform fuel execution =>
    exact h.perform fuel execution.tidy_script fun w => Outcome.reaches_any (hcommand trivial) _
  | spawn key => exact h.spawn key
  | join fuel =>
    have hs := h.drive (fun s => s.spawned.all Option.isSome) none fuel
    exact ⟨hs.world, hs.jobs⟩
  | waitIdle fuel => exact h.drive _ _ fuel
  | advance fuel seconds =>
    have hs := h.drive (fun _ => false) (some (s.clock + seconds)) fuel
    exact ⟨hs.world, hs.jobs⟩
  | stop => exact h.stop

/-- A run keeps a law, if no job is given up or the law does not depend on what waits. -/
theorem Kept.play (h : s.Kept law fun _ => True) {moves : List Move}
    (hmoves : (∀ m ∈ moves, ¬ m.Cancels) ∨ law.Forgiving) :
    (s.play host moves).Kept law fun _ => True := by
  induction moves generalizing s with
  | nil => exact h
  | cons m moves ih =>
    refine ih (h.move (hmoves.imp_left fun hall => hall m List.mem_cons_self) fun _ _ => trivial) ?_
    exact hmoves.imp_left fun hall m' hm' => hall m' (List.mem_cons_of_mem _ hm')

-- ════════════════════════════════════════════════════════════════════════════
-- One law after another
-- ════════════════════════════════════════════════════════════════════════════

/-- Whether a session keeps one law, and another one from the moment at which its command has ended
with a value. -/
structure KeptThen (law law' : Law host) (Q : World → Prop) (s : Session σ) : Prop where
  kept : s.Kept law Q
  after : ∀ value, s.result = some (.ok value) → s.Kept law' fun _ => True

section KeptThen

variable {law' : Law host}

/-- The second law holds from the moment at which the command has reached something. -/
theorem KeptThen.of_result (h : s.KeptThen law law' Q) (hkept : s'.Kept law Q)
    (hafter : s.Kept law' (fun _ => True) → s'.Kept law' fun _ => True)
    (hswitch : ∀ s : Session σ, s.Kept law Q → Q s.world → s.Kept law' fun _ => True)
    (hresult : s'.result = s.result ∨ s'.Reached Q) : s'.KeptThen law law' Q := by
  refine ⟨hkept, fun value hvalue => ?_⟩
  obtain hsame | hreached := hresult
  · exact hafter (h.after value (hsame ▸ hvalue))
  · exact hswitch s' hkept (hreached value hvalue)

variable (hcollect : ∀ w : World, Q w → Q { w with timers := { w.timers with created := [] } })
  (hswitch : ∀ s : Session σ, s.Kept law Q → Q s.world → s.Kept law' fun _ => True)

include hcollect hswitch

theorem KeptThen.take (h : s.KeptThen law law' Q) {job : Job σ} {rest : Session σ}
    (ht : s.Took job rest) : (rest.work host job).KeptThen law law' Q :=
  h.of_result (h.kept.take ht) (fun h => h.take ht) hswitch (h.kept.result_take hcollect ht)

theorem KeptThen.drive (h : s.KeptThen law law' Q) (goal : Session σ → Bool) (limit : Option Rat)
    (fuel : Nat) : (Session.drive host goal limit fuel s).KeptThen law law' Q := by
  refine drive_induction (fun s h _ => ?_) (fun s instant h => ?_) limit fuel h
  · unfold Session.step
    split
    · exact h
    · next job ready hready => exact h.take hcollect hswitch (took_of_ready hready)
  · exact h.of_result (h.kept.wake instant) (fun h => h.wake instant) hswitch (.inl rfl)

/-- Two laws are kept in turn by moves that neither begin a command nor give up a job. -/
theorem KeptThen.move (h : s.KeptThen law law' Q) {m : Move} (hm : ¬ m.Cancels)
    (hcommand : ¬ m.Commands) : (s.move host m).KeptThen law law' Q := by
  have hkept : (s.move host m).Kept law Q := h.kept.move (.inl hm) fun h => absurd h hcommand
  have hafter : s.Kept law' (fun _ => True) → (s.move host m).Kept law' fun _ => True :=
    fun h => h.move (.inl hm) fun _ _ => trivial
  cases m with
  | take position =>
    rw [Session.move] at hkept hafter ⊢
    split
    · next job rest htaken => exact h.take hcollect hswitch (took_of_taken? htaken)
    · exact h
  | cancel => exact absurd trivial hm
  | perform => exact absurd trivial hcommand
  | join fuel =>
    have hs := h.drive hcollect hswitch (fun s => s.spawned.all Option.isSome) none fuel
    exact ⟨hkept, fun value hvalue => ⟨(hs.after value hvalue).world, (hs.after value hvalue).jobs⟩⟩
  | waitIdle fuel => exact h.drive hcollect hswitch _ _ fuel
  | advance fuel seconds =>
    have hs := h.drive hcollect hswitch (fun _ => false) (some (s.clock + seconds)) fuel
    exact ⟨hkept, fun value hvalue => ⟨(hs.after value hvalue).world, (hs.after value hvalue).jobs⟩⟩
  | _ => exact h.of_result hkept hafter hswitch (.inl rfl)

theorem KeptThen.play (h : s.KeptThen law law' Q) {moves : List Move}
    (hmoves : ∀ m ∈ moves, ¬ m.Cancels ∧ ¬ m.Commands) : (s.play host moves).KeptThen law law' Q := by
  induction moves generalizing s with
  | nil => exact h
  | cons m moves ih =>
    obtain ⟨hm, hcommand⟩ := hmoves m List.mem_cons_self
    exact ih (h.move hcollect hswitch hm hcommand) fun m' hm' => hmoves m' (List.mem_cons_of_mem _ hm')

end KeptThen

end Session

end Sessions

end FormBasic
