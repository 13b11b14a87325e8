import FormBasic.Number.Duration
import FormBasic.Session.Event

/-!
# Sessions over time

A session runs several invocations at once: the command given from outside, handlers that were
spawned, and the ticks of timers. One of them runs at a time, to the end of its turn; those that can
run wait in a queue, those that wait for time sleep. The clock stands still while anything can run
and then jumps to the next instant at which a sleeper wakes.

## Main definitions

* `Owner`, `Job` - on whose behalf something runs, and what is to be run
* `Session` - the world, the host's state, the queue, the sleepers and the clock
* `Session.step` - runs the first job of the queue
* `Session.drive` - runs until a goal is reached or nothing more can happen in time
* `Session.perform`, `Session.spawn`, `Session.join`, `Session.waitIdle`, `Session.advance`,
  `Session.stop` - the commands
* `Session.playModule` - a whole session with one module

## Design notes

A box that is open while an event is raised stays on top of its own invocation: the event runs at
once, in front of the queue, and the box closes when the event's handler has ended.
-/

namespace FormBasic

-- ════════════════════════════════════════════════════════════════════════════
-- Jobs
-- ════════════════════════════════════════════════════════════════════════════

/-- On whose behalf something runs. -/
inductive Owner where
  /-- The command given from outside. -/
  | command
  /-- A spawned handler, by its number. -/
  | spawned (number : Nat)
  /-- A tick of a timer, by its number. -/
  | tick (number : Nat)
  deriving Repr, DecidableEq

/-- What is to be run. The boxes of a job are those that stay open until it ends, the innermost
first. -/
inductive Job (σ : Type) where
  | run (owner : Owner) (script : Script Value) (boxes : List (Pending σ))
  /-- What a box waited for has happened. -/
  | close (owner : Owner) (event : Except Fault Unit) (box : Pending σ) (boxes : List (Pending σ))
  /-- A tick loop begins. -/
  | beginLoop (timer : Key) (number : Nat)
  /-- The interval of a tick loop has passed. -/
  | wakeLoop (timer : Key) (number : Nat)

/-- Whether the job belongs to a timer. -/
def Job.ofTimer {σ : Type} : Job σ → Bool
  | .run (.tick _) _ _ | .close (.tick _) _ _ _ | .beginLoop _ _ | .wakeLoop _ _ => true
  | _ => false

/-- A session: the shared world and everything that is under way. -/
structure Session (σ : Type) where
  world : World
  /-- The state of the host. -/
  state : σ
  /-- Seconds since the session began. -/
  clock : Rat := 0
  /-- What can run, in order. -/
  ready : List (Job σ) := []
  /-- What waits for an instant, in the order in which it fell asleep. -/
  sleeping : List (Rat × Job σ) := []
  /-- The result of the command, once it has ended. -/
  result : Option (Except Fault Value) := none
  /-- The results of the spawned handlers that nobody waited for yet, once they have ended. -/
  spawned : Array (Option (Except Fault Value)) := #[]
  /-- The ticks under way. -/
  ticks : List Nat := []
  /-- The number of the next tick. -/
  nextTick : Nat := 0

/-- A script whose result is taken as a value. -/
def Script.asValue {α : Type} (f : α → Value) (script : Script α) : Script Value := do
  return f (← script)

/-- The event's handler as a script with a value. -/
def Script.fireValue (key : Text) : Script Value := Script.asValue .bool (Script.fire key)

namespace Session

variable {σ : Type}

-- ════════════════════════════════════════════════════════════════════════════
-- Steps
-- ════════════════════════════════════════════════════════════════════════════

/-- Puts a job in front of the queue. -/
def first (s : Session σ) (job : Job σ) : Session σ := { s with ready := job :: s.ready }

/-- Lets a job sleep for some time. -/
def sleep (s : Session σ) (seconds : Rat) (job : Job σ) : Session σ :=
  { s with sleeping := s.sleeping ++ [(s.clock + seconds, job)] }

/-- Queues the tick loops that were registered. -/
def collect (s : Session σ) : Session σ :=
  { s with
    world := { s.world with timers := { s.world.timers with created := [] } }
    ready := s.ready ++ s.world.timers.created.map fun e => .beginLoop e.1 e.2 }

/-- Notes the result of an invocation. -/
def record (s : Session σ) (owner : Owner) (result : Except Fault Value) : Session σ :=
  match owner with
  | .command => { s with result := some result }
  | .spawned number => { s with spawned := s.spawned.setIfInBounds number (some result) }
  | .tick number => { s with ticks := s.ticks.erase number }

/-- Goes on after a turn: an invocation that has ended closes the box around it or leaves its
result; one that is held sleeps, or raises its event at once. -/
def conclude (s : Session σ) (owner : Owner) (boxes : List (Pending σ)) : Turn σ → Session σ
  | .finished world state result =>
    let s := collect { s with world, state }
    match boxes with
    | [] => s.record owner result
    | box :: boxes => s.first (.close owner (result.map fun _ => ()) box boxes)
  | .held world state box =>
    let s := collect { s with world, state }
    match box.hold with
    | .delay seconds => s.sleep seconds (.close owner (.ok ()) box boxes)
    | .event key => s.first (.run owner (Script.fireValue key) (box :: boxes))

/-- Whether a tick loop goes on: it is not cancelled, and the session is not stopped. -/
def loopGoesOn (s : Session σ) (number : Nat) : Bool :=
  !s.world.timers.cancelled.contains number && !s.world.stopped

/-- Whether a tick loop that wakes starts a tick: it goes on, and it is the registered one. -/
def loopTicks (s : Session σ) (timer : Key) (number : Nat) : Bool :=
  s.loopGoesOn number && s.world.timers.loops.get? timer == some number

/-- The time in seconds until the next tick of a timer; none if there is no next tick. -/
def timeToTick? (s : Session σ) (timer : Key) : Option Rat :=
  match s.world.components.get? timer with
  | none => none
  | some c => (World.milliseconds c).toRat?.map fun ms => ms / 1000

/-- Lets a tick loop sleep until its next tick. -/
def sleepLoop (s : Session σ) (timer : Key) (number : Nat) : Session σ :=
  match s.timeToTick? timer with
  | some seconds => s.sleep seconds (.wakeLoop timer number)
  | none => s

/-- Queues a tick of a timer. -/
def startTick (s : Session σ) (timer : Key) : Session σ :=
  { s with
    ready := s.ready ++ [.run (.tick s.nextTick) (Script.fireValue (World.tickKey timer)) []]
    ticks := s.ticks ++ [s.nextTick]
    nextTick := s.nextTick + 1 }

/-- Runs a job. -/
def work (host : Host σ) (s : Session σ) : Job σ → Session σ
  | .run owner script boxes => s.conclude owner boxes (Turn.run host script s.world s.state)
  | .close owner event box boxes => s.conclude owner boxes (box.next host event s.world s.state)
  | .beginLoop timer number => if s.loopGoesOn number then s.sleepLoop timer number else s
  | .wakeLoop timer number =>
    if s.loopTicks timer number then (s.startTick timer).sleepLoop timer number else s

/-- Runs the first job of the queue. -/
def step (host : Host σ) (s : Session σ) : Session σ :=
  match s.ready with
  | [] => s
  | job :: ready => work host { s with ready } job

-- ════════════════════════════════════════════════════════════════════════════
-- Time
-- ════════════════════════════════════════════════════════════════════════════

/-- The earliest instant at which a sleeper wakes. -/
def nextInstant? (s : Session σ) : Option Rat :=
  s.sleeping.foldl (fun earliest e =>
    match earliest with
    | none => some e.1
    | some t => some (if e.1 < t then e.1 else t)) none

/-- Lets the clock reach an instant and wakes whoever sleeps no longer than that. -/
def wake (s : Session σ) (instant : Rat) : Session σ :=
  { s with
    clock := if s.clock < instant then instant else s.clock
    ready := s.ready ++ (s.sleeping.filter fun e => e.1 ≤ instant).map Prod.snd
    sleeping := s.sleeping.filter fun e => !(e.1 ≤ instant) }

/-- Whether an instant lies within a limit; without a limit every instant does. -/
def within (limit : Option Rat) (instant : Rat) : Bool :=
  match limit with
  | none => true
  | some last => instant ≤ last

/-- Runs until a goal is reached, or until nothing more can happen up to the limit, in at most
`fuel` steps. -/
def drive (host : Host σ) (goal : Session σ → Bool) (limit : Option Rat) :
    Nat → Session σ → Session σ
  | 0, s => s
  | fuel + 1, s =>
    if goal s then s
    else
      match s.ready with
      | _ :: _ => drive host goal limit fuel (s.step host)
      | [] =>
        match s.nextInstant? with
        | some instant =>
          if within limit instant then drive host goal limit fuel (s.wake instant) else s
        | none => s

/-- Runs everything that can run without time passing. -/
def settle (host : Host σ) (fuel : Nat) (s : Session σ) : Session σ :=
  drive host (fun _ => false) (some s.clock) fuel s

-- ════════════════════════════════════════════════════════════════════════════
-- Commands
-- ════════════════════════════════════════════════════════════════════════════

/-- Runs a script as a command and waits for its result. -/
def perform (host : Host σ) (fuel : Nat) (script : Script Value) (s : Session σ) :
    Session σ × Except Fault Value :=
  let s := drive host (fun s => s.result.isSome) none fuel
    (({ s with result := none } : Session σ).first (.run .command script []))
  (s, s.result.getD (.error .hostBreakdown))

/-- Starts the handler of an event without waiting for it. -/
def spawn (key : Text) (s : Session σ) : Session σ :=
  { s with
    ready := s.ready ++ [.run (.spawned s.spawned.size) (Script.fireValue key) []]
    spawned := s.spawned.push none }

/-- Waits for all handlers that were spawned since the last time, and gives their results in the
order in which they were spawned. -/
def join (host : Host σ) (fuel : Nat) (s : Session σ) :
    Session σ × List (Except Fault Value) :=
  let s := drive host (fun s => s.spawned.all Option.isSome) none fuel s
  ({ s with spawned := #[] }, s.spawned.toList.map fun r => r.getD (.error .hostBreakdown))

/-- Waits until no tick is under way. -/
def waitIdle (host : Host σ) (fuel : Nat) (s : Session σ) : Session σ :=
  drive host (fun s => s.ticks.isEmpty) none fuel s

/-- Lets time pass. -/
def advance (host : Host σ) (fuel : Nat) (seconds : Rat) (s : Session σ) : Session σ :=
  let instant := s.clock + seconds
  let s := drive host (fun _ => false) (some instant) fuel s
  { s with clock := if s.clock < instant then instant else s.clock }

/-- Stops the session: no statement runs any more, and tick loops and ticks are cancelled. -/
def stop (s : Session σ) : Session σ :=
  { s with
    world := s.world.stopTimers
    ready := s.ready.filter fun job => !job.ofTimer
    sleeping := s.sleeping.filter fun e => !e.2.ofTimer
    ticks := [] }

/-- Loads a module, starts the session if the module parsed, and stops it. -/
def playModule (host : Host σ) (fuel : Nat) (name source : Text) (s : Session σ) :
    Session σ × Except Fault Unit :=
  match s.perform host fuel (Script.asValue .bool (Script.loadProgram name source)) with
  | (s, .error fault) => (s, .error fault)
  | (s, .ok loaded) =>
    if loaded.isTruthy then
      match s.perform host fuel (Script.asValue (fun _ => .nothing) Script.start) with
      | (s, .error fault) => (s, .error fault)
      | (s, .ok _) => (s.stop, .ok ())
    else (s.stop, .ok ())

end Session

end FormBasic
