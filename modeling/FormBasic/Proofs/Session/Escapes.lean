import FormBasic.Proofs.Session.Machine

/-!
# What escapes an event

An event runs a handler and reports a script error under the handler's name; its result then says
that the handler did not run to its end. Faults of other sorts are not reported: they reach whoever
raised the event. This module shows which faults these are. With a host whose callbacks never fail
they are the refusals of value functions that are used without a guard, keys that no dictionary can
hold, members that do not exist, and a database engine that breaks down. Nothing else escapes.

## Main definitions

* `Request.Breaks` - faults of the database engine
* `Surroundings.Reliable`, `Host.Reliable` - surroundings and hosts in which nothing else fails
* `Conduct.escaping` - how statements may end when they are given no fault
* `Script.IsEvent` - the things done from outside that report script errors

## Main statements

* `Script.ends_or_escapes` - an event ends with its result, or with a fault that has no guard
-/

namespace FormBasic

/-- Whether a request is made to the database engine. -/
def Request.isForEngine : Request → Bool
  | .connect _ | .execute _ _ _ | .commit _ | .disconnect _ => true
  | _ => false

/-- Whether a request may be failed with a fault although no callback of the host is to blame: the
database engine breaks down. -/
def Request.Breaks (request : Request) (fault : Fault) : Prop :=
  request.isForEngine = true ∧ fault = .engineFailure

theorem Request.Breaks.isUnguarded {request : Request} {fault : Fault} (h : request.Breaks fault) :
    fault.isUnguarded = true := by
  obtain ⟨-, rfl⟩ := h
  rfl

/-- Whether no callback of the host is ever failed. -/
def Surroundings.Reliable {σ : Type} (env : Surroundings σ) : Prop :=
  ∀ {request w state w' state' reply}, env.Replies request w state w' state' reply →
    FailsOnly request.Breaks reply

/-- Whether a host replies to every request at once and none of its callbacks ever fails. -/
def Host.Reliable {σ : Type} (host : Host σ) : Prop :=
  ∀ request state, ∃ state' signals reply,
    host.receive request state = .answered state' signals reply ∧ FailsOnly request.Breaks reply

theorem Host.Reliable.answers {σ : Type} {host : Host σ} (h : host.Reliable) : host.Answers := by
  intro request state
  obtain ⟨state', signals, reply, hreceive, -⟩ := h request state
  exact ⟨state', signals, reply, hreceive⟩

theorem Host.Reliable.surroundings {σ : Type} {host : Host σ} (h : host.Reliable) :
    (host.surroundings h.answers).Reliable := by
  rintro request w state w' state' reply ⟨signals, hreceive, -⟩
  obtain ⟨state'', signals', reply', hreceive', hreply⟩ := h request state
  rw [hreceive] at hreceive'
  cases hreceive'
  exact hreply

/-- How statements may end when they are given no fault: with a script error or with a fault that
has no guard. -/
def Conduct.escaping : Conduct where
  faults
    | .script _ => True
    | fault => fault.isUnguarded = true
  arises {fault} h := by
    cases fault with
    | script error => trivial
    | _ => exact h

/-- A fault that has no guard is one with which statements may end. -/
theorem Conduct.escaping_of_isUnguarded {fault : Fault} (h : fault.isUnguarded = true) :
    escaping.faults fault := by
  cases fault with
  | script error => trivial
  | _ => exact h

theorem Conduct.lenient_escaping : escaping.Lenient := ⟨fun h => h, fun _ => trivial⟩

/-- Whether a script is done from outside and reports script errors: it runs the handler of an
event, or statements given as text. -/
inductive Script.IsEvent : Script Bool → Prop where
  | fire (key : Text) : IsEvent (Script.fire key)
  | execute (name source : Text) : IsEvent (Script.executeSource name source)

section Escapes

variable {σ : Type} {env : Surroundings σ} {stack : List Text}

/-- Statements end with script errors and faults that have no guard, whatever handlers they call. -/
theorem Outcome.Settles.escaping (henv : env.Reliable) {α : Type} {o : Outcome α} {start w : World}
    {state state' : σ} {result : Except Fault α} (h : Settles env stack o state w state' result)
    (ho : o.Orderly .escaping start) : FailsOnly Conduct.escaping.faults result :=
  h.failsOnly Conduct.lenient_escaping (fun _ => trivial)
    (fun hreply => (henv hreply).mono fun _ h => Conduct.escaping_of_isUnguarded h.isUnguarded) ho

/-- A report is always replied to, and the script goes on. -/
theorem Outcome.Settles.of_report (henv : env.Reliable) {α : Type} {message : Text} {line : Line}
    {resume : World → Except Fault (Request.errorReport message line).Reply → Outcome α} {a : α}
    (hresume : ∀ w reply, resume w (.ok reply) = .done w a) {w w' : World} {state state' : σ}
    {result : Except Fault α}
    (h : Settles env stack (.asking w (.errorReport message line) resume) state w' state' result) :
    result = .ok a := by
  cases h with
  | asking hreply hrest =>
    cases henv hreply with
    | ok _ =>
      rw [hresume] at hrest
      cases hrest
      rfl
    | error h => cases h.1

/-- What is reported does not escape. -/
theorem Outcome.Settles.of_reporting (henv : env.Reliable) {m : Script Bool}
    (hm : m.Orderly .escaping) {name : Text} {w w' : World} {state state' : σ}
    {result : Except Fault Bool}
    (h : Settles env stack (Script.reporting name m w) state w' state' result) :
    FailsOnly (fun fault => fault.isUnguarded = true) result := by
  unfold Script.reporting at h
  rw [Script.attempt_bind] at h
  obtain ⟨w₁, state₁, result₁, hfirst, hsecond⟩ := h.of_andThen
  cases hfirst.escaping henv (hm w) with
  | ok ran =>
    cases hsecond
    exact .ok ran
  | @error fault hfault =>
    cases fault with
    | script error =>
      have hresult : result = .ok false :=
        Outcome.Settles.of_report henv (fun _ _ => rfl) hsecond
      rw [hresult]
      exact .ok false
    | _ =>
      cases hsecond
      exact .error hfault

theorem Script.IsEvent.tidy {m : Script Bool} (hm : m.IsEvent) : m.Tidy := by
  have hk := Conduct.lenient_any
  cases hm with
  | fire key => exact orderly_fire hk key
  | execute name source => exact orderly_executeSource hk (fun _ => trivial) name source

/-- What escapes an event has no guard. -/
theorem Script.IsEvent.failsOnly (henv : env.Reliable) {m : Script Bool} (hm : m.IsEvent)
    {w w' : World} {state state' : σ} {result : Except Fault Bool}
    (h : Outcome.Settles env stack (m w) state w' state' result) :
    FailsOnly (fun fault => fault.isUnguarded = true) result := by
  cases hm with
  | fire key =>
    change Outcome.Settles env stack
      ((if w.stopped || !w.handlers.contains key then return false
        else reporting key (call key) : Script Bool) w) state w' state' result at h
    split at h
    · cases h
      exact .ok false
    · exact h.of_reporting henv (orderly_call key)
  | execute name source =>
    unfold executeSource at h
    cases hparse : parseBody source with
    | ok body =>
      rw [hparse] at h
      have hbody : (do block body; return true : Script Bool).Orderly .escaping :=
        (orderly_block Conduct.lenient_escaping body fun _ _ => trivial).bind fun _ =>
          orderly_pure true
      exact Outcome.Settles.of_reporting henv hbody h
    | error failure =>
      rw [hparse] at h
      cases failure with
      | malformed error =>
        -- the parse error is noted in the world and then reported
        have hresult : result = .ok false := Outcome.Settles.of_report henv (fun _ _ => rfl) h
        rw [hresult]
        exact .ok false
      | refused refusal =>
        cases h
        exact .error (Fault.arises_of_isUnreadable (isUnreadable_of_parseBody hparse))

end Escapes

/-- An event always comes to an end: with its result, or with a fault that no guard turns into a
report. The statements of a script can end with script errors too, but those never leave the event.
All this holds whatever happens while scripts wait, as long as no callback of the host fails; the
database engine may break down at any request. With a host that replies at once the turn of the event
gives that end. -/
theorem Script.ends_or_escapes {σ : Type} (w : World) (state : σ) :
    (∀ (env : Surroundings σ), env.Reliable →
      (∀ m : Script Bool, m.IsEvent →
        (∃ w' state' result, Outcome.Settles env [] (m w) state w' state' result) ∧
        ∀ w' state' result, Outcome.Settles env [] (m w) state w' state' result →
          FailsOnly (fun fault => fault.isUnguarded = true) result) ∧
      ∀ stack body w' state' result,
        Outcome.Settles env stack (block body w) state w' state' result →
          FailsOnly (fun fault => fault.isUnguarded = true ∨ ∃ error, fault = .script error)
            result) ∧
    ∀ host : Host σ, host.Reliable → ∀ m : Script Bool, m.IsEvent →
      ∃ w' state' result, Turn.run host (asValue .bool m) w state =
          .finished w' state' (result.map .bool) ∧
        FailsOnly (fun fault => fault.isUnguarded = true) result := by
  refine ⟨fun env henv => ⟨fun m hm => ⟨?_, fun _ _ _ => hm.failsOnly henv⟩, ?_⟩, ?_⟩
  · exact Turn.exists_settles env [] (hm.tidy w) rfl state
  · intro stack body w' state' result h
    have hbody := orderly_block Conduct.lenient_escaping body (fun _ _ => trivial) w
    refine (h.escaping henv hbody).mono fun fault hfault => ?_
    cases fault with
    | script error => exact .inr ⟨error, rfl⟩
    | _ => exact .inl hfault
  · intro host hhost m hm
    obtain ⟨w', state', result, h⟩ :=
      Turn.exists_settles (host.surroundings hhost.answers) [] (hm.tidy w) rfl state
    exact ⟨w', state', result, Turn.run_of_settles h hm.tidy .bool, hm.failsOnly hhost.surroundings h⟩

/-- The callbacks of the host that has nothing to say never fail. -/
theorem Rehearsal.reliable_silentHost : Rehearsal.silentHost.Reliable :=
  fun _ _ => ⟨_, _, _, rfl, .ok _⟩

/-- A handler that cuts a text by the empty separator. -/
def emptyCut : World where
  handlers := .ofList
    [("Main", [.assign (.ident "x") (.call (.member (.string "a") "Split") [.string ""])
      (.ofNat 1)])]

/-- The refusal to cut a text by the empty separator is one of the faults that escape. -/
theorem Script.ends_or_escapes_emptyCut :
    (∃ w' state' result, Outcome.Settles
        (Rehearsal.silentHost.surroundings Rehearsal.reliable_silentHost.answers) []
        (fire "Main" emptyCut) unprepared w' state' result) ∧
      ∃ w' state', Turn.run Rehearsal.silentHost (asValue .bool (fire "Main")) emptyCut unprepared =
          .finished w' state' (.error (.refused .emptySeparator)) ∧
        (Fault.refused .emptySeparator).isUnguarded = true := by
  have h := Script.ends_or_escapes emptyCut unprepared
  refine ⟨((h.1 _ Rehearsal.reliable_silentHost.surroundings).1 _ (.fire "Main")).1, ?_⟩
  obtain ⟨w', state', result, hrun, hresult⟩ :=
    h.2 _ Rehearsal.reliable_silentHost _ (.fire "Main")
  have hcut : ∃ w'' state'', Turn.run Rehearsal.silentHost (asValue .bool (fire "Main")) emptyCut
      unprepared = .finished w'' state'' (.error (.refused .emptySeparator)) := ⟨_, _, rfl⟩
  obtain ⟨w'', state'', hcut⟩ := hcut
  refine ⟨w'', state'', hcut, ?_⟩
  rw [hcut] at hrun
  cases hresult with
  | ok ran => cases hrun
  | error hfault =>
    cases hrun
    exact hfault

end FormBasic
