import FormBasic.Proofs.Session.Law
import FormBasic.Session.Rehearsal

/-!
# Timers keep in step

A tick loop is registered for a name exactly if the name calls for one: its component is a timer, it
is enabled, its interval is positive and it has a handler. The loops are brought in line when the
session starts, after the first handler has run, and again whenever the host has taken note of a
written property that matters. In between a timer may be out of step, but then some script still waits
for the host to take note.

## Main definitions

* `World.Registered`, `World.CallsForLoop` - names that have a tick loop and those that are to have one
* `World.InStep` - a timer whose loop is registered exactly if it is to run
* `Request.Drives` - notifications after which a timer is brought in line
* `Host.Accepts` - hosts that take note of written properties without fail
* `Law.timers` - what is known of timers before, during and after the start

## Main statements

* `World.inStep_of_synchronize`, `World.InStep.synchronize` - what bringing a component in line does
* `World.Timely.served` - a notification that is dealt with puts its timer in step
* `Script.reaches_begin` - all timers are in step when the start has ended
* `Session.registered_iff` - after the start names have a loop exactly if they call for one

## Design notes

While a session is started its flag is set and its timers may be out of step, whoever runs beside the
first handler. So the start has a law of its own, and the law of a running session holds from the
moment at which the start has ended.
-/

namespace FormBasic

/-- Whether a request tells of a written property after which a timer is brought in line. -/
def Request.Drives (name : Text) : Request → Prop
  | .propertyChanged component property _ => component = name ∧ World.drivesTimer property = true
  | _ => False

theorem Component.stored?_write (c : Component) (property : Text) (value : Value)
    (spelling : Text) :
    Component.stored? { c with properties := c.properties.set (.text property) value } spelling =
      if property = spelling then some value else c.stored? spelling := by
  simp [Component.stored?, Entries.get?_set]

-- ════════════════════════════════════════════════════════════════════════════
-- Timers of a world
-- ════════════════════════════════════════════════════════════════════════════

namespace World

/-- Whether a tick loop is registered for a name. -/
def Registered (w : World) (name : Text) : Prop := w.timers.loops.contains (.text name) = true

/-- Whether a timer has its loop registered exactly if it is to run. -/
def InStep (w : World) (name : Text) : Prop :=
  ∀ c wanted, w.componentNamed? name = some c → isTimer c = .ok true →
    w.wantsLoop (.text name) c = .ok wanted → (w.Registered name ↔ wanted = true)

/-- Whether a name calls for a tick loop: its component is a timer, it is enabled, its interval in
seconds is positive and it has a handler. -/
def CallsForLoop (w : World) (name : Text) : Prop :=
  ∃ c seconds, w.componentNamed? name = some c ∧ isTimer c = .ok true ∧
    ((c.stored? "enabled").getD .nothing).toBool = true ∧
    interval c = .ok seconds ∧ (Number.int 0).less seconds = true ∧
    w.handlers.contains (name ++ "_Tick") = true

/-- Whether only timers have loops. -/
def LoopsOfTimers (w : World) : Prop :=
  ∀ name, w.Registered name → ∃ c, w.componentNamed? name = some c ∧ isTimer c = .ok true

variable {names : Text → Prop} {w w' : World} {name : Text}

theorem registered_registerLoop (key : Key) :
    (w.registerLoop key).Registered name ↔ key = .text name ∨ w.Registered name := by
  rw [Registered, registerLoop, Entries.contains_set, Bool.or_eq_true]
  exact or_congr_left ⟨Key.eq_text_of_equal, fun h => by rw [h]; simp⟩

theorem registered_cancelLoop (key : Key) :
    (w.cancelLoop key).Registered name ↔ key ≠ .text name ∧ w.Registered name := by
  rw [Registered, cancelLoop, Entries.contains_erase, Bool.and_eq_true, Bool.not_eq_true']
  refine and_congr_left fun _ => ⟨?_, fun h => ?_⟩
  · rintro h rfl
    simp at h
  · exact Bool.eq_false_iff.2 fun hkey => h (Key.eq_text_of_equal hkey)

/-- Whether a timer is to run only depends on the flag, the handlers and two of its properties. -/
theorem wantsLoop_congr {c c' : Component} (hstopped : w'.stopped = w.stopped)
    (hhandlers : w'.handlers = w.handlers) (henabled : c'.stored? "enabled" = c.stored? "enabled")
    (hinterval : c'.stored? "interval" = c.stored? "interval") (key : Key) :
    w'.wantsLoop key c' = w.wantsLoop key c := by
  simp only [wantsLoop, interval, milliseconds, hstopped, hhandlers, henabled, hinterval]

/-- Whether a timer is to run while the session is not stopped. -/
theorem wantsLoop_of_interval (hstopped : w.stopped = false) {c : Component} {seconds : Number}
    (hseconds : interval c = .ok seconds) (key : Key) :
    w.wantsLoop key c = .ok (((c.stored? "enabled").getD .nothing).toBool &&
      ((Number.int 0).less seconds && w.handlers.contains (tickKey key))) := by
  rw [wantsLoop, hstopped, hseconds]
  cases ((c.stored? "enabled").getD .nothing).toBool <;> rfl

theorem InStep.of_eq (h : w.InStep name)
    (hcomponent : w'.componentNamed? name = w.componentNamed? name)
    (hhandlers : w'.handlers = w.handlers) (hstopped : w'.stopped = w.stopped)
    (hloops : w'.Registered name ↔ w.Registered name) : w'.InStep name := by
  intro c wanted hc ht hw
  rw [hcomponent] at hc
  rw [wantsLoop_congr hstopped hhandlers rfl rfl] at hw
  exact hloops.trans (h c wanted hc ht hw)

/-- A timer is in step once it has been brought in line. -/
theorem inStep_of_synchronize (h : w.synchronize (.text name) = .ok w') : w'.InStep name := by
  intro c' wanted hc' ht' hw'
  obtain ⟨rfl, hsame⟩ | ⟨c, hc, -, ⟨hw, -, rfl⟩ | ⟨hw, -, rfl⟩⟩ := synchronize_cases h
  · obtain rfl := Except.ok.inj (hw'.symm.trans (hsame c' hc' ht'))
    rfl
  · obtain rfl := Option.some.inj (hc.symm.trans hc')
    obtain rfl : wanted = true := Except.ok.inj (hw'.symm.trans hw)
    simp [registered_registerLoop]
  · obtain rfl := Option.some.inj (hc.symm.trans hc')
    obtain rfl : wanted = false := Except.ok.inj (hw'.symm.trans hw)
    simp [registered_cancelLoop]

/-- Where a timer cannot be brought in line, its properties do not say whether it is to run. -/
theorem inStep_of_synchronize_error {fault : Fault}
    (h : w.synchronize (.text name) = .error fault) : w.InStep name := by
  intro c wanted hc ht hw
  have hsome : w.components.get? (.text name) = some c := hc
  simp only [synchronize, hsome, ht, hw, bind, Except.bind, pure, Except.pure, if_true] at h
  split at h
  · cases h
  · split at h <;> cases h

/-- Bringing one timer in line leaves the others in step. -/
theorem InStep.synchronize (h : w.InStep name) {key : Key} (hsync : w.synchronize key = .ok w') :
    w'.InStep name := by
  by_cases hkey : key = .text name
  · subst hkey
    exact inStep_of_synchronize hsync
  · obtain ⟨rfl, -⟩ | ⟨c, -, -, ⟨-, -, rfl⟩ | ⟨-, -, rfl⟩⟩ := synchronize_cases hsync
    · exact h
    · exact h.of_eq rfl rfl rfl (by simp [registered_registerLoop, hkey])
    · exact h.of_eq rfl rfl rfl (by simp [registered_cancelLoop, hkey])

theorem flags_of_synchronize {key : Key} (h : w.synchronize key = .ok w') :
    w'.stopped = w.stopped ∧ w'.timers.started = w.timers.started := by
  obtain ⟨rfl, -⟩ | ⟨c, -, -, ⟨-, -, rfl⟩ | ⟨-, -, rfl⟩⟩ := synchronize_cases h <;> exact ⟨rfl, rfl⟩

theorem LoopsOfTimers.synchronize (h : w.LoopsOfTimers) {key : Key}
    (hsync : w.synchronize key = .ok w') : w'.LoopsOfTimers := by
  intro name hname
  obtain ⟨rfl, -⟩ | ⟨c, hc, ht, ⟨-, -, rfl⟩ | ⟨-, -, rfl⟩⟩ := synchronize_cases hsync
  · exact h name hname
  · obtain rfl | hname := (registered_registerLoop key).1 hname
    · exact ⟨c, hc, ht⟩
    · exact h name hname
  · exact h name ((registered_cancelLoop key).1 hname).2

/-- Between two waits no timer gets out of step, unless the session is stopped. -/
theorem InStep.change (h : w.InStep name) (hchange : Change names w w')
    (hstopped : w'.stopped = false) : w'.InStep name := by
  cases hchange with
  | timer hsync => exact h.synchronize hsync
  | stop => cases hstopped
  | _ => exact h.of_eq rfl rfl rfl Iff.rfl

theorem LoopsOfTimers.change (h : w.LoopsOfTimers) (hchange : Change names w w') :
    w'.LoopsOfTimers := by
  cases hchange with
  | timer hsync => exact h.synchronize hsync
  | _ => exact h

theorem Change.stays_stopped (h : Change names w w') (hw : w.stopped = true) : w'.stopped = true := by
  cases h with
  | timer hsync => rw [(flags_of_synchronize hsync).1, hw]
  | stop => rfl
  | _ => exact hw

theorem Change.stays_started (h : Change names w w') (hw : w.timers.started = true) :
    w'.timers.started = true := by
  cases h with
  | timer hsync => rw [(flags_of_synchronize hsync).2, hw]
  | started => rfl
  | _ => exact hw

/-- A written property leaves every component but its own as it is. -/
theorem componentNamed?_announced (w : World) (component property : Text) (value : Value)
    (name : Text) :
    (w.announced (.propertyChanged component property value)).componentNamed? name =
      if component = name then
        (w.componentNamed? name).map fun c =>
          { c with properties := c.properties.set (.text property) value }
      else w.componentNamed? name := by
  simp only [announced, Request.notifications, replay, List.foldl, Notification.apply,
    componentNamed?]
  split
  · next c hc =>
    rw [Entries.get?_set]
    by_cases hname : component = name
    · subst hname
      simp [hc]
    · simp [hname]
  · next hnone =>
    by_cases hname : component = name
    · subst hname
      simp [hnone]
    · simp [hname]

/-- A timer only gets out of step by a notification after which it is brought in line. -/
theorem InStep.announced (h : w.InStep name) {request : Request} (hdrives : ¬ request.Drives name) :
    (w.announced request).InStep name := by
  cases request with
  | propertyChanged component property value =>
    intro c' wanted hc' ht hw
    rw [componentNamed?_announced] at hc'
    split at hc'
    · next hname =>
      obtain ⟨c, hc, rfl⟩ := Option.map_eq_some_iff.1 hc'
      have hproperty : drivesTimer property = false :=
        Bool.eq_false_iff.2 fun hp => hdrives ⟨hname, hp⟩
      simp only [drivesTimer, Bool.or_eq_false_iff, beq_eq_false_iff_ne] at hproperty
      refine h c wanted hc ht ((wantsLoop_congr rfl rfl ?_ ?_ _).symm.trans hw)
      · rw [Component.stored?_write, if_neg hproperty.1]
      · rw [Component.stored?_write, if_neg hproperty.2]
    · exact h c' wanted hc' ht hw
  | _ => exact h.of_eq rfl rfl rfl Iff.rfl

theorem LoopsOfTimers.announced (h : w.LoopsOfTimers) (request : Request) :
    (w.announced request).LoopsOfTimers := by
  intro name hname
  obtain ⟨c, hc, ht⟩ := h name hname
  cases request with
  | propertyChanged component property value =>
    rw [componentNamed?_announced, hc]
    split
    · exact ⟨_, rfl, ht⟩
    · exact ⟨c, rfl, ht⟩
  | _ => exact ⟨c, hc, ht⟩

/-- The timer that a notification was about is in step once the reply has been dealt with. -/
theorem inStep_served (hstarted : w.timers.started = true) {request : Request}
    (hdrives : request.Drives name) (reply : request.Reply) :
    (w.served request (.ok reply)).InStep name := by
  cases request with
  | propertyChanged component property value =>
    obtain ⟨rfl, hproperty⟩ := hdrives
    simp only [served, hstarted, hproperty, Bool.and_self, if_true]
    split
    · next w' h => exact inStep_of_synchronize h
    · next fault h => exact inStep_of_synchronize_error h
  | _ => exact hdrives.elim

end World

-- ════════════════════════════════════════════════════════════════════════════
-- What is known of timers
-- ════════════════════════════════════════════════════════════════════════════

/-- Whether a request is replied to without a fault, now or later. -/
def Reception.Accepts {σ : Type} {request : Request} : Reception σ request → Prop
  | .answered _ _ reply => ∃ a, reply = .ok a
  | .held _ _ _ release => ∀ event state, (release event state).Accepts

/-- Whether a host takes note of written properties without fail. -/
def Host.Accepts {σ : Type} (host : Host σ) : Prop :=
  ∀ request state, request.notifications ≠ [] → (host.receive request state).Accepts

/-- How far the start of a session has come. -/
inductive Phase where
  | fresh | starting | running
  deriving DecidableEq

/-- What is known of timers while some requests wait. -/
structure World.Timely (phase : Phase) (waiting : Request → Prop) (w : World) : Prop where
  loops : w.LoopsOfTimers
  started : phase ≠ .fresh → w.timers.started = true
  inStep : phase = .running → w.stopped = false →
    ∀ name, (∀ r, waiting r → ¬ r.Drives name) → w.InStep name

section Timely

variable {phase : Phase} {waiting : Request → Prop} {w w' : World}

theorem World.Timely.change (h : w.Timely phase waiting)
    (hchange : World.Change (fun _ => True) w w') : w'.Timely phase waiting where
  loops := h.loops.change hchange
  started hphase := hchange.stays_started (h.started hphase)
  inStep hphase hstopped name hname := by
    refine (h.inStep hphase ?_ name hname).change hchange hstopped
    exact Bool.eq_false_iff.2 fun hw => by rw [hchange.stays_stopped hw] at hstopped; cases hstopped

theorem World.Timely.changes (h : w.Timely phase waiting)
    (hchanges : World.Changes (fun _ => True) w w') : w'.Timely phase waiting := by
  induction hchanges with
  | refl => exact h
  | tail _ hchange ih => exact ih.change hchange

theorem World.Timely.signal (h : w.Timely phase waiting) (signal : Signal) :
    (w.signal signal).Timely phase waiting := by
  cases signal with
  | stop => exact h.change (.stop w)
  | _ => exact ⟨h.loops, h.started, fun hphase hstopped name hname =>
      (h.inStep hphase hstopped name hname).of_eq rfl rfl rfl Iff.rfl⟩

theorem World.Timely.signals (h : w.Timely phase waiting) (sent : List Signal) :
    (w.signals sent).Timely phase waiting := by
  induction sent generalizing w with
  | nil => exact h
  | cons signal sent ih => exact ih (h.signal signal)

/-- A written property may put a timer out of step, but then its notification waits. -/
theorem World.Timely.announced (h : w.Timely phase waiting) (request : Request) :
    (w.announced request).Timely phase (also request waiting) where
  loops := h.loops.announced request
  started := h.started
  inStep hphase hstopped name hname :=
    (h.inStep hphase hstopped name fun r hr => hname r (.inr hr)).announced
      (hname request (.inl rfl))

/-- Once the reply has been dealt with, the notification does not have to wait any more. -/
theorem World.Timely.served {request : Request} (h : w.Timely phase (also request waiting))
    {reply : Except Fault request.Reply}
    (hreply : request.notifications ≠ [] → ∃ a, reply = .ok a) :
    (w.served request reply).Timely phase waiting := by
  have hserved := h.changes (w.changes_served request reply)
  refine ⟨hserved.loops, hserved.started, fun hphase hstopped name hname => ?_⟩
  by_cases hdrives : request.Drives name
  · have hnotifications : request.notifications ≠ [] := by
      cases request with
      | propertyChanged => exact List.cons_ne_nil _ _
      | _ => exact hdrives.elim
    obtain ⟨a, rfl⟩ := hreply hnotifications
    exact World.inStep_served (h.started (by rw [hphase]; decide)) hdrives a
  · refine hserved.inStep hphase hstopped name ?_
    rintro r (rfl | hr)
    · exact hdrives
    · exact hname r hr

/-- A timer about which nothing waits has a loop exactly if its name calls for one. -/
theorem World.Timely.registered_iff_callsForLoop (h : w.Timely .running waiting)
    (hstopped : w.stopped = false) {name : Text} (hwaiting : ∀ r, waiting r → ¬ r.Drives name)
    (hinterval : ∀ c, w.componentNamed? name = some c → ∃ seconds, World.interval c = .ok seconds) :
    w.Registered name ↔ w.CallsForLoop name := by
  have hstep : ∀ {c seconds}, w.componentNamed? name = some c → World.isTimer c = .ok true →
      World.interval c = .ok seconds → (w.Registered name ↔
        ((c.stored? "enabled").getD .nothing).toBool = true ∧
          (Number.int 0).less seconds = true ∧ w.handlers.contains (name ++ "_Tick") = true) := by
    intro c seconds hc ht hseconds
    have hwants := h.inStep rfl hstopped name hwaiting c _ hc ht
      (World.wantsLoop_of_interval hstopped hseconds _)
    rwa [Bool.and_eq_true, Bool.and_eq_true] at hwants
  constructor
  · intro hregistered
    obtain ⟨c, hc, ht⟩ := h.loops name hregistered
    obtain ⟨seconds, hseconds⟩ := hinterval c hc
    obtain ⟨henabled, hpositive, htick⟩ := (hstep hc ht hseconds).1 hregistered
    exact ⟨c, seconds, hc, ht, henabled, hseconds, hpositive, htick⟩
  · rintro ⟨c, seconds, hc, ht, henabled, hseconds, hpositive, htick⟩
    exact (hstep hc ht hseconds).2 ⟨henabled, hpositive, htick⟩

/-- A reception by a host that takes note of written properties. -/
theorem Reception.Accepts.leaves {σ : Type} {request : Request} {r : Reception σ request}
    (hr : request.notifications ≠ [] → r.Accepts) (hw : w.Timely phase (also request waiting)) :
    r.Leaves (fun waiting w _ => w.Timely phase waiting)
      (fun request release => request.notifications ≠ [] →
        ∀ event state, (release event state).Accepts) waiting w := by
  cases r with
  | answered state signals reply => exact (hw.signals signals).served hr
  | held state signals hold release => exact ⟨hw.signals signals, hr⟩

end Timely

/-- What is known of timers is kept under a host that takes note of written properties. -/
def Law.timers {σ : Type} {host : Host σ} (hhost : host.Accepts) (phase : Phase) : Law host where
  Holds waiting w _ := w.Timely phase waiting
  Fair request release := request.notifications ≠ [] → ∀ event state, (release event state).Accepts
  mono hwaiting h :=
    ⟨h.loops, h.started, fun hphase hstopped name hname =>
      h.inStep hphase hstopped name fun r hr => hname r (hwaiting r hr)⟩
  change hchange h := h.change hchange
  signal signal h := h.signal signal
  collect h :=
    ⟨h.loops, h.started, fun hphase hstopped name hname =>
      (h.inStep hphase hstopped name hname).of_eq rfl rfl rfl Iff.rfl⟩
  stop h := ⟨fun _ hname => absurd hname Bool.false_ne_true, h.started,
    fun _ hstopped => absurd hstopped.symm Bool.false_ne_true⟩
  receive request h := Reception.Accepts.leaves (hhost request _) (h.announced request)
  release event hfair h := Reception.Accepts.leaves (fun hrequest => hfair hrequest event _) h

/-- Before the start it does not matter what waits. -/
theorem Law.forgiving_timers {σ : Type} {host : Host σ} (hhost : host.Accepts) :
    (Law.timers hhost .fresh).Forgiving :=
  fun h => ⟨h.loops, h.started, fun hphase => by cases hphase⟩

-- ════════════════════════════════════════════════════════════════════════════
-- The start
-- ════════════════════════════════════════════════════════════════════════════

namespace Script

/-- Bringing components in line one after the other puts those in step that are among them, and
leaves the others in step. -/
theorem reaches_forM_synchronize {keys : List Key} {w : World}
    (h : ∀ name, w.InStep name ∨ Key.text name ∈ keys) :
    (keys.forM synchronize w).Reaches fun w => ∀ name, w.InStep name := by
  induction keys generalizing w with
  | nil => exact fun name => (h name).resolve_right List.not_mem_nil
  | cons key keys ih =>
    change ((synchronize key w).andThen _).Reaches _
    rw [synchronize_apply]
    cases hsync : w.synchronize key with
    | error fault => exact trivial
    | ok w' =>
      refine ih fun name => ?_
      obtain hname | hname := h name
      · exact .inl (hname.synchronize hsync)
      · obtain rfl | hname := List.mem_cons.1 hname
        · exact .inl (World.inStep_of_synchronize hsync)
        · exact .inr hname

/-- All timers are in step when the start has ended. -/
theorem reaches_begin (w : World) : (begin w).Reaches fun w => ∀ name, w.InStep name := by
  have hlast : ∀ w : World,
      (w.components.keys.forM synchronize w).Reaches fun w => ∀ name, w.InStep name := by
    refine fun w => reaches_forM_synchronize fun name => ?_
    cases hc : w.componentNamed? name with
    | none => exact .inl fun c wanted hsome => by rw [hc] at hsome; cases hsome
    | some c => exact .inr (Entries.mem_keys_of_get? hc)
  refine reaches_bind world (fun w' w => ?_) w
  cases firstHandler? w' with
  | some key => exact reaches_bind (discard (fire key)) (fun _ w => hlast w) w
  | none => exact hlast w

theorem asValue_of_done {α : Type} {script : Script α} {w w' : World} {a : α}
    (h : script w = .done w' a) (f : α → Value) : asValue f script w = .done w' (f a) := by
  change (script w).andThen _ = _
  rw [h]
  rfl

/-- The start does nothing where there is no first handler and all components are in line. -/
theorem begin_of_inLine {w : World} (hfirst : firstHandler? w = none)
    (h : ∀ key ∈ w.components.keys, w.synchronize key = .ok w) : begin w = .done w () := by
  have hkeys : ∀ keys : List Key, (∀ key ∈ keys, w.synchronize key = .ok w) →
      keys.forM synchronize w = .done w () := by
    intro keys hkeys
    induction keys with
    | nil => rfl
    | cons key keys ih =>
      change (synchronize key w).andThen _ = _
      rw [synchronize_apply, hkeys key List.mem_cons_self]
      exact ih fun k hk => hkeys k (List.mem_cons_of_mem _ hk)
  refine Eq.trans ?_ (hkeys _ h)
  simp only [begin, bind, chain, Script.andThen, world, Outcome.andThen, hfirst]

end Script

namespace Session

variable {σ : Type} {host : Host σ} {s : Session σ}

/-- A session whose timers are in step has started. -/
theorem kept_running {hhost : host.Accepts}
    (h : s.Kept (Law.timers hhost .starting) fun w => ∀ name, w.InStep name)
    (hs : ∀ name, s.world.InStep name) : s.Kept (Law.timers hhost .running) fun _ => True := by
  refine ⟨⟨h.world.loops, fun _ => h.world.started (by decide), fun _ _ name _ => hs name⟩,
    fun job hjob => ?_⟩
  have hfair := (h.jobs job hjob).of_fair (Law.timers hhost .running) fun _ _ h => h
  exact hfair.mono fun _ _ => trivial

theorem collect_inStep (w : World) (h : ∀ name, w.InStep name) (name : Text) :
    World.InStep { w with timers := { w.timers with created := [] } } name :=
  (h name).of_eq rfl rfl rfl Iff.rfl

/-- The session after the first turn of its start. -/
def start (host : Host σ) (s : Session σ) : Session σ :=
  work host { s with result := none } (.run .command Execution.start.script [])

/-- Waits for the result of the command. -/
def await (host : Host σ) (fuel : Nat) (s : Session σ) : Session σ :=
  drive host (fun s => s.result.isSome) none fuel s

/-- To perform the start is to wait for it right after its first turn. -/
theorem perform_start (s : Session σ) (fuel : Nat) :
    (s.perform host (fuel + 1) Execution.start.script).1 = (s.start host).await host fuel := rfl

/-- The session, marked as started. -/
def marked (s : Session σ) : Session σ :=
  { s with
    world := { s.world with timers := { s.world.timers with started := true } }
    result := none }

/-- The start marks the session as started before anything else. -/
theorem start_eq (host : Host σ) (s : Session σ) :
    s.start host = s.marked.work host
      (.run .command (Script.asValue (fun _ => .nothing) Script.begin) []) := rfl

/-- The start ends in its first turn where there is no first handler and all components are in line.
-/
theorem start_of_inLine (host : Host σ) (s : Session σ)
    (hfirst : Script.firstHandler? s.marked.world = none)
    (h : ∀ key ∈ s.marked.world.components.keys,
      s.marked.world.synchronize key = .ok s.marked.world) :
    s.start host = collect { s.marked with result := some (.ok .nothing) } := by
  have hturn : Turn.run host (Script.asValue (fun _ => .nothing) Script.begin) s.marked.world
      s.marked.state = .finished s.marked.world s.marked.state (.ok .nothing) := by
    rw [Turn.run, Script.asValue_of_done (Script.begin_of_inLine hfirst h)]
    rfl
  rw [start_eq, work, hturn]
  rfl

/-- While a session is started its timers may be out of step; once it has started they are in step.
-/
theorem Kept.start {hhost : host.Accepts} (h : s.Kept (Law.timers hhost .fresh) fun _ => True)
    (hidle : ∀ job ∈ s.jobs, job.ofCommand = false) :
    (s.start host).KeptThen (Law.timers hhost .starting) (Law.timers hhost .running)
      fun w => ∀ name, w.InStep name := by
  have hjobs : ∀ job ∈ s.marked.jobs, job.Kept (Law.timers hhost .starting)
      fun w => ∀ name, w.InStep name := by
    intro job hjob
    have hfair := (h.jobs job hjob).of_fair (Law.timers hhost .starting) fun _ _ h => h
    exact hfair.of_not_ofCommand (hidle job hjob)
  have hjob : (Job.run .command (Script.asValue (fun _ => .nothing) Script.begin) [] : Job σ).Kept
      (Law.timers hhost .starting) fun w => ∀ name, w.InStep name :=
    ⟨Script.Tidy.asValue (Script.orderly_begin Conduct.lenient_any) _,
      fun _ w => (Script.reaches_begin w).asValue _, boxesKept_nil _ _⟩
  have hw : World.Timely .starting (fun r => s.Waits r ∨ requestsOf ([] : List (Pending σ)) r)
      s.marked.world := ⟨h.world.loops, fun _ => rfl, fun hphase => by cases hphase⟩
  rw [start_eq]
  have hkept := kept_work (s := s.marked) hjobs hjob hw
  refine ⟨hkept, fun value hvalue => ?_⟩
  obtain hsame | hreached := result_work (s := s.marked) collect_inStep hjob hw
  · rw [hsame] at hvalue
    cases hvalue
  · exact kept_running hkept (hreached value hvalue)

/-- After the start of a session, whatever runs in it and in whatever order, a tick loop is registered
for a name exactly if the name calls for one; unless the session is stopped, or a script still waits
for the host to take note of a property of the timer. Before the start and while it is under way
anything may run too. -/
theorem registered_iff {host : Host σ} (hhost : host.Accepts) {w : World}
    (hfresh : w.timers.loops = []) (state : σ) (before during after : List Move) (fuel : Nat)
    {value : Value} :
    let first := Session.play host { world := w, state } before
    let started := ((first.start host).play host during).await host fuel
    let s := started.play host after
    (∀ job ∈ first.jobs, job.ofCommand = false) →
    (∀ m ∈ during, ¬ m.Cancels ∧ ¬ m.Commands) → started.result = some (.ok value) →
    (∀ m ∈ after, ¬ m.Cancels) → s.world.stopped = false →
    ∀ name, (∀ r, s.Waits r → ¬ r.Drives name) →
      (∀ c, s.world.componentNamed? name = some c → ∃ seconds, World.interval c = .ok seconds) →
      (s.world.Registered name ↔ s.world.CallsForLoop name) := by
  intro first started s hidle hduring hstarted hafter hstopped name hwaits hinterval
  have hfirst : first.Kept (Law.timers hhost .fresh) fun _ => True := by
    have hloops : w.LoopsOfTimers := by
      intro name hname
      rw [World.Registered, hfresh] at hname
      cases hname
    have hw : w.Timely .fresh fun _ => False := ⟨hloops, fun h => absurd rfl h, fun h => by cases h⟩
    have hs : Kept (Law.timers hhost .fresh) (fun _ => True) { world := w, state } :=
      ⟨Law.forgiving_timers hhost hw, fun _ h => absurd h List.not_mem_nil⟩
    exact hs.play (.inr (Law.forgiving_timers hhost))
  have hstart : started.KeptThen (Law.timers hhost .starting) (Law.timers hhost .running)
      fun w => ∀ name, w.InStep name :=
    ((hfirst.start hidle).play collect_inStep (fun _ => kept_running) hduring).drive collect_inStep
      (fun _ => kept_running) _ none fuel
  have hlast : s.Kept (Law.timers hhost .running) fun _ => True :=
    (hstart.after value hstarted).play (.inl hafter)
  exact hlast.world.registered_iff_callsForLoop hstopped hwaits hinterval

end Session

/-- The host that has nothing to say takes note of everything. -/
theorem Rehearsal.accepts_silentHost : Rehearsal.silentHost.Accepts := fun _ _ _ => ⟨_, rfl⟩

theorem exists_ok_of_isOk {ε α : Type} {result : Except ε α} (h : result.isOk = true) :
    ∃ a, result = .ok a := by
  cases result with
  | ok a => exact ⟨a, rfl⟩
  | error e => cases h

/-- A lamp that is not switched on yet. -/
def lamp : World where
  components :=
    [(.text "Lamp",
      { name := .text "Lamp", typeName := .text "Timer", properties := [(.text "interval", .int 500)] })]
  handlers := .ofList [("Lamp_Tick", [])]

/-- Switches the lamp on or off. -/
def switch (on : Bool) : Move := .perform 9 (.userUpdate "Lamp" "Enabled" (.bool on))

/-- The lamp, switched on before the start. -/
def lampOn : Session Rehearsal :=
  Session.play Rehearsal.silentHost { world := lamp, state := {} } [switch true]

/-- The lamp, started. -/
def lampStarted : Session Rehearsal :=
  ((lampOn.start Rehearsal.silentHost).play Rehearsal.silentHost []).await Rehearsal.silentHost 9

/-- The lamp, switched off and on again and left alone for a while. -/
def lampLater : Session Rehearsal :=
  lampStarted.play Rehearsal.silentHost [switch false, switch true, .advance 9 (3 / 2)]

/-- The lamp goes on blinking: its loop is registered, and it is enabled, has an interval and a
handler. -/
theorem Session.registered_iff_lamp :
    lampLater.world.Registered "Lamp" ∧ lampLater.world.CallsForLoop "Lamp" := by
  have hidle : lampOn.jobs.all (fun job => !job.ofCommand) = true := by decide +kernel
  have hstarted : lampStarted.result.map Except.isOk = some true := by decide +kernel
  have hboxes : lampLater.jobs.all (fun job => job.boxes.isEmpty) = true := by decide +kernel
  have hinterval : (lampLater.world.componentNamed? "Lamp").all
      (fun c => (World.interval c).isOk) = true := by decide +kernel
  have hregistered : lampLater.world.timers.loops.contains (.text "Lamp") = true := by
    decide +kernel
  obtain ⟨result, hresult, hok⟩ := Option.map_eq_some_iff.1 hstarted
  obtain ⟨value, rfl⟩ := exists_ok_of_isOk hok
  have hlater : (∀ r, lampLater.Waits r → ¬ r.Drives "Lamp") →
      (∀ c, lampLater.world.componentNamed? "Lamp" = some c →
        ∃ seconds, World.interval c = .ok seconds) →
      (lampLater.world.Registered "Lamp" ↔ lampLater.world.CallsForLoop "Lamp") :=
    Session.registered_iff (w := lamp) Rehearsal.accepts_silentHost rfl {} [switch true] []
      [switch false, switch true, .advance 9 (3 / 2)] 9
      (fun job hjob => by simpa using List.all_eq_true.1 hidle job hjob) (by simp) hresult
      (by simp [switch, Move.Cancels]) (by decide +kernel) "Lamp"
  refine ⟨hregistered, (hlater ?_ fun c hc => ?_).1 hregistered⟩
  · rintro r ⟨job, hjob, box, hbox, -⟩
    have hempty := List.isEmpty_iff.1 (List.all_eq_true.1 hboxes job hjob)
    exact absurd (hempty ▸ hbox) List.not_mem_nil
  · rw [hc] at hinterval
    exact exists_ok_of_isOk hinterval

/-- A timer whose interval is the second smallest of all positive floats. -/
def hastyTimer : Component where
  name := .text "T"
  typeName := .text "Timer"
  properties := [(.text "enabled", .bool true), (.text "interval", .float (Float.ofBits 2))]

/-- A world with this timer. -/
def haste : World where
  components := [(.text "T", hastyTimer)]
  handlers := .ofList [("T_Tick", [])]

/-- In seconds the interval is no longer positive, so no loop is wanted. -/
theorem synchronize_haste {key : Key} (hkey : key ∈ haste.components.keys) {w : World}
    (hcomponents : w.components = haste.components) (hstopped : w.stopped = false)
    (hloops : w.timers.loops = []) : w.synchronize key = .ok w := by
  obtain rfl : key = .text "T" := List.mem_singleton.1 hkey
  have hnever : (Number.int 0).less (.float (Float.ofBits 2 / 1000)) = false := by decide +kernel
  have hwants : w.wantsLoop (.text "T") hastyTimer = .ok false := by
    have hseconds : World.interval hastyTimer = .ok (.float (Float.ofBits 2 / 1000)) := rfl
    rw [World.wantsLoop_of_interval hstopped hseconds, hnever, Bool.false_and, Bool.and_false]
  have hc : w.components.get? (.text "T") = some hastyTimer := by
    rw [hcomponents]
    rfl
  have ht : World.isTimer hastyTimer = .ok true := rfl
  simp only [World.synchronize, hc, ht, hwants, hloops]
  rfl

/-- A timer may have a positive interval and no loop: what counts is the interval in seconds. -/
theorem Session.unregistered_haste :
    let started := (Session.start Rehearsal.silentHost { world := haste, state := {} }).await
      Rehearsal.silentHost 0
    Rehearsal.silentHost.Accepts ∧ started.result = some (.ok .nothing) ∧
      started.world.stopped = false ∧ started.jobs = [] ∧ ¬ started.world.Registered "T" ∧
      ∃ c seconds, started.world.componentNamed? "T" = some c ∧ World.isTimer c = .ok true ∧
        ((c.stored? "enabled").getD .nothing).toBool = true ∧
        World.interval c = .ok seconds ∧ (Number.int 0).less (World.milliseconds c) = true ∧
        started.world.handlers.contains "T_Tick" = true := by
  have hstart := Session.start_of_inLine Rehearsal.silentHost { world := haste, state := {} } rfl
    fun key hkey => synchronize_haste hkey rfl rfl rfl
  rw [hstart]
  refine ⟨Rehearsal.accepts_silentHost, rfl, rfl, rfl, Bool.false_ne_true, hastyTimer, _, rfl, rfl,
    rfl, rfl, ?_, rfl⟩
  decide +kernel

end FormBasic
