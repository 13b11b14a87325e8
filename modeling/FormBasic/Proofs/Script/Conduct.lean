import FormBasic.Proofs.Script.Faults
import Mathlib.Logic.Relation

/-!
# How scripts behave

Between two waits a script changes the world in a few ways only: it writes variables, works on data
access objects, writes to the console, stops the session, or brings a timer in line. Properties are
special: a script that writes one tells the host at once, in the request it then waits for, and when
the reply has come it brings the timer in line before it does anything else. A script ends early with
a fault that it ran into by itself or that it was given.

## Main definitions

* `Notification`, `replay` - written properties as the host is told of them
* `World.Change`, `World.Changes` - what may happen between two waits
* `World.served` - the world once the reply to a request has been dealt with
* `Conduct` - what a script may write and how it may end
* `Outcome.Orderly`, `Script.Orderly` - scripts that keep to a conduct

## Main statements

* `Script.Orderly.bind`, `Script.Orderly.loop` - sequences and loops keep to a conduct when their
  parts do

## Design notes

What happens while a script waits is left open: an orderly outcome is orderly from whatever world it
is resumed in. This is what makes the notion fit for several scripts that take turns. Whether a
script may catch a fault is part of its conduct: expressions never do, statements attribute faults to
their line, and events report them.
-/

namespace FormBasic

/-- A written property as the host is told of it. -/
structure Notification where
  component : Text
  property : Text
  value : Value

/-- The notifications that a request carries. -/
def Request.notifications : Request → List Notification
  | .propertyChanged component property value => [{ component, property, value }]
  | _ => []

/-- Components after the write that a notification tells of. -/
def Notification.apply (components : Entries Component) (n : Notification) : Entries Component :=
  match components.get? (.text n.component) with
  | some c =>
    components.set (.text n.component)
      { c with properties := c.properties.set (.text n.property) n.value }
  | none => components

/-- Components after the writes that several notifications tell of. -/
def replay (components : Entries Component) (log : List Notification) : Entries Component :=
  log.foldl Notification.apply components

theorem replay_append (components : Entries Component) (log log' : List Notification) :
    replay components (log ++ log') = replay (replay components log) log' :=
  List.foldl_append

namespace World

/-- The world in which the write has happened that a request tells of. -/
def announced (w : World) (request : Request) : World :=
  { w with components := replay w.components request.notifications }

theorem announced_of_notifications_eq_nil (w : World) {request : Request}
    (h : request.notifications = []) : w.announced request = w := by
  rw [announced, h]
  rfl

/-- A stored property is the write that its notification tells of. -/
theorem announced_of_storeProperty {w w' : World} {component name key : Text} {value : Value}
    (h : w.storeProperty component name value = some (w', key)) :
    w' = w.announced (.propertyChanged component key value) := by
  unfold storeProperty at h
  split at h
  · next c hc =>
    cases h
    simp only [announced, Request.notifications, replay, List.foldl, Notification.apply]
    rw [show w.components.get? (.text component) = some c from hc]
    rfl
  · cases h

/-- The world once a script has dealt with the reply to a request: after a notification that may
concern a timer, the timer is in line with its properties. -/
def served (w : World) : (request : Request) → Except Fault request.Reply → World
  | .propertyChanged component property _, .ok _ =>
    if w.timers.started && drivesTimer property then
      match w.synchronize (.text component) with
      | .ok w' => w'
      | .error _ => w
    else w
  | _, _ => w

theorem served_of_notifications_eq_nil (w : World) {request : Request}
    (h : request.notifications = []) (reply : Except Fault request.Reply) :
    w.served request reply = w := by
  cases request with
  | propertyChanged => cases h
  | _ => rfl

/-- What may happen to the world at a moment at which the host is not told of a property; `names`
says which variables may be written. -/
inductive Change (names : Text → Prop) : World → World → Prop where
  | variable (w : World) {name : Text} (h : names name) (value : Value) :
    Change names w (w.setVariable name value)
  | objects (w : World) (objects : Data.Store) : Change names w { w with objects }
  | memory (w : World) (connection : Text) (link : Nat) :
    Change names w { w with memory := w.memory.set connection link }
  | console (w : World) (console : List Text) : Change names w { w with console }
  | stop (w : World) : Change names w (w.signal .stop)
  | timer {w w' : World} {name : Key} (h : w.synchronize name = .ok w') : Change names w w'
  | started (w : World) : Change names w { w with timers := { w.timers with started := true } }
  | malformed (w : World) (parseErrors : Table Text) : Change names w { w with parseErrors }

/-- What may happen between two waits. -/
abbrev Changes (names : Text → Prop) : World → World → Prop :=
  Relation.ReflTransGen (Change names)

/-- To deal with a reply is at most to bring a timer in line. -/
theorem changes_served {names : Text → Prop} (w : World) (request : Request)
    (reply : Except Fault request.Reply) : Changes names w (w.served request reply) := by
  unfold served
  split
  · split
    · split
      · next h => exact .single (.timer h)
      · exact .refl
    · exact .refl
  · exact .refl

end World

/-- What a script may write and how it may end. -/
structure Conduct where
  /-- The variables that it may write. -/
  names : Text → Prop := fun _ => True
  /-- The faults with which it may end. -/
  faults : Fault → Prop := fun _ => True
  /-- Whether it has to end with any fault that it is given. -/
  frank : Prop := False
  /-- It may end with any fault that it runs into by itself. -/
  arises : ∀ {fault : Fault}, fault.Arises → faults fault := by intros; trivial

namespace Conduct

/-- Any conduct is all right. -/
def any : Conduct := {}

/-- Whether diagnoses at a line are among the faults. -/
def Owns (k : Conduct) (line : Line) : Prop := ∀ cause, k.faults (.runtimeAt line cause)

/-- Whether faults may be caught, and script errors be attributed to any line. -/
structure Lenient (k : Conduct) : Prop where
  catches : ¬ k.frank
  scripts : ∀ error, k.faults (.script error)

theorem lenient_any : any.Lenient := ⟨fun h => h, fun _ => trivial⟩

theorem Lenient.owns {k : Conduct} (h : k.Lenient) (line : Line) : k.Owns line :=
  fun _ => h.scripts _

theorem Lenient.attribute {k : Conduct} (h : k.Lenient) (line : Line) {fault : Fault}
    (hfault : k.faults fault) : k.faults (fault.attribute line) := by
  cases fault with
  | script error => exact h.scripts _
  | _ => exact hfault

end Conduct

/-- Whether an outcome that arises from a world keeps to a conduct: until it waits it changes the
world in the ways of `World.Change`, apart from the write that its request tells of, and it does so
again whenever it is resumed, once the reply has been dealt with. -/
def Outcome.Orderly {α : Type} (k : Conduct) : World → Outcome α → Prop
  | start, .done w _ => World.Changes k.names start w
  | start, .failed w fault => World.Changes k.names start w ∧ k.faults fault
  | start, .asking w request resume =>
    (∃ before, World.Changes k.names start before ∧ w = before.announced request) ∧
      (∀ w reply, FailsOnly k.faults reply →
        (resume w reply).Orderly k (w.served request reply)) ∧
      (k.frank → ∀ w fault, resume w (.error fault) = .failed w fault)
  | start, .calling w _ resume =>
    World.Changes k.names start w ∧
      (∀ w reply, FailsOnly k.faults reply → (resume w reply).Orderly k w) ∧
      (k.frank → ∀ w fault, resume w (.error fault) = .failed w fault)

/-- Whether a script keeps to a conduct when it starts in a world. -/
def Script.OrderlyAt {α : Type} (k : Conduct) (w : World) (m : Script α) : Prop :=
  (m w).Orderly k w

/-- Whether a script keeps to a conduct wherever it starts. -/
def Script.Orderly {α : Type} (k : Conduct) (m : Script α) : Prop := ∀ w, m.OrderlyAt k w

/-- Orderly scripts, whatever variables they write and however they end. -/
abbrev Script.Tidy {α : Type} (script : Script α) : Prop := script.Orderly .any

/-- Orderly outcomes, whatever variables they write and however they end. -/
abbrev Outcome.Tidy {α : Type} (w : World) (o : Outcome α) : Prop := o.Orderly .any w

section Sequencing

variable {k : Conduct} {α β σ : Type}

namespace Outcome

theorem Orderly.of_changes {start w : World} (h : World.Changes k.names start w) {o : Outcome α}
    (ho : o.Orderly k w) : o.Orderly k start := by
  cases o with
  | done => exact h.trans ho
  | failed => exact ⟨h.trans ho.1, ho.2⟩
  | asking w' request resume =>
    obtain ⟨⟨before, hbefore, hw⟩, hresume⟩ := ho
    exact ⟨⟨before, h.trans hbefore, hw⟩, hresume⟩
  | calling => exact ⟨h.trans ho.1, ho.2⟩

theorem Orderly.andThen {start : World} {o : Outcome α} (ho : o.Orderly k start)
    {next : World → Except Fault α → Outcome β}
    (hnext : ∀ w result, FailsOnly k.faults result → (next w result).Orderly k w)
    (hfrank : k.frank → ∀ w fault, next w (.error fault) = .failed w fault) :
    (o.andThen next).Orderly k start := by
  induction o generalizing start with
  | done w a => exact (hnext w (.ok a) (.ok a)).of_changes ho
  | failed w fault => exact (hnext w (.error fault) (.error ho.2)).of_changes ho.1
  | asking w request resume ih =>
    obtain ⟨hasked, hresume, hpass⟩ := ho
    refine ⟨hasked, fun w reply hreply => ih w reply (hresume w reply hreply), fun hk w fault => ?_⟩
    simp only [hpass hk]
    exact hfrank hk w fault
  | calling w key resume ih =>
    obtain ⟨hcalled, hresume, hpass⟩ := ho
    refine ⟨hcalled, fun w reply hreply => ih w reply (hresume w reply hreply), fun hk w fault => ?_⟩
    simp only [hpass hk]
    exact hfrank hk w fault

theorem orderly_ended (w : World) {result : Except Fault α} (h : FailsOnly k.faults result) :
    (ended w result).Orderly k w := by
  cases h with
  | ok a => exact .refl
  | error h => exact ⟨.refl, h⟩

/-- A tidy outcome may be resumed in any way. -/
theorem Tidy.of_asking {start w : World} {request : Request}
    {resume : World → Except Fault request.Reply → Outcome α}
    (h : (Outcome.asking w request resume).Tidy start) :
    (∃ before, World.Changes (fun _ => True) start before ∧ w = before.announced request) ∧
      ∀ w reply, (resume w reply).Tidy w := by
  obtain ⟨hasked, hresume, -⟩ := h
  refine ⟨hasked, fun w reply => ?_⟩
  have hreply := hresume w reply (failsOnly_any reply fun _ => trivial)
  exact hreply.of_changes (w.changes_served request reply)

theorem Tidy.of_calling {start w : World} {key : Text}
    {resume : World → Except Fault Bool → Outcome α}
    (h : (Outcome.calling w key resume).Tidy start) :
    World.Changes (fun _ => True) start w ∧ ∀ w reply, (resume w reply).Tidy w :=
  ⟨h.1, fun w reply => h.2.1 w reply (failsOnly_any reply fun _ => trivial)⟩

end Outcome

namespace Script

theorem orderly_pure (a : α) : (pure a : Script α).Orderly k := fun _ => .refl

theorem orderly_throw {fault : Fault} (h : k.faults fault) :
    (throw fault : Script α).Orderly k :=
  fun _ => ⟨.refl, h⟩

theorem Orderly.andThen {m : Script α} (hm : m.Orderly k) {next : Except Fault α → Script β}
    (hnext : ∀ result, FailsOnly k.faults result → (next result).Orderly k)
    (hfrank : k.frank → ∀ fault, next (.error fault) = throw fault) :
    (m.andThen next).Orderly k := by
  refine fun w => (hm w).andThen (fun w result h => hnext result h w) fun hk w fault => ?_
  rw [hfrank hk]
  rfl

theorem OrderlyAt.bind {m : Script α} {w : World} (hm : m.OrderlyAt k w) {f : α → Script β}
    (hf : ∀ a, (f a).Orderly k) : (m >>= f).OrderlyAt k w := by
  refine Outcome.Orderly.andThen hm (fun w result hresult => ?_) fun _ _ _ => rfl
  cases hresult with
  | ok a => exact hf a w
  | error h => exact ⟨.refl, h⟩

theorem Orderly.bind {m : Script α} (hm : m.Orderly k) {f : α → Script β}
    (hf : ∀ a, (f a).Orderly k) : (m >>= f).Orderly k :=
  fun w => (hm w).bind hf

/-- What a script goes on with after looking at the world only matters in that world. -/
theorem orderlyAt_look {f : World → Script α} {w : World} (h : (f w).OrderlyAt k w) :
    (world >>= f).OrderlyAt k w := h

theorem orderly_world : world.Orderly k := fun _ => .refl

theorem orderly_update {f : World → World} (h : ∀ w, World.Changes k.names w (f w)) :
    (update f).Orderly k := h

theorem orderly_ask {request : Request} (h : request.notifications = []) :
    (ask request).Orderly k := by
  intro w
  refine ⟨⟨w, .refl, (w.announced_of_notifications_eq_nil h).symm⟩, fun w reply hreply => ?_,
    fun _ _ _ => rfl⟩
  rw [w.served_of_notifications_eq_nil h reply]
  exact Outcome.orderly_ended w hreply

theorem orderly_call (key : Text) : (call key).Orderly k :=
  fun _ => ⟨.refl, fun w _ hreply => Outcome.orderly_ended w hreply, fun _ _ _ => rfl⟩

theorem orderly_lift {result : Except Fault α} (h : Arising result) : (lift result).Orderly k := by
  cases h with
  | ok a => exact orderly_pure a
  | error h => exact orderly_throw (k.arises h)

theorem orderly_compute {result : Except Refusal α} (h : Unguarded result) :
    (compute result).Orderly k :=
  orderly_lift h.arising

/-- A pure computation does not change the world in which the script goes on. -/
theorem orderlyAt_lift {result : Except Fault α} (h : Arising result) {w : World}
    {f : α → Script β} (hf : ∀ a, (f a).OrderlyAt k w) : (lift result >>= f).OrderlyAt k w := by
  cases h with
  | ok a => exact hf a
  | error h => exact ⟨.refl, k.arises h⟩

theorem orderlyAt_compute {result : Except Refusal α} (h : Unguarded result) {w : World}
    {f : α → Script β} (hf : ∀ a, (f a).OrderlyAt k w) : (compute result >>= f).OrderlyAt k w :=
  orderlyAt_lift h.arising hf

theorem Orderly.discard {m : Script α} (hm : m.Orderly k) : (discard m : Script Unit).Orderly k :=
  hm.bind fun _ => orderly_pure _

theorem attempt_bind (m : Script α) (f : Except Fault α → Script β) :
    attempt m >>= f = m.andThen f := by
  funext w
  exact Outcome.andThen_assoc _ _ _

theorem Orderly.attribute {m : Script α} (hm : m.Orderly k) (hk : k.Lenient) (line : Line) :
    (mapFault (Fault.attribute line) m).Orderly k := by
  refine hm.andThen (fun result hresult => ?_) fun h => absurd h hk.catches
  cases hresult with
  | ok a => exact orderly_pure a
  | error h => exact orderly_throw (hk.attribute line h)

theorem Orderly.mapM {f : α → Script β} (hf : ∀ a, (f a).Orderly k) (o : Option α) :
    (o.mapM f).Orderly k := by
  cases o with
  | none => exact orderly_pure none
  | some a => exact (hf a).bind fun b => orderly_pure (some b)

theorem Orderly.forM {f : α → Script PUnit} (hf : ∀ a, (f a).Orderly k) (as : List α) :
    (as.forM f).Orderly k := by
  induction as with
  | nil => exact orderly_pure _
  | cons a as ih => exact (hf a).bind fun _ => ih

/-- A capped loop is orderly when its rounds are. -/
theorem Orderly.loop {test : σ → Script Bool} {round : σ → Script (Option σ)}
    {runaway : Script Unit} (htest : ∀ s, (test s).Orderly k)
    (hround : ∀ s, (round s).Orderly k) (hrunaway : runaway.Orderly k)
    (cap : Nat) (s : σ) : Script.Orderly k (loop test round runaway cap s) := by
  induction cap generalizing s with
  | zero =>
    refine (htest s).bind fun more => ?_
    cases more with
    | true => exact hrunaway
    | false => exact orderly_pure ()
  | succ cap ih =>
    rw [loop_succ]
    have hfirst : ((do if ← test s then round s else pure none) : Script (Option σ)).Orderly
        k := by
      refine (htest s).bind fun more => ?_
      cases more with
      | true => exact hround s
      | false => exact orderly_pure none
    refine hfirst.bind fun next => ?_
    cases next with
    | some s => exact ih s
    | none => exact orderly_pure ()

end Script

end Sequencing

/-- What bringing a component in line does: a timer that is to run and has no loop gets one, one
that is not to run and has a loop loses it, and nothing happens otherwise. -/
theorem World.synchronize_cases {w w' : World} {name : Key} (h : w.synchronize name = .ok w') :
    w' = w ∧ (∀ c, w.components.get? name = some c → isTimer c = .ok true →
        w.wantsLoop name c = .ok (w.timers.loops.contains name)) ∨
      ∃ c, w.components.get? name = some c ∧ isTimer c = .ok true ∧
        (w.wantsLoop name c = .ok true ∧ w.timers.loops.contains name = false ∧
            w' = w.registerLoop name ∨
          w.wantsLoop name c = .ok false ∧ w.timers.loops.contains name = true ∧
            w' = w.cancelLoop name) := by
  unfold World.synchronize at h
  split at h
  · next hnone =>
    cases h
    exact .inl ⟨rfl, fun c hc => by rw [hnone] at hc; cases hc⟩
  next c hc =>
  cases ht : isTimer c with
  | error fault => simp [ht, bind, Except.bind] at h
  | ok timer =>
    cases timer with
    | false =>
      simp only [ht, bind, Except.bind, pure, Except.pure] at h
      cases h
      refine .inl ⟨rfl, fun c' hc' ht' => ?_⟩
      obtain rfl := Option.some.inj (hc.symm.trans hc')
      rw [ht] at ht'
      cases ht'
    | true =>
      cases hw : w.wantsLoop name c with
      | error fault => simp [ht, hw, bind, Except.bind] at h
      | ok wanted =>
        simp only [ht, hw, bind, Except.bind, pure, Except.pure, if_true] at h
        have hsame : ∀ c', w.components.get? name = some c' → isTimer c' = .ok true →
            w.wantsLoop name c' = .ok wanted := by
          intro c' hc' _
          obtain rfl := Option.some.inj (hc.symm.trans hc')
          exact hw
        cases hrunning : w.timers.loops.contains name with
        | false =>
          cases wanted with
          | false => exact .inl ⟨by simpa [hrunning] using h.symm, hsame⟩
          | true => exact .inr ⟨c, hc, ht, .inl ⟨hw, rfl, by simpa [hrunning] using h.symm⟩⟩
        | true =>
          cases wanted with
          | false => exact .inr ⟨c, hc, ht, .inr ⟨hw, rfl, by simpa [hrunning] using h.symm⟩⟩
          | true => exact .inl ⟨by simpa [hrunning] using h.symm, hsame⟩

theorem World.keep_synchronize {w w' : World} {name : Key} (h : w.synchronize name = .ok w') :
    w'.components = w.components ∧ w'.handlers = w.handlers := by
  obtain ⟨rfl, -⟩ | ⟨c, -, -, ⟨-, -, rfl⟩ | ⟨-, -, rfl⟩⟩ := World.synchronize_cases h <;>
    exact ⟨rfl, rfl⟩

/-- No change touches components or handlers. -/
theorem World.Changes.keep {names : Text → Prop} {w w' : World} (h : World.Changes names w w') :
    w'.components = w.components ∧ w'.handlers = w.handlers := by
  induction h with
  | refl => exact ⟨rfl, rfl⟩
  | tail _ hstep ih =>
    have hkeep : ∀ {a b : World}, World.Change names a b →
        b.components = a.components ∧ b.handlers = a.handlers := by
      intro a b hab
      cases hab with
      | timer hsync => exact World.keep_synchronize hsync
      | _ => exact ⟨rfl, rfl⟩
    exact ⟨(hkeep hstep).1.trans ih.1, (hkeep hstep).2.trans ih.2⟩

/-- Signals only set the two flags. -/
theorem World.signals_eq (w : World) (sent : List Signal) :
    ∃ stopped paused, w.signals sent = { w with stopped, paused } := by
  induction sent generalizing w with
  | nil => exact ⟨w.stopped, w.paused, rfl⟩
  | cons signal sent ih =>
    obtain ⟨stopped, paused, h⟩ := ih (w.signal signal)
    refine ⟨stopped, paused, h.trans ?_⟩
    cases signal <;> rfl

theorem World.keep_signals (w : World) (sent : List Signal) :
    (w.signals sent).components = w.components ∧ (w.signals sent).handlers = w.handlers := by
  obtain ⟨stopped, paused, h⟩ := w.signals_eq sent
  rw [h]
  exact ⟨rfl, rfl⟩

end FormBasic
