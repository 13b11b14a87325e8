import FormBasic.Proofs.Session.Law

/-!
# Notifications as a log

The host is told of every property that is written, so the notifications it got are a complete log:
to replay them on the components with which a session began gives the components as they are. This
holds whatever scripts run, in whatever order their invocations take turns, and however they end.

## Main definitions

* `Host.noting` - a host that writes down what it is asked
* `World.Logged` - worlds that are explained by a log
* `Law.logged` - the log of a host that writes down what it is asked explains the world

## Main statements

* `Session.replay_play` - the notifications of a run lead from its first components to its last
-/

namespace FormBasic

/-- The reception of a request by a host that also keeps a log. -/
def Reception.noting {σ : Type} {request : Request} (log : List Request) :
    Reception σ request → Reception (σ × List Request) request
  | .answered state signals reply => .answered (state, log) signals reply
  | .held state signals hold release =>
    .held (state, log) signals hold fun event state => (release event state.1).noting state.2

/-- The host that writes down every request and otherwise does what it did. -/
def Host.noting {σ : Type} (host : Host σ) : Host (σ × List Request) where
  receive request state := (host.receive request state.1).noting (state.2 ++ [request])

/-- The notifications among some requests. -/
def notifications (log : List Request) : List Notification := log.flatMap Request.notifications

theorem notifications_concat (log : List Request) (request : Request) :
    notifications (log ++ [request]) = notifications log ++ request.notifications := by
  simp [notifications]

/-- Whether a reception leaves the log as it is. -/
def Reception.Keeps {σ : Type} {request : Request} (log : List Request) :
    Reception (σ × List Request) request → Prop
  | .answered state _ _ => state.2 = log
  | .held state _ _ release => state.2 = log ∧ ∀ event state, (release event state).Keeps state.2

theorem Reception.keeps_noting {σ : Type} {request : Request} (log : List Request)
    (r : Reception σ request) : (r.noting log).Keeps log := by
  induction r generalizing log with
  | answered => rfl
  | held state signals hold release ih => exact ⟨rfl, fun event state => ih _ _ state.2⟩

/-- Whether the components of a world come from those of another one by the notifications of a log,
with the same handlers. -/
structure World.Logged (start w : World) (log : List Request) : Prop where
  components : w.components = replay start.components (notifications log)
  handlers : w.handlers = start.handlers

theorem World.logged_self (w : World) : w.Logged w [] := ⟨rfl, rfl⟩

section Logged

variable {start w w' : World} {log : List Request}

theorem World.Logged.of_eq (h : World.Logged start w log) (hc : w'.components = w.components)
    (hh : w'.handlers = w.handlers) : World.Logged start w' log :=
  ⟨hc.trans h.components, hh.trans h.handlers⟩

theorem World.Logged.changes {names : Text → Prop} (h : World.Logged start w log)
    (hc : World.Changes names w w') : World.Logged start w' log :=
  h.of_eq hc.keep.1 hc.keep.2

theorem World.Logged.signals (h : World.Logged start w log) (sent : List Signal) :
    World.Logged start (w.signals sent) log :=
  h.of_eq (w.keep_signals sent).1 (w.keep_signals sent).2

/-- The write that a request tells of is explained once the request is written down. -/
theorem World.Logged.announced (h : World.Logged start w log) (request : Request) :
    World.Logged start (w.announced request) (log ++ [request]) := by
  refine ⟨?_, h.handlers⟩
  rw [notifications_concat, replay_append, ← h.components]
  rfl

end Logged

/-- A reception that leaves the log as it is leaves a world that the log explains. -/
theorem Reception.Keeps.leaves {σ : Type} {request : Request} {start w : World}
    {log : List Request} {r : Reception (σ × List Request) request} (hr : r.Keeps log)
    (hw : World.Logged start w log) (waiting : Request → Prop) :
    r.Leaves (fun _ w state => World.Logged start w state.2)
      (fun _ release => ∀ event state, (release event state).Keeps state.2) waiting w := by
  cases r with
  | answered state signals reply =>
    obtain rfl : state.2 = log := hr
    have hserved : World.Changes (fun _ => True) (w.signals signals)
        ((w.signals signals).served request reply) := World.changes_served _ _ _
    exact (hw.signals signals).changes hserved
  | held state signals hold release =>
    obtain ⟨rfl, hrelease⟩ := hr
    exact ⟨hw.signals signals, hrelease⟩

/-- The log of a host that writes down what it is asked explains the world. -/
def Law.logged {σ : Type} (host : Host σ) (start : World) : Law host.noting where
  Holds _ w state := World.Logged start w state.2
  Fair _ release := ∀ event state, (release event state).Keeps state.2
  mono _ h := h
  change hstep h := h.changes (.single hstep)
  signal signal h := h.signals [signal]
  collect h := h.of_eq rfl rfl
  stop h := h.of_eq rfl rfl
  receive request h := (Reception.keeps_noting _ _).leaves (h.announced request) _
  release event hfair h := (hfair event _).leaves h _

/-- What a component is called and of what type it is, with the key it is stored under. -/
def Component.identity (e : Key × Component) : Key × Value × Value :=
  (e.1, e.2.name, e.2.typeName)

theorem identity_set {components : Entries Component} {key : Key} {c c' : Component}
    (h : components.get? key = some c) (hname : c'.name = c.name)
    (htype : c'.typeName = c.typeName) :
    (components.set key c').map Component.identity = components.map Component.identity := by
  induction components with
  | nil => cases h
  | cons e rest ih =>
    obtain ⟨k, v⟩ := e
    rw [Entries.get?] at h
    rw [Entries.set]
    split at h
    · next hk =>
      cases h
      simp [hk, Component.identity, hname, htype]
    · next hk => simp [hk, ih h]

/-- A write to a property leaves every component its name and its type. -/
theorem identity_replay (components : Entries Component) (log : List Notification) :
    (replay components log).map Component.identity = components.map Component.identity := by
  induction log generalizing components with
  | nil => rfl
  | cons n log ih =>
    refine (ih (n.apply components)).trans ?_
    rw [Notification.apply]
    split
    · next c hc => exact identity_set hc rfl rfl
    · rfl

/-- Whatever runs in a session and in whatever order it takes turns, the notifications that the host
got, replayed on the first components, give the last ones; and the session has the handlers it
began with and components of the same names and types. -/
theorem Session.replay_play {σ : Type} (host : Host σ) (w : World) (state : σ)
    (moves : List Move) :
    let s := Session.play host.noting { world := w, state := (state, []) } moves
    s.world.components = replay w.components (notifications s.state.2) ∧
      s.world.handlers = w.handlers ∧
      s.world.components.map Component.identity = w.components.map Component.identity := by
  have hfresh : Session.Kept (Law.logged host w) (fun _ => True)
      { world := w, state := (state, []) } :=
    ⟨w.logged_self, fun _ h => absurd h List.not_mem_nil⟩
  have hlast : World.Logged w (Session.play host.noting { world := w, state := (state, []) }
      moves).world _ := (hfresh.play (.inr fun h => h)).world
  refine ⟨hlast.components, hlast.handlers, ?_⟩
  rw [hlast.components, identity_replay]

end FormBasic
