import FormBasic.Proofs.Script.Stages

/-!
# Histories

While a script waits, anything may happen: hosts reply as they like, and other scripts change the
world. A history says what the script waited for, what it left behind and what it found when it was
resumed. All histories of a script together are what can come of it, whoever runs it.

## Main definitions

* `Exchange` - a wait of a script
* `Exchange.Direct`, `Exchange.GoesOn` - waits during which nothing but the host acts
* `Outcome.Traces` - the histories of an outcome, and how they end
* `Outcome.Ends` - how an outcome can end with a value, and the requests that it makes until then

## Main statements

* `Outcome.Traces.of_andThen`, `Script.traces_bind` - the histories of sequences
* `Script.ends_ask` - a request changes nothing if the host leaves the session going on
-/

namespace FormBasic

namespace World

/-- Signals that leave a session going on leave it as it was. -/
theorem signals_eq_self {w : World} {sent : List Signal} (hw : w.halted = false)
    (hsent : (w.signals sent).halted = false) : w.signals sent = w := by
  obtain ⟨stopped, paused, h⟩ := w.signals_eq sent
  rw [h] at hsent ⊢
  simp only [halted, Bool.or_eq_false_iff] at hw hsent
  obtain ⟨rfl, rfl⟩ := hsent
  cases w
  cases hw.1
  cases hw.2
  rfl

end World

/-- What passes between a script and its surroundings while it waits: what it waits for, the world
it leaves, and the world and the reply with which it is resumed. -/
inductive Exchange where
  | asked (request : Request) (left found : World) (reply : Except Fault request.Reply)
  | called (key : Text) (left found : World) (reply : Except Fault Bool)

namespace Exchange

/-- The world that the script leaves. -/
def left : Exchange → World
  | .asked _ left _ _ => left
  | .called _ left _ _ => left

/-- The world that the script finds. -/
def found : Exchange → World
  | .asked _ _ found _ => found
  | .called _ _ found _ => found

/-- The request that is made. -/
def request? : Exchange → Option Request
  | .asked request _ _ _ => some request
  | .called _ _ _ _ => none

/-- Whether nothing happens during a wait but what the host's signals do. -/
def Direct (e : Exchange) : Prop := ∃ sent, e.found = e.left.signals sent

/-- Whether nothing happens during a wait but what the host's signals do, and they leave the session
going on. -/
def GoesOn (e : Exchange) : Prop := e.Direct ∧ e.found.halted = false

theorem GoesOn.found_eq {e : Exchange} (h : e.GoesOn) (hleft : e.left.halted = false) :
    e.found = e.left := by
  obtain ⟨⟨sent, hsent⟩, hfound⟩ := h
  rw [hsent] at hfound ⊢
  exact World.signals_eq_self hleft hfound

end Exchange

/-- Whether an outcome has a history that ends in a world with a result. Every world may be found
after a wait, and every reply may be given. -/
inductive Outcome.Traces {α : Type} :
    Outcome α → List Exchange → World → Except Fault α → Prop where
  | done (w : World) (a : α) : Traces (.done w a) [] w (.ok a)
  | failed (w : World) (fault : Fault) : Traces (.failed w fault) [] w (.error fault)
  | asking {left found w : World} {request : Request}
    {resume : World → Except Fault request.Reply → Outcome α}
    {reply : Except Fault request.Reply} {history : List Exchange} {result : Except Fault α}
    (rest : Traces (resume found reply) history w result) :
    Traces (.asking left request resume) (.asked request left found reply :: history) w result
  | calling {left found w : World} {key : Text} {resume : World → Except Fault Bool → Outcome α}
    {reply : Except Fault Bool} {history : List Exchange} {result : Except Fault α}
    (rest : Traces (resume found reply) history w result) :
    Traces (.calling left key resume) (.called key left found reply :: history) w result

namespace Outcome

variable {α β : Type} {history : List Exchange} {w w' w₁ w₂ : World}

@[simp]
theorem traces_done {a : α} {result : Except Fault α} :
    Traces (.done w a) history w' result ↔ history = [] ∧ w' = w ∧ result = .ok a := by
  constructor
  · intro h
    cases h
    exact ⟨rfl, rfl, rfl⟩
  · rintro ⟨rfl, rfl, rfl⟩
    exact .done _ _

@[simp]
theorem traces_failed {fault : Fault} {result : Except Fault α} :
    Traces (.failed w fault) history w' result ↔
      history = [] ∧ w' = w ∧ result = .error fault := by
  constructor
  · intro h
    cases h
    exact ⟨rfl, rfl, rfl⟩
  · rintro ⟨rfl, rfl, rfl⟩
    exact .failed _ _

@[simp]
theorem traces_ended {result result' : Except Fault α} :
    Traces (ended w result) history w' result' ↔ history = [] ∧ w' = w ∧ result' = result := by
  cases result with
  | ok a => exact traces_done
  | error fault => exact traces_failed

/-- A history of an outcome and one of what comes next make a history of the sequence. -/
theorem Traces.andThen {o : Outcome α} {first second : List Exchange} {result₁ : Except Fault α}
    {result₂ : Except Fault β} {next : World → Except Fault α → Outcome β}
    (h : o.Traces first w₁ result₁) (hnext : (next w₁ result₁).Traces second w₂ result₂) :
    (o.andThen next).Traces (first ++ second) w₂ result₂ := by
  induction h with
  | done => exact hnext
  | failed => exact hnext
  | asking _ ih => exact .asking (ih hnext)
  | calling _ ih => exact .calling (ih hnext)

/-- A history of a sequence is made of one of its first part and one of what comes next. -/
theorem Traces.of_andThen {o : Outcome α} {result₂ : Except Fault β}
    {next : World → Except Fault α → Outcome β} (h : (o.andThen next).Traces history w₂ result₂) :
    ∃ first second w₁ result₁, history = first ++ second ∧ o.Traces first w₁ result₁ ∧
      (next w₁ result₁).Traces second w₂ result₂ := by
  induction o generalizing history with
  | done w a => exact ⟨[], history, w, .ok a, rfl, .done w a, h⟩
  | failed w fault => exact ⟨[], history, w, .error fault, rfl, .failed w fault, h⟩
  | asking w request resume ih =>
    cases h with
    | asking rest =>
      obtain ⟨first, second, w₁, result₁, rfl, hfirst, hsecond⟩ := ih _ _ rest
      exact ⟨_ :: first, second, w₁, result₁, rfl, .asking hfirst, hsecond⟩
  | calling w key resume ih =>
    cases h with
    | calling rest =>
      obtain ⟨first, second, w₁, result₁, rfl, hfirst, hsecond⟩ := ih _ _ rest
      exact ⟨_ :: first, second, w₁, result₁, rfl, .calling hfirst, hsecond⟩

/-- Whether an outcome can end in a world with a value after it has made some requests, where every
wait is of some sort. -/
def Ends (P : Exchange → Prop) (o : Outcome α) (requests : List Request)
    (w : World) (a : α) : Prop :=
  ∃ history, o.Traces history w (.ok a) ∧ (∀ e ∈ history, P e) ∧
    history.filterMap Exchange.request? = requests

variable {P : Exchange → Prop} {requests : List Request}

theorem ends_done {a b : α} :
    (done w a).Ends P requests w' b ↔ requests = [] ∧ w' = w ∧ b = a := by
  constructor
  · rintro ⟨history, h, -, rfl⟩
    obtain ⟨rfl, rfl, hb⟩ := traces_done.1 h
    exact ⟨rfl, rfl, Except.ok.inj hb⟩
  · rintro ⟨rfl, rfl, rfl⟩
    exact ⟨[], .done _ _, fun _ he => absurd he List.not_mem_nil, rfl⟩

theorem not_ends_failed {fault : Fault} {b : α} :
    ¬ (failed w fault : Outcome α).Ends P requests w' b := by
  rintro ⟨history, h, -, -⟩
  cases h

end Outcome

namespace Script

variable {α β : Type} {history : List Exchange} {w w' : World}

@[simp]
theorem traces_pure {a : α} {result : Except Fault α} :
    ((pure a : Script α) w).Traces history w' result ↔
      history = [] ∧ w' = w ∧ result = .ok a :=
  Outcome.traces_done

@[simp]
theorem traces_throw {fault : Fault} {result : Except Fault α} :
    ((throw fault : Script α) w).Traces history w' result ↔
      history = [] ∧ w' = w ∧ result = .error fault :=
  Outcome.traces_failed

theorem traces_ask {request : Request} {result : Except Fault request.Reply} :
    (ask request w).Traces history w' result ↔ history = [.asked request w w' result] := by
  constructor
  · intro h
    cases h with
    | asking rest =>
      obtain ⟨rfl, rfl, rfl⟩ := Outcome.traces_ended.1 rest
      rfl
  · rintro rfl
    exact .asking (Outcome.traces_ended.2 ⟨rfl, rfl, rfl⟩)

/-- A history of a sequence: its first part ends early, or the rest starts where it ended. -/
theorem traces_bind {m : Script α} {f : α → Script β} {result : Except Fault β} :
    ((m >>= f) w).Traces history w' result ↔
      (∃ fault, (m w).Traces history w' (.error fault) ∧ result = .error fault) ∨
        ∃ first second w₁ a, history = first ++ second ∧ (m w).Traces first w₁ (.ok a) ∧
          (f a w₁).Traces second w' result := by
  constructor
  · intro h
    obtain ⟨first, second, w₁, result₁, rfl, hfirst, hsecond⟩ := Outcome.Traces.of_andThen h
    cases result₁ with
    | error fault =>
      obtain ⟨rfl, rfl, rfl⟩ := traces_throw.1 hsecond
      exact .inl ⟨fault, by rwa [List.append_nil], rfl⟩
    | ok a => exact .inr ⟨first, second, w₁, a, rfl, hfirst, hsecond⟩
  · rintro (⟨fault, hfirst, rfl⟩ | ⟨first, second, w₁, a, rfl, hfirst, hsecond⟩)
    · have h : ((m >>= f) w).Traces (history ++ []) w' (.error fault) :=
        Outcome.Traces.andThen hfirst (traces_throw.2 ⟨rfl, rfl, rfl⟩)
      rwa [List.append_nil] at h
    · exact Outcome.Traces.andThen hfirst hsecond

theorem traces_map {m : Script α} {f : α → β} {result : Except Fault β} :
    ((m >>= fun a => pure (f a)) w).Traces history w' result ↔
      ∃ result₁, (m w).Traces history w' result₁ ∧ result = result₁.map f := by
  rw [traces_bind]
  constructor
  · rintro (⟨fault, h, rfl⟩ | ⟨first, second, w₁, a, rfl, hfirst, hsecond⟩)
    · exact ⟨.error fault, h, rfl⟩
    · obtain ⟨rfl, rfl, rfl⟩ := traces_pure.1 hsecond
      exact ⟨.ok a, by rwa [List.append_nil], rfl⟩
  · rintro ⟨fault | a, h, rfl⟩
    · exact .inl ⟨fault, h, rfl⟩
    · exact .inr ⟨history, [], w', a, (List.append_nil _).symm, h, traces_pure.2 ⟨rfl, rfl, rfl⟩⟩

theorem traces_mapFault {f : Fault → Fault} {m : Script α} {result : Except Fault α} :
    (mapFault f m w).Traces history w' result ↔
      ∃ result₁, (m w).Traces history w' result₁ ∧ result = result₁.mapError f := by
  constructor
  · intro h
    obtain ⟨first, second, w₁, result₁, rfl, hfirst, hsecond⟩ := Outcome.Traces.of_andThen h
    cases result₁ with
    | error fault =>
      obtain ⟨rfl, rfl, rfl⟩ := traces_throw.1 hsecond
      exact ⟨_, by rwa [List.append_nil], rfl⟩
    | ok a =>
      obtain ⟨rfl, rfl, rfl⟩ := traces_pure.1 hsecond
      exact ⟨_, by rwa [List.append_nil], rfl⟩
  · rintro ⟨result₁, hfirst, rfl⟩
    have h : (mapFault f m w).Traces (history ++ []) w' (result₁.mapError f) := by
      refine Outcome.Traces.andThen hfirst ?_
      cases result₁ with
      | error fault => exact traces_throw.2 ⟨rfl, rfl, rfl⟩
      | ok a => exact traces_pure.2 ⟨rfl, rfl, rfl⟩
    rwa [List.append_nil] at h

variable {P : Exchange → Prop} {requests : List Request}

/-- What a script goes on with after looking at the world only matters in that world. -/
theorem ends_look {f : World → Script α} {a : α} :
    ((world >>= f) w).Ends P requests w' a ↔ (f w w).Ends P requests w' a :=
  .rfl

theorem ends_enter {v : World} {f : Unit → Script α} {a : α} :
    ((enter v >>= f) w).Ends P requests w' a ↔ (f () v).Ends P requests w' a :=
  .rfl

/-- A sequence ends where its second part does, and makes the requests of both. -/
theorem ends_bind {m : Script α} {f : α → Script β} {b : β} :
    ((m >>= f) w).Ends P requests w' b ↔ ∃ first second w₁ a, requests = first ++ second ∧
      (m w).Ends P first w₁ a ∧ (f a w₁).Ends P second w' b := by
  constructor
  · rintro ⟨history, h, hwaits, rfl⟩
    obtain ⟨fault, -, hfault⟩ | ⟨first, second, w₁, a, rfl, hfirst, hsecond⟩ := traces_bind.1 h
    · cases hfault
    · rw [List.forall_mem_append] at hwaits
      exact ⟨_, _, w₁, a, List.filterMap_append, ⟨first, hfirst, hwaits.1, rfl⟩,
        ⟨second, hsecond, hwaits.2, rfl⟩⟩
  · rintro ⟨_, _, w₁, a, rfl, ⟨first, hfirst, hwaits, rfl⟩, ⟨second, hsecond, hwaits', rfl⟩⟩
    exact ⟨first ++ second, traces_bind.2 (.inr ⟨first, second, w₁, a, rfl, hfirst, hsecond⟩),
      List.forall_mem_append.2 ⟨hwaits, hwaits'⟩, List.filterMap_append⟩

theorem ends_mapFault {f : Fault → Fault} {m : Script α} {a : α} :
    (mapFault f m w).Ends P requests w' a ↔ (m w).Ends P requests w' a := by
  have hresult : ∀ {result : Except Fault α}, .ok a = result.mapError f ↔ result = .ok a := by
    intro result
    cases result with
    | error fault => exact ⟨nofun, nofun⟩
    | ok b => exact ⟨Eq.symm, Eq.symm⟩
  constructor
  · rintro ⟨history, h, hwaits⟩
    obtain ⟨result, h, hmapped⟩ := traces_mapFault.1 h
    exact ⟨history, hresult.1 hmapped ▸ h, hwaits⟩
  · rintro ⟨history, h, hwaits⟩
    exact ⟨history, traces_mapFault.2 ⟨.ok a, h, rfl⟩, hwaits⟩

/-- A request in a session that goes on changes nothing if the host leaves it going on. -/
theorem ends_ask {request : Request} {a : request.Reply} (hw : w.halted = false)
    (h : (ask request w).Ends Exchange.GoesOn requests w' a) : requests = [request] ∧ w' = w := by
  obtain ⟨history, h, hwaits, rfl⟩ := h
  obtain rfl := traces_ask.1 h
  exact ⟨rfl, (hwaits _ (List.mem_singleton_self _)).found_eq hw⟩

end Script

end FormBasic
