import FormBasic.Proofs.Script.Stages
import FormBasic.Proofs.Table
import FormBasic.Session.Schedule

/-!
# How scripts end

How a script ends depends on the replies to its requests, and on the worlds it finds when it is
resumed: the surroundings of a script may do anything in between, except change the handlers. It
does not depend on any bound. Handlers that call each other are entered as long as they are not
running already, and the depth with which turns are run is never what keeps one out.

## Main definitions

* `Surroundings` - what may happen while scripts wait for replies
* `Host.Answers`, `Host.surroundings` - hosts that always reply, as surroundings
* `Outcome.Settles` - how an outcome ends, without a bound on the depth of calls
* `idleHandlers` - the number of handlers that could still be entered

## Main statements

* `Turn.run_of_settles` - a turn gives the end that a script comes to
-/

namespace FormBasic

/-- What may happen while scripts wait for replies. Every request gets some reply in the end; until
then the world may change in any way, but the handlers stay what they are. -/
structure Surroundings (σ : Type) where
  /-- Whether a script that waits in a world may be resumed in another one with a reply. -/
  Replies : (request : Request) → World → σ → World → σ → Except Fault request.Reply → Prop
  handlers : ∀ {request w state w' state' reply}, Replies request w state w' state' reply →
    w'.handlers = w.handlers
  exists_reply : ∀ request w state, ∃ w' state' reply, Replies request w state w' state' reply

/-- Whether requests are failed with faults of some sort only. -/
def Surroundings.GivesOnly {σ : Type} (env : Surroundings σ) (P : Fault → Prop) : Prop :=
  ∀ {request w state w' state' reply}, env.Replies request w state w' state' reply →
    FailsOnly P reply

/-- Whether a host replies to every request at once. -/
def Host.Answers {σ : Type} (host : Host σ) : Prop :=
  ∀ request state, ∃ state' signals reply,
    host.receive request state = .answered state' signals reply

/-- A host that always replies, as surroundings: nothing happens but its signals. -/
def Host.surroundings {σ : Type} (host : Host σ) (hhost : host.Answers) : Surroundings σ where
  Replies request w state w' state' reply := ∃ signals,
    host.receive request state = .answered state' signals reply ∧ w' = w.signals signals
  handlers := by
    rintro request w state w' state' reply ⟨signals, -, rfl⟩
    exact (w.keep_signals signals).2
  exists_reply request w state := by
    obtain ⟨state', signals, reply, h⟩ := hhost request state
    exact ⟨w.signals signals, state', reply, signals, h, rfl⟩

/-- How an outcome ends when its requests are replied to and the handlers it calls run to their end,
except those that are running already. -/
inductive Outcome.Settles {σ : Type} (env : Surroundings σ) :
    {α : Type} → List Text → Outcome α → σ → World → σ → Except Fault α → Prop where
  | done {α : Type} {stack : List Text} (w : World) (a : α) (state : σ) :
    Settles env stack (.done w a) state w state (.ok a)
  | failed {α : Type} {stack : List Text} (w : World) (fault : Fault) (state : σ) :
    Settles env stack (.failed w fault : Outcome α) state w state (.error fault)
  | asking {α : Type} {stack : List Text} {w w₁ w' : World} {request : Request}
    {resume : World → Except Fault request.Reply → Outcome α} {state state₁ state' : σ}
    {reply : Except Fault request.Reply} {result : Except Fault α}
    (hreply : env.Replies request w state w₁ state₁ reply)
    (hrest : Settles env stack (resume w₁ reply) state₁ w' state' result) :
    Settles env stack (.asking w request resume) state w' state' result
  | skipped {α : Type} {stack : List Text} {w w' : World} {key : Text}
    {resume : World → Except Fault Bool → Outcome α} {state state' : σ} {result : Except Fault α}
    (hbody : Turn.body? w stack key = none)
    (hrest : Settles env stack (resume w (.ok false)) state w' state' result) :
    Settles env stack (.calling w key resume) state w' state' result
  | entered {α : Type} {stack : List Text} {w w₁ w' : World} {key : Text} {body : List Stmt}
    {resume : World → Except Fault Bool → Outcome α} {state state₁ state' : σ}
    {result₁ : Except Fault Unit} {result : Except Fault α}
    (hbody : Turn.body? w stack key = some body)
    (hrun : Settles env (key :: stack) (Script.block body w) state w₁ state₁ result₁)
    (hrest : Settles env stack (resume w₁ (result₁.map fun _ => true)) state₁ w' state' result) :
    Settles env stack (.calling w key resume) state w' state' result

namespace Outcome

variable {σ α β : Type} {env : Surroundings σ} {stack : List Text}

theorem settles_ended (w : World) (state : σ) (result : Except Fault α) :
    Settles env stack (ended w result) state w state result := by
  cases result with
  | ok a => exact .done w a state
  | error fault => exact .failed w fault state

/-- A sequence ends as its second part does from where the first part ended. -/
theorem Settles.andThen {o : Outcome α} {w₁ w₂ : World} {state state₁ state₂ : σ}
    {result₁ : Except Fault α} {result₂ : Except Fault β}
    (h : Settles env stack o state w₁ state₁ result₁)
    {next : World → Except Fault α → Outcome β}
    (hnext : Settles env stack (next w₁ result₁) state₁ w₂ state₂ result₂) :
    Settles env stack (o.andThen next) state w₂ state₂ result₂ := by
  induction h with
  | done => exact hnext
  | failed => exact hnext
  | asking hreply _ ih => exact .asking hreply (ih hnext)
  | skipped hbody _ ih => exact .skipped hbody (ih hnext)
  | entered hbody hrun _ _ ih => exact .entered hbody hrun (ih hnext)

theorem Settles.mapFault {m : Script α} {w w' : World} {state state' : σ} {result : Except Fault α}
    (h : Settles env stack (m w) state w' state' result) (f : Fault → Fault) :
    Settles env stack (Script.mapFault f m w) state w' state' (result.mapError f) := by
  refine h.andThen ?_
  cases result with
  | ok a => exact .done w' a state'
  | error fault => exact .failed w' (f fault) state'

/-- A script that ends leaves the handlers as they were. -/
theorem Settles.handlers {o : Outcome α} {start w : World} {state state' : σ}
    {result : Except Fault α} (h : Settles env stack o state w state' result)
    (ho : o.Tidy start) : w.handlers = start.handlers := by
  induction h generalizing start with
  | done => exact ho.keep.2
  | failed => exact ho.1.keep.2
  | asking hreply _ ih =>
    obtain ⟨⟨before, hbefore, rfl⟩, hresume⟩ := ho.of_asking
    rw [ih (hresume _ _), env.handlers hreply, ← hbefore.keep.2]
    rfl
  | skipped _ _ ih => rw [ih (ho.of_calling.2 _ _), ho.of_calling.1.keep.2]
  | entered _ _ _ ihrun ih =>
    rw [ih (ho.of_calling.2 _ _), ihrun (Script.tidy_block _ _), ho.of_calling.1.keep.2]

/-- What waits for a reply ends as it does once it has the reply. -/
theorem Settles.of_asking {request : Request} {w w' : World} {state state' : σ}
    {resume : World → Except Fault request.Reply → Outcome α} {result : Except Fault α}
    (h : Settles env stack (.asking w request resume) state w' state' result) :
    ∃ w₁ state₁ reply, env.Replies request w state w₁ state₁ reply ∧
      Settles env stack (resume w₁ reply) state₁ w' state' result := by
  cases h with
  | asking hreply hrest => exact ⟨_, _, _, hreply, hrest⟩

/-- The parts of a sequence that ends: its second part starts where the first part ended. -/
theorem Settles.of_andThen {o : Outcome α} {w₂ : World} {state state₂ : σ}
    {result₂ : Except Fault β} {next : World → Except Fault α → Outcome β}
    (h : Settles env stack (o.andThen next) state w₂ state₂ result₂) :
    ∃ w₁ state₁ result₁, Settles env stack o state w₁ state₁ result₁ ∧
      Settles env stack (next w₁ result₁) state₁ w₂ state₂ result₂ := by
  induction o generalizing state with
  | done w a => exact ⟨w, state, .ok a, .done w a state, h⟩
  | failed w fault => exact ⟨w, state, .error fault, .failed w fault state, h⟩
  | asking w request resume ih =>
    cases h with
    | asking hreply hrest =>
      obtain ⟨w₁, state₁, result₁, hfirst, hsecond⟩ := ih _ _ hrest
      exact ⟨w₁, state₁, result₁, .asking hreply hfirst, hsecond⟩
  | calling w key resume ih =>
    cases h with
    | skipped hbody hrest =>
      obtain ⟨w₁, state₁, result₁, hfirst, hsecond⟩ := ih _ _ hrest
      exact ⟨w₁, state₁, result₁, .skipped hbody hfirst, hsecond⟩
    | entered hbody hrun hrest =>
      obtain ⟨w₁, state₁, result₁, hfirst, hsecond⟩ := ih _ _ hrest
      exact ⟨w₁, state₁, result₁, .entered hbody hrun hfirst, hsecond⟩

/-- Where a host replies to every request, a script ends in one way. -/
theorem Settles.unique {host : Host σ} {hhost : host.Answers} {o : Outcome α} {state : σ}
    {w₁ w₂ : World} {state₁ state₂ : σ} {result₁ result₂ : Except Fault α}
    (h₁ : Settles (host.surroundings hhost) stack o state w₁ state₁ result₁)
    (h₂ : Settles (host.surroundings hhost) stack o state w₂ state₂ result₂) :
    w₁ = w₂ ∧ state₁ = state₂ ∧ result₁ = result₂ := by
  induction h₁ generalizing w₂ state₂ with
  | done => cases h₂ with | done => exact ⟨rfl, rfl, rfl⟩
  | failed => cases h₂ with | failed => exact ⟨rfl, rfl, rfl⟩
  | asking hreply _ ih =>
    cases h₂ with
    | asking hreply' hrest' =>
      obtain ⟨signals, hreceive, rfl⟩ := hreply
      obtain ⟨signals', hreceive', rfl⟩ := hreply'
      obtain ⟨rfl, rfl, rfl⟩ := Reception.answered.inj (hreceive.symm.trans hreceive')
      exact ih hrest'
  | skipped hbody _ ih =>
    cases h₂ with
    | skipped _ hrest' => exact ih hrest'
    | entered hbody' => exact absurd (hbody.symm.trans hbody') nofun
  | entered hbody _ _ ihrun ih =>
    cases h₂ with
    | skipped hbody' => exact absurd (hbody.symm.trans hbody') nofun
    | entered hbody' hrun' hrest' =>
      obtain rfl := Option.some.inj (hbody.symm.trans hbody')
      obtain ⟨rfl, rfl, rfl⟩ := ihrun hrun'
      exact ih hrest'

/-- A script ends with a fault that arose in it or that it was given. -/
theorem Settles.failsOnly {k : Conduct} (hk : k.Lenient) (hall : ∀ name, k.names name)
    (henv : env.GivesOnly k.faults) {o : Outcome α} {start w : World} {state state' : σ}
    {result : Except Fault α} (h : Settles env stack o state w state' result)
    (ho : o.Orderly k start) : FailsOnly k.faults result := by
  induction h generalizing start with
  | done => exact .ok _
  | failed => exact .error ho.2
  | asking hreply _ ih => exact ih (ho.2.1 _ _ (henv hreply))
  | skipped _ _ ih => exact ih (ho.2.1 _ _ (.ok false))
  | @entered _ _ w _ _ _ body _ _ _ _ _ _ _ _ _ ihrun ih =>
    have hbody := ihrun (Script.orderly_block hk body (fun name _ => hall name) w)
    exact ih (ho.2.1 _ _ (hbody.map _))

/-- A script ends with a value of the sort it can end with. -/
theorem Settles.yields {P : α → Prop} {o : Outcome α} {w : World} {state state' : σ}
    {result : Except Fault α} (h : Settles env stack o state w state' result) (ho : o.Yields P)
    {a : α} (ha : result = .ok a) : P a := by
  induction h with
  | done =>
    cases ha
    exact ho
  | failed => cases ha
  | asking _ _ ih => exact ih (ho _ _) ha
  | skipped _ _ ih => exact ih (ho _ _) ha
  | entered _ _ _ _ ih => exact ih (ho _ _) ha

end Outcome

/-- The number of handlers that are not running. -/
def idleHandlers (handlers : Table (List Stmt)) (stack : List Text) : Nat :=
  handlers.keys.countP fun key => !stack.contains key

theorem idleHandlers_le_size (handlers : Table (List Stmt)) (stack : List Text) :
    idleHandlers handlers stack ≤ handlers.size := by
  have hlength : handlers.keys.length = handlers.size := List.length_map _
  exact hlength ▸ List.countP_le_length

theorem countP_not_cons_lt {key : Text} {stack : List Text} (hstack : key ∉ stack) :
    ∀ {keys : List Text}, key ∈ keys →
      keys.countP (fun k => !(key :: stack).contains k) < keys.countP fun k => !stack.contains k
  | k :: keys, hmem => by
    have hle : keys.countP (fun k => !(key :: stack).contains k) ≤
        keys.countP fun k => !stack.contains k := by
      refine List.countP_mono_left fun k _ hk => ?_
      simp only [List.contains_cons, Bool.not_or, Bool.and_eq_true] at hk
      exact hk.2
    by_cases hk : k = key
    · have hin : (key :: stack).contains k = true := by simp [hk]
      have hout : stack.contains k = false := by simpa [hk] using hstack
      simp only [List.countP_cons, hin, hout, Bool.not_true, Bool.not_false, if_true,
        Bool.false_eq_true, if_false]
      omega
    · have hrest := countP_not_cons_lt hstack (List.mem_of_ne_of_mem (Ne.symm hk) hmem)
      have hhead : (key :: stack).contains k = stack.contains k := by simp [hk]
      simp only [List.countP_cons, hhead]
      omega

namespace Turn

/-- Entering a handler leaves fewer handlers that could be entered. -/
theorem idleHandlers_cons_lt {w : World} {stack : List Text} {key : Text} {body : List Stmt}
    (h : body? w stack key = some body) :
    idleHandlers w.handlers (key :: stack) < idleHandlers w.handlers stack := by
  unfold body? at h
  split at h
  · cases h
  · next hstack => exact countP_not_cons_lt (by simpa using hstack) (Table.mem_keys_of_get? h)

/-- Every script comes to an end: the handlers that are not running become fewer with every handler
that is entered. -/
theorem exists_settles {σ : Type} (env : Surroundings σ) {handlers : Table (List Stmt)}
    (stack : List Text) {α : Type} {start : World} {o : Outcome α} (ho : o.Tidy start)
    (hstart : start.handlers = handlers) (state : σ) :
    ∃ w state' result, Outcome.Settles env stack o state w state' result := by
  induction hidle : idleHandlers handlers stack using Nat.strongRecOn
    generalizing stack α start o state with
  | ind idle ih =>
    subst hidle
    induction o generalizing start state with
    | done w a => exact ⟨w, state, .ok a, .done w a state⟩
    | failed w fault => exact ⟨w, state, .error fault, .failed w fault state⟩
    | asking w request resume ihresume =>
      obtain ⟨⟨before, hbefore, rfl⟩, hresume⟩ := ho.of_asking
      obtain ⟨w₁, state₁, reply, hreply⟩ := env.exists_reply request (before.announced request) state
      have hw₁ : w₁.handlers = handlers := by
        rw [env.handlers hreply, ← hstart, ← hbefore.keep.2]
        rfl
      obtain ⟨w', state', result, h⟩ := ihresume w₁ reply (hresume _ _) hw₁ state₁
      exact ⟨w', state', result, .asking hreply h⟩
    | calling w key resume ihresume =>
      obtain ⟨hcalled, hresume⟩ := ho.of_calling
      have hw : w.handlers = handlers := hcalled.keep.2.trans hstart
      cases hbody : body? w stack key with
      | none =>
        obtain ⟨w', state', result, h⟩ := ihresume w _ (hresume _ _) hw state
        exact ⟨w', state', result, .skipped hbody h⟩
      | some body =>
        have hlt := idleHandlers_cons_lt hbody
        rw [hw] at hlt
        obtain ⟨w₁, state₁, result₁, hrun⟩ :=
          ih _ hlt (key :: stack) (Script.tidy_block body w) hw state rfl
        have hw₁ : w₁.handlers = handlers := (hrun.handlers (Script.tidy_block _ _)).trans hw
        obtain ⟨w', state', result, h⟩ := ihresume w₁ _ (hresume _ _) hw₁ state₁
        exact ⟨w', state', result, .entered hbody hrun h⟩

section Following

variable {σ α : Type} {host : Host σ} {hhost : host.Answers} {stack : List Text}
  {handlers : Table (List Stmt)} {enter : World → σ → Text → List Stmt → Turn σ}

/-- Whether `enter` runs handlers to the end that they come to. -/
def Enters {host : Host σ} (hhost : host.Answers) (handlers : Table (List Stmt)) (stack : List Text)
    (enter : World → σ → Text → List Stmt → Turn σ) : Prop :=
  ∀ {w w₁ : World} {state state₁ : σ} {key : Text} {body : List Stmt} {result : Except Fault Unit},
    w.handlers = handlers → body? w stack key = some body →
    Outcome.Settles (host.surroundings hhost) (key :: stack) (Script.block body w) state w₁ state₁
      result →
    enter w state key body = .finished w₁ state₁ (result.map fun _ => .nothing)

/-- A turn goes on from where an outcome ends. -/
theorem follow_of_settles {o : Outcome α} {start w' : World} {state state' : σ}
    {result : Except Fault α}
    (h : Outcome.Settles (host.surroundings hhost) stack o state w' state' result)
    (ho : o.Tidy start) (hstart : start.handlers = handlers)
    (henter : Enters hhost handlers stack enter) (next : World → Except Fault α → Outcome Value) :
    follow host stack enter (o.andThen next) state =
      follow host stack enter (next w' result) state' := by
  induction h generalizing start with
  | done => rfl
  | failed => rfl
  | @asking α stack w w₁ w' request resume state state₁ state' reply result hreply _ ih =>
    obtain ⟨⟨before, hbefore, rfl⟩, hresume⟩ := ho.of_asking
    have hkeep : w₁.handlers = handlers := by
      rw [(host.surroundings hhost).handlers hreply, ← hstart, ← hbefore.keep.2]
      rfl
    obtain ⟨signals, hreceive, rfl⟩ := hreply
    rw [Outcome.andThen, follow, hreceive]
    exact ih (hresume _ _) hkeep henter next
  | @skipped α stack w w' key resume state state' result hbody _ ih =>
    rw [Outcome.andThen, follow, hbody]
    exact ih (ho.of_calling.2 _ _) (ho.of_calling.1.keep.2.trans hstart) henter next
  | @entered α stack w w₁ w' key body resume state state₁ state' result₁ result hbody hrun _ _ ih =>
    have hw : w.handlers = handlers := ho.of_calling.1.keep.2.trans hstart
    have hw₁ : w₁.handlers = handlers := (hrun.handlers (Script.tidy_block _ _)).trans hw
    have hmap : (result₁.map fun _ => Value.nothing).map (fun _ => true) =
        result₁.map fun _ => true := by
      cases result₁ <;> rfl
    rw [Outcome.andThen, follow, hbody]
    simp only [henter hw hbody hrun, hmap]
    exact ih (ho.of_calling.2 _ _) hw₁ henter next

/-- The body of a handler ends as its block does. -/
theorem follow_bodyScript {body : List Stmt} {w w₁ : World} {state state₁ : σ}
    {result : Except Fault Unit} (hw : w.handlers = handlers)
    (h : Outcome.Settles (host.surroundings hhost) stack (Script.block body w) state w₁ state₁
      result)
    (henter : Enters hhost handlers stack enter) :
    follow host stack enter (bodyScript body w) state =
      .finished w₁ state₁ (result.map fun _ => .nothing) := by
  refine (follow_of_settles h (Script.tidy_block body w) hw henter _).trans ?_
  cases result <;> rfl

/-- A depth of one less than the handlers that could be entered keeps no handler out. -/
theorem enters_nested {depth : Nat} (h : idleHandlers handlers stack ≤ depth + 1) :
    Enters hhost handlers stack (nested host depth stack) := by
  induction depth generalizing stack with
  | zero =>
    intro w w₁ state state₁ key body result hw hbody hrun
    have hlt := idleHandlers_cons_lt hbody
    rw [hw] at hlt
    refine follow_bodyScript hw hrun ?_
    intro w' _ _ _ key' _ _ hw' hbody'
    -- no handler is left that could be entered from here
    have hlt' := idleHandlers_cons_lt hbody'
    rw [hw'] at hlt'
    omega
  | succ depth ih =>
    intro w w₁ state state₁ key body result hw hbody hrun
    have hlt := idleHandlers_cons_lt hbody
    rw [hw] at hlt
    exact follow_bodyScript hw hrun (ih (by omega))

/-- A script that comes to an end is run to that end in one turn. -/
theorem run_of_settles {script : Script α} {w w' : World} {state state' : σ}
    {result : Except Fault α}
    (h : Outcome.Settles (host.surroundings hhost) [] (script w) state w' state' result)
    (htidy : script.Tidy) (f : α → Value) :
    run host (Script.asValue f script) w state = .finished w' state' (result.map f) := by
  have henter : Enters hhost w.handlers [] fun u => nested host u.handlers.size [] u := by
    intro u u₁ state state₁ key body result hu hbody hrun
    simp only [hu]
    exact enters_nested (Nat.le_succ_of_le (idleHandlers_le_size _ _)) hu hbody hrun
  refine (follow_of_settles h (htidy w) rfl henter _).trans ?_
  cases result <;> rfl

end Following

end Turn

end FormBasic
