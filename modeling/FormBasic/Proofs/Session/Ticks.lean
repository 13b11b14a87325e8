import FormBasic.Proofs.Session.Steps
import FormBasic.Proofs.Session.Timers
import Mathlib.Data.List.Nodup

/-!
# Ticks come from one loop

Every tick loop has a number that no other loop of the session gets, and a loop that is cancelled is
marked by it. A timer gets a loop only while none is registered for it, and a loop leaves the
registry only by being cancelled; so the loops under way that are not cancelled are the registered
ones. A loop that is cancelled while it sleeps is left to sleep, and when it wakes it ends without a
tick. So there is one live loop for a timer at most, ticks are started by it alone, and however often
a timer is switched off and on again two of its ticks are an interval apart.

## Main definitions

* `Timers.Accounted` - a loop is the registered one of its timer, or it is cancelled
* `Timers.Ordered` - registered loops have numbers of their own and are not cancelled
* `World.Grown`, `Law.grown` - loops are registered under new numbers only, and none is lost
* `Session.liveLoops` - the loops of a timer that are not cancelled
* `Session.Ticks` - a loop starts a tick
* `Session.Numbered` - the numbers of loops are distinct, were all given, and are accounted for
* `Session.Rested` - a timer does not tick before an instant

## Main statements

* `Session.Numbered.exists_renumbers` - what a step does to the numbers of loops
* `Session.Numbered.step` - numbers stay distinct and accounted for
* `Session.Numbered.not_cancelled_iff` - the loops that are not cancelled are the registered ones
* `Session.Numbered.ticks` - a tick is under way because it was, or because a live loop started it
* `Session.Rested.step` - a rest lasts while the interval is long enough
* `Session.ticks_of_registered_loop` - all of this in every state that a session can reach
-/

namespace FormBasic

-- ════════════════════════════════════════════════════════════════════════════
-- Loops are registered or cancelled
-- ════════════════════════════════════════════════════════════════════════════

/-- Whether the loop of this number is the registered one of its timer, or cancelled. -/
def Timers.Accounted (t : Timers) (name : Text) (number : Nat) : Prop :=
  t.loops.get? (.text name) = some number ∨ number ∈ t.cancelled

/-- Whether the registered loops have numbers of their own and are not cancelled, and all numbers
that are in use were given. -/
structure Timers.Ordered (t : Timers) : Prop where
  nodup : t.loops.values.Nodup
  live : ∀ number ∈ t.loops.values, number ∉ t.cancelled
  registered_lt : ∀ number ∈ t.loops.values, number < t.next
  cancelled_lt : ∀ number ∈ t.cancelled, number < t.next

section Accounted

variable {w : World} {key : Key} {name : Text} {number : Nat}

/-- A timer that has no loop gets one; no other loop is lost. -/
theorem World.accounted_registerLoop (hfree : w.timers.loops.contains key = false)
    (h : w.timers.Accounted name number) : (w.registerLoop key).timers.Accounted name number := by
  refine h.imp_left fun hget => ?_
  change (w.timers.loops.set key w.timers.next).get? _ = _
  rw [Entries.get?_set, if_neg, hget]
  intro hkey
  obtain rfl := Key.eq_text_of_equal hkey
  rw [Entries.contains, hget] at hfree
  cases hfree

/-- A loop that leaves the registry is cancelled. -/
theorem World.accounted_cancelLoop (h : w.timers.Accounted name number) :
    (w.cancelLoop key).timers.Accounted name number := by
  obtain hget | hmem := h
  · by_cases hkey : key.equal (.text name) = true
    · obtain rfl := Key.eq_text_of_equal hkey
      refine .inr (List.mem_append_left _ ?_)
      rw [hget]
      exact List.mem_singleton_self number
    · refine .inl ?_
      change (w.timers.loops.erase key).get? _ = _
      rw [Entries.get?_erase, if_neg hkey, hget]
  · exact .inr (List.mem_append_right _ hmem)

theorem World.accounted_stopTimers (h : w.timers.Accounted name number) :
    w.stopTimers.timers.Accounted name number := by
  obtain hget | hmem := h
  · exact .inr (List.mem_append_left _ (Entries.mem_values_of_get? hget))
  · exact .inr (List.mem_append_right _ hmem)

theorem World.ordered_registerLoop (hfree : w.timers.loops.contains key = false)
    (h : w.timers.Ordered) : (w.registerLoop key).timers.Ordered := by
  have hvalues : (w.registerLoop key).timers.loops.values =
      w.timers.loops.values ++ [w.timers.next] := by
    change (w.timers.loops.set key w.timers.next).values = _
    rw [Entries.set_of_not_contains hfree, Entries.values, List.map_append]
    rfl
  constructor
  case nodup =>
    rw [hvalues, List.nodup_append]
    refine ⟨h.nodup, List.nodup_singleton _, fun a ha b hb => ?_⟩
    rw [List.mem_singleton.1 hb]
    exact (h.registered_lt a ha).ne
  case live =>
    intro number hnumber hcancelled
    rw [hvalues, List.mem_append, List.mem_singleton] at hnumber
    obtain hold | rfl := hnumber
    · exact h.live number hold hcancelled
    · exact (h.cancelled_lt _ hcancelled).ne rfl
  case registered_lt =>
    intro number hnumber
    rw [hvalues, List.mem_append, List.mem_singleton] at hnumber
    obtain hold | rfl := hnumber
    · exact (h.registered_lt number hold).trans (Nat.lt_succ_self _)
    · exact Nat.lt_succ_self _
  case cancelled_lt => exact fun number hmem => (h.cancelled_lt number hmem).trans (Nat.lt_succ_self _)

theorem World.ordered_cancelLoop (h : w.timers.Ordered) : (w.cancelLoop key).timers.Ordered := by
  have hvalues : (w.timers.loops.erase key).values.Sublist w.timers.loops.values :=
    List.filter_sublist.map _
  constructor
  case nodup => exact h.nodup.sublist hvalues
  case live =>
    intro number hnumber hcancelled
    rcases List.mem_append.1 hcancelled with hnew | hold
    · exact Entries.notMem_values_erase h.nodup (Option.mem_toList.1 hnew) hnumber
    · exact h.live number (hvalues.subset hnumber) hold
  case registered_lt => exact fun number hnumber => h.registered_lt number (hvalues.subset hnumber)
  case cancelled_lt =>
    intro number hcancelled
    rcases List.mem_append.1 hcancelled with hnew | hold
    · exact h.registered_lt number (Entries.mem_values_of_get? (Option.mem_toList.1 hnew))
    · exact h.cancelled_lt number hold

theorem World.ordered_stopTimers (h : w.timers.Ordered) : w.stopTimers.timers.Ordered where
  nodup := List.nodup_nil
  live _ hnumber := absurd hnumber List.not_mem_nil
  registered_lt _ hnumber := absurd hnumber List.not_mem_nil
  cancelled_lt number hcancelled :=
    (List.mem_append.1 hcancelled).elim (h.registered_lt number) (h.cancelled_lt number)

end Accounted

-- ════════════════════════════════════════════════════════════════════════════
-- Loops get new numbers
-- ════════════════════════════════════════════════════════════════════════════

/-- What may have become of tick loops since the timers were as given: loops were only registered
under new numbers, and loops that were registered then or later are so still, or are cancelled. -/
structure World.Grown (before : Timers) (w : World) : Prop where
  next : before.next ≤ w.timers.next
  created : ∀ e ∈ w.timers.created, before.next ≤ e.2 ∧ e.2 < w.timers.next
  nodup : (w.timers.created.map Prod.snd).Nodup
  loops : ∀ name number, w.timers.loops.get? (.text name) = some number →
    before.loops.get? (.text name) = some number ∨
      before.next ≤ number ∧ number < w.timers.next
  cancelled : ∀ number ∈ before.cancelled, number ∈ w.timers.cancelled
  accounted : ∀ name number, before.loops.get? (.text name) = some number ∨
    (.text name, number) ∈ w.timers.created → w.timers.Accounted name number
  ordered : w.timers.Ordered

section Grown

variable {before : Timers} {w w' : World}

theorem World.Grown.of_timers (h : w.Grown before) (htimers : w'.timers = w.timers) :
    w'.Grown before := by
  refine ⟨?_, ?_, ?_, ?_, ?_, ?_, ?_⟩
  all_goals rw [htimers]
  · exact h.next
  · exact h.created
  · exact h.nodup
  · exact h.loops
  · exact h.cancelled
  · exact h.accounted
  · exact h.ordered

/-- A loop gets the next number. -/
theorem World.Grown.registerLoop (h : w.Grown before) {key : Key}
    (hfree : w.timers.loops.contains key = false) : (w.registerLoop key).Grown before where
  next := h.next.trans (Nat.le_succ _)
  created := by
    intro e he
    rcases List.mem_append.1 he with he | he
    · obtain ⟨hfirst, hlast⟩ := h.created e he
      exact ⟨hfirst, hlast.trans (Nat.lt_succ_self _)⟩
    · rw [List.mem_singleton.1 he]
      exact ⟨h.next, Nat.lt_succ_self _⟩
  nodup := by
    change ((w.timers.created ++ [(key, w.timers.next)]).map Prod.snd).Nodup
    have hnew : w.timers.next ∉ w.timers.created.map Prod.snd := by
      intro hmem
      obtain ⟨e, he, heq⟩ := List.mem_map.1 hmem
      have hlt := (h.created e he).2
      rw [heq] at hlt
      exact Nat.lt_irrefl _ hlt
    rw [List.map_append, List.nodup_append]
    refine ⟨h.nodup, List.nodup_singleton _, fun a ha b hb => ?_⟩
    rw [List.map_singleton, List.mem_singleton] at hb
    rintro rfl
    rw [hb] at ha
    exact hnew ha
  loops := by
    intro name number hget
    change (w.timers.loops.set key w.timers.next).get? _ = _ at hget
    rw [Entries.get?_set] at hget
    split at hget
    · obtain rfl := Option.some.inj hget
      exact .inr ⟨h.next, Nat.lt_succ_self _⟩
    · obtain hold | ⟨hfirst, hlast⟩ := h.loops name number hget
      · exact .inl hold
      · exact .inr ⟨hfirst, hlast.trans (Nat.lt_succ_self _)⟩
  cancelled := h.cancelled
  accounted := by
    intro name number hnumber
    obtain hold | hnew := hnumber
    · exact accounted_registerLoop hfree (h.accounted name number (.inl hold))
    · rcases List.mem_append.1 hnew with hmem | hlast
      · exact accounted_registerLoop hfree (h.accounted name number (.inr hmem))
      · cases List.mem_singleton.1 hlast
        refine .inl ((Entries.get?_set _ _ _ _).trans (if_pos ?_))
        simp
  ordered := ordered_registerLoop hfree h.ordered

theorem World.Grown.cancelLoop (h : w.Grown before) (key : Key) :
    (w.cancelLoop key).Grown before where
  next := h.next
  created := h.created
  nodup := h.nodup
  loops := by
    intro name number hget
    change (w.timers.loops.erase key).get? _ = _ at hget
    rw [Entries.get?_erase] at hget
    split at hget
    · cases hget
    · exact h.loops name number hget
  cancelled number hcancelled := List.mem_append_right _ (h.cancelled number hcancelled)
  accounted name number hnumber := accounted_cancelLoop (h.accounted name number hnumber)
  ordered := ordered_cancelLoop h.ordered

theorem World.Grown.change (hchange : World.Change (fun _ => True) w w') (h : w.Grown before) :
    w'.Grown before := by
  cases hchange with
  | timer hsync =>
    obtain ⟨rfl, -⟩ | ⟨c, -, -, ⟨-, hfree, rfl⟩ | ⟨-, -, rfl⟩⟩ := World.synchronize_cases hsync
    · exact h
    · exact h.registerLoop hfree
    · exact h.cancelLoop _
  | started =>
    exact ⟨h.next, h.created, h.nodup, h.loops, h.cancelled, h.accounted,
      h.ordered.nodup, h.ordered.live, h.ordered.registered_lt, h.ordered.cancelled_lt⟩
  | _ => exact h.of_timers rfl

/-- Once the new loops are queued, they need not be kept. -/
theorem World.Grown.collect (h : w.Grown before) :
    World.Grown before { w with timers := { w.timers with created := [] } } where
  next := h.next
  created _ he := absurd he List.not_mem_nil
  nodup := List.nodup_nil
  loops := h.loops
  cancelled := h.cancelled
  accounted name number hnumber :=
    h.accounted name number (hnumber.imp_right fun hnew => absurd hnew List.not_mem_nil)
  ordered :=
    ⟨h.ordered.nodup, h.ordered.live, h.ordered.registered_lt, h.ordered.cancelled_lt⟩

theorem World.Grown.stop (h : w.Grown before) : World.Grown before w.stopTimers where
  next := h.next
  created _ he := absurd he List.not_mem_nil
  nodup := List.nodup_nil
  loops _ _ hget := by cases hget
  cancelled number hcancelled := List.mem_append_right _ (h.cancelled number hcancelled)
  accounted name number hnumber :=
    accounted_stopTimers
      (h.accounted name number (hnumber.imp_right fun hnew => absurd hnew List.not_mem_nil))
  ordered := ordered_stopTimers h.ordered

/-- What was so before is so when nothing was registered. -/
theorem World.grown_self (hcreated : w.timers.created = []) (hordered : w.timers.Ordered) :
    w.Grown w.timers := by
  refine ⟨le_rfl, fun e he => ?_, ?_, fun _ _ h => .inl h, fun _ h => h, fun name number h => ?_,
    hordered⟩
  · rw [hcreated] at he
    cases he
  · rw [hcreated]
    exact List.nodup_nil
  · rw [hcreated] at h
    exact .inl (h.resolve_right List.not_mem_nil)

end Grown

/-- What changes and signals keep is kept by a reception, and by the script that takes the reply. -/
theorem Reception.leaves_ofWorld {σ : Type} {P : World → Prop}
    (change : ∀ {w w' : World}, World.Change (fun _ => True) w w' → P w → P w')
    (signal : ∀ {w : World} (signal : Signal), P w → P (w.signal signal)) {request : Request}
    (r : Reception σ request) {waiting : Request → Prop} {w : World} (hw : P w) :
    r.Leaves (fun _ w _ => P w) (fun _ _ => True) waiting w := by
  have hsignals : ∀ (sent : List Signal) {w : World}, P w → P (w.signals sent) := by
    intro sent
    induction sent with
    | nil => exact id
    | cons first sent ih => exact fun hw => ih (signal first hw)
  have hchanges : ∀ {w w' : World}, World.Changes (fun _ => True) w w' → P w → P w' := by
    intro w w' h hw
    induction h with
    | refl => exact hw
    | tail _ hstep ih => exact change hstep ih
  cases r with
  | answered state sent reply =>
    exact hchanges (World.changes_served _ request reply) (hsignals sent hw)
  | held state sent hold release => exact ⟨hsignals sent hw, trivial⟩

/-- What holds of the world alone, whatever waits and however the host replies. -/
def Law.ofWorld {σ : Type} (P : World → Prop)
    (change : ∀ {w w' : World}, World.Change (fun _ => True) w w' → P w → P w')
    (signal : ∀ {w : World} (signal : Signal), P w → P (w.signal signal))
    (host : Host σ)
    (announced : ∀ {w : World} (request : Request), P w → P (w.announced request))
    (collect : ∀ {w : World}, P w → P { w with timers := { w.timers with created := [] } })
    (stop : ∀ {w : World}, P w → P w.stopTimers) :
    Law host where
  Holds _ w _ := P w
  Fair _ _ := True
  mono _ h := h
  change := change
  signal := signal
  collect := collect
  stop := stop
  receive request h := Reception.leaves_ofWorld change signal _ (announced request h)
  release _ _ h := Reception.leaves_ofWorld change signal _ h

/-- Tick loops are only registered under new numbers, and none is lost. -/
def Law.grown {σ : Type} (host : Host σ) (before : Timers) : Law host :=
  .ofWorld (World.Grown before) World.Grown.change
    (fun signal h => h.of_timers (by cases signal <;> rfl)) host (fun _ h => h.of_timers rfl)
    World.Grown.collect World.Grown.stop

-- ════════════════════════════════════════════════════════════════════════════
-- Loops under way
-- ════════════════════════════════════════════════════════════════════════════

/-- The number of a tick loop; none for other jobs. -/
def Job.number? {σ : Type} (job : Job σ) : Option Nat := job.loop?.map Prod.snd

namespace Session

variable {σ : Type} {host : Host σ} {s s' : Session σ}

/-- The numbers of the tick loops under way, cancelled ones included. -/
def loopNumbers (s : Session σ) : List Nat := s.jobs.filterMap Job.number?

/-- The tick loops of a timer that are under way and not cancelled. -/
def liveLoops (s : Session σ) (timer : Key) : List (Job σ) :=
  s.jobs.filter fun job =>
    match job.loop? with
    | some (key, number) => key.equal timer && !s.world.timers.cancelled.contains number
    | none => false

/-- Whether a tick of this number is under way. -/
def UnderWay (s : Session σ) (tick : Nat) : Prop :=
  ∃ job ∈ s.jobs, job.owner? = some (.tick tick)

/-- Whether the loop of this number starts a tick of its timer: it is not cancelled, the session is
not stopped, it is the registered one, and it queues the event and goes back to sleep. -/
def Ticks (s : Session σ) (timer : Key) (number : Nat) (s' : Session σ) : Prop :=
  s.loopTicks timer number = true ∧
    ∃ before after, s.ready = before ++ .wakeLoop timer number :: after ∧
      s' =
        (({ s with ready := before ++ after } : Session σ).startTick timer).sleepLoop timer number

-- ════════════════════════════════════════════════════════════════════════════
-- Jobs after a turn
-- ════════════════════════════════════════════════════════════════════════════

/-- After a turn there are the jobs that there were, the invocation itself and new loops. -/
theorem mem_jobs_conclude {owner : Owner} {boxes : List (Pending σ)} {turn : Turn σ} {job : Job σ}
    (h : job ∈ (s.conclude owner boxes turn).jobs) :
    job ∈ s.jobs ∨ job.owner? = some owner ∨
      ∃ e ∈ turn.world.timers.created, job = .beginLoop e.1 e.2 := by
  obtain ⟨front, back, result, spawned, ticks, hfront, hback, heq⟩ :=
    s.exists_conclude_eq owner boxes turn
  rw [heq] at h
  simp only [mem_jobs, List.mem_append, List.mem_map] at h ⊢
  obtain ((hmem | hmem) | ⟨e, hmem, rfl⟩) | ⟨e, hmem | hmem, rfl⟩ := h
  · exact .inr (.inl (hfront job hmem))
  · exact .inl (.inl hmem)
  · exact .inr (.inr ⟨e, hmem, rfl⟩)
  · exact .inl (.inr ⟨e, hmem, rfl⟩)
  · exact .inr (.inl (hback e hmem))

theorem mem_jobs_sleepLoop {timer : Key} {number : Nat} {job : Job σ}
    (h : job ∈ (s.sleepLoop timer number).jobs) :
    job ∈ s.jobs ∨ job = .wakeLoop timer number := by
  obtain heq | ⟨seconds, -, heq⟩ := s.sleepLoop_cases timer number
  all_goals rw [heq] at h
  · exact .inl h
  · simp only [mem_jobs, sleep, List.mem_append, List.mem_singleton] at h ⊢
    grind

/-- After the turn of a tick loop there are the loops that there were, and it may be among them. -/
theorem mem_jobs_work_loop {job job' : Job σ} {timer : Key} {number : Nat}
    (hjob : job.loop? = some (timer, number)) (h : job' ∈ (s.work host job).jobs)
    (hloop : job'.loop? ≠ none) : job' ∈ s.jobs ∨ job'.loop? = some (timer, number) := by
  have hslept : ∀ {s : Session σ}, job' ∈ (s.sleepLoop timer number).jobs →
      job' ∈ s.jobs ∨ job'.loop? = some (timer, number) := by
    intro s hmem
    refine (mem_jobs_sleepLoop hmem).imp_right ?_
    rintro rfl
    rfl
  cases job with
  | run | close => cases hjob
  | beginLoop =>
    cases hjob
    obtain heq | ⟨-, heq⟩ := s.work_beginLoop_cases host timer number
    all_goals rw [heq] at h
    · exact .inl h
    · exact hslept h
  | wakeLoop =>
    cases hjob
    obtain heq | ⟨-, heq⟩ := s.work_wakeLoop_cases host timer number
    all_goals rw [heq] at h
    · exact .inl h
    · refine (hslept h).imp_left fun hmem => ?_
      simp only [mem_jobs, startTick, List.mem_append, List.mem_singleton] at hmem ⊢
      obtain (hmem | rfl) | hmem := hmem
      · exact .inl hmem
      · exact absurd rfl hloop
      · exact .inr hmem

-- ════════════════════════════════════════════════════════════════════════════
-- Numbers
-- ════════════════════════════════════════════════════════════════════════════

theorem count_loopNumbers (s : Session σ) (n : Nat) :
    s.loopNumbers.count n = (s.ready.filterMap Job.number?).count n +
      ((s.sleeping.map Prod.snd).filterMap Job.number?).count n := by
  rw [loopNumbers, jobs, List.filterMap_append, List.count_append]

/-- What a step does to the numbers of tick loops: loops may go, and new ones come with new numbers;
a loop that was registered is so still or is cancelled, and so is a loop that is new. -/
structure Renumbers (s s' : Session σ) (fresh : List Nat) : Prop where
  created : s'.world.timers.created = []
  next : s.world.timers.next ≤ s'.world.timers.next
  loops : ∀ name number, s'.world.timers.loops.get? (.text name) = some number →
    s.world.timers.loops.get? (.text name) = some number ∨
      s.world.timers.next ≤ number ∧ number < s'.world.timers.next
  bound : ∀ n ∈ fresh, s.world.timers.next ≤ n ∧ n < s'.world.timers.next
  nodup : fresh.Nodup
  count : ∀ n, s'.loopNumbers.count n ≤ s.loopNumbers.count n + fresh.count n
  cancelled : ∀ n ∈ s.world.timers.cancelled, n ∈ s'.world.timers.cancelled
  kept : ∀ name number, s.world.timers.loops.get? (.text name) = some number →
    s'.world.timers.Accounted name number
  live : ∀ job ∈ s'.jobs, ∀ name number, job.loop? = some (.text name, number) →
    (∃ job' ∈ s.jobs, job'.loop? = some (.text name, number)) ∨
      s'.world.timers.Accounted name number

/-- A step that registers and cancels nothing brings no new numbers. -/
theorem renumbers_of_timers (hcreated : s.world.timers.created = [])
    (htimers : s'.world.timers = s.world.timers)
    (hcount : ∀ n, s'.loopNumbers.count n ≤ s.loopNumbers.count n)
    (hlive : ∀ job ∈ s'.jobs, ∀ name number, job.loop? = some (.text name, number) →
      ∃ job' ∈ s.jobs, job'.loop? = some (.text name, number)) : Renumbers s s' [] := by
  refine ⟨?_, ?_, fun _ _ h => .inl ?_, fun _ h => absurd h List.not_mem_nil, List.nodup_nil,
    hcount, fun n hn => ?_, fun _ _ h => .inl ?_, fun job hjob name number hloop => .inl ?_⟩
  · rw [htimers, hcreated]
  · rw [htimers]
  · rwa [htimers] at h
  · rwa [htimers]
  · rwa [htimers]
  · exact hlive job hjob name number hloop

/-- The loops that were registered in a turn are the new ones. -/
theorem renumbers_conclude {rest : Session σ} (hjobs : ∀ job ∈ rest.jobs, job ∈ s.jobs)
    (hcount : ∀ n, rest.loopNumbers.count n ≤ s.loopNumbers.count n) (owner : Owner)
    (boxes : List (Pending σ)) {turn : Turn σ} (hturn : turn.world.Grown s.world.timers) :
    Renumbers s (rest.conclude owner boxes turn) (turn.world.timers.created.map Prod.snd) := by
  have hlive : ∀ job ∈ (rest.conclude owner boxes turn).jobs, ∀ name number,
      job.loop? = some (.text name, number) →
      (∃ job' ∈ s.jobs, job'.loop? = some (.text name, number)) ∨
        turn.world.timers.Accounted name number := by
    intro job hjob name number hloop
    obtain hmem | howner | ⟨⟨key, number'⟩, he, rfl⟩ := mem_jobs_conclude hjob
    · exact .inl ⟨job, hjobs job hmem, hloop⟩
    · cases (Job.loop?_of_owner? howner).symm.trans hloop
    · cases hloop
      exact .inr (hturn.accounted name number' (.inr he))
  obtain ⟨front, back, result, spawned, ticks, hfront, hback, heq⟩ :=
    rest.exists_conclude_eq owner boxes turn
  rw [heq] at hlive ⊢
  refine ⟨rfl, hturn.next, hturn.loops, fun n hn => ?_, hturn.nodup, fun n => ?_,
    hturn.cancelled, fun name number hget => hturn.accounted name number (.inl hget), hlive⟩
  · obtain ⟨e, he, rfl⟩ := List.mem_map.1 hn
    exact hturn.created e he
  · have hnew : (turn.world.timers.created.map fun e => (.beginLoop e.1 e.2 : Job σ)).filterMap
        Job.number? = turn.world.timers.created.map Prod.snd := by
      rw [List.filterMap_map]
      exact congrFun (List.filterMap_eq_map (f := Prod.snd)) _
    have hnone : ∀ jobs : List (Job σ), (∀ job ∈ jobs, job.owner? = some owner) →
        jobs.filterMap Job.number? = [] := by
      intro jobs hjobs
      refine List.filterMap_eq_nil_iff.2 fun job hjob => ?_
      rw [Job.number?, Job.loop?_of_owner? (hjobs job hjob)]
      rfl
    have hslept : (back.map Prod.snd).filterMap Job.number? = [] := by
      refine hnone _ fun job hjob => ?_
      obtain ⟨e, he, rfl⟩ := List.mem_map.1 hjob
      exact hback e he
    have hrest := hcount n
    rw [count_loopNumbers] at hrest ⊢
    simp only [List.filterMap_append, List.map_append, List.count_append, hnone front hfront, hnew,
      hslept, List.count_nil]
    omega

/-- When a tick loop takes its turn it goes on under its number, if it goes on at all. -/
theorem count_work_loop {rest : Session σ} {job : Job σ} {timer : Key} {number : Nat}
    (hjob : job.loop? = some (timer, number)) :
    (rest.work host job).world = rest.world ∧ ∀ n, (rest.work host job).loopNumbers.count n ≤
      rest.loopNumbers.count n + [number].count n := by
  have hsleep : ∀ s : Session σ, (s.sleepLoop timer number).world = s.world ∧
      ∀ n, (s.sleepLoop timer number).loopNumbers.count n ≤
        s.loopNumbers.count n + [number].count n := by
    intro s
    obtain heq | ⟨seconds, -, heq⟩ := s.sleepLoop_cases timer number
    all_goals rw [heq]
    · exact ⟨rfl, fun n => Nat.le_add_right _ _⟩
    · refine ⟨rfl, fun n => ?_⟩
      rw [count_loopNumbers, count_loopNumbers, sleep]
      simp only [List.map_append, List.filterMap_append, List.count_append]
      exact le_of_eq (Nat.add_assoc _ _ _).symm
  have htick : ∀ n, (rest.startTick timer).loopNumbers.count n = rest.loopNumbers.count n := by
    intro n
    rw [count_loopNumbers, count_loopNumbers, startTick]
    simp only [List.filterMap_append, List.count_append]
    rfl
  cases job with
  | run | close => cases hjob
  | beginLoop =>
    cases hjob
    obtain heq | ⟨-, heq⟩ := rest.work_beginLoop_cases host timer number
    all_goals rw [heq]
    · exact ⟨rfl, fun n => Nat.le_add_right _ _⟩
    · exact hsleep rest
  | wakeLoop =>
    cases hjob
    obtain heq | ⟨-, heq⟩ := rest.work_wakeLoop_cases host timer number
    all_goals rw [heq]
    · exact ⟨rfl, fun n => Nat.le_add_right _ _⟩
    · refine ⟨(hsleep (rest.startTick timer)).1, fun n => ?_⟩
      rw [← htick n]
      exact (hsleep (rest.startTick timer)).2 n

/-- The numbers of the loops of a session are distinct and were all given, and every loop under way
is the registered one of its timer or cancelled. -/
structure Numbered (host : Host σ) (s : Session σ) : Prop where
  kept : s.Kept (Law.grown host {}) fun _ => True
  created : s.world.timers.created = []
  nodup : s.loopNumbers.Nodup
  bound : ∀ n ∈ s.loopNumbers, n < s.world.timers.next
  accounted : ∀ job ∈ s.jobs, ∀ name number, job.loop? = some (.text name, number) →
    s.world.timers.Accounted name number

/-- The numbers of loops, one job apart. -/
theorem count_loopNumbers_of_ready {before after : List (Job σ)} {job : Job σ}
    (hready : s.ready = before ++ job :: after) (n : Nat) :
    s.loopNumbers.count n =
      (loopNumbers { s with ready := before ++ after }).count n + job.number?.toList.count n := by
  rw [count_loopNumbers, count_loopNumbers, hready]
  simp only [List.filterMap_append, List.count_append]
  cases hnumber : job.number? with
  | none => simp [List.filterMap_cons_none hnumber]
  | some number =>
    rw [List.filterMap_cons_some hnumber, List.count_cons]
    simp only [Option.toList_some, List.count_singleton]
    omega

/-- A turn registers loops under new numbers only. -/
theorem Numbered.turn (hs : s.Numbered host) {before after : List (Job σ)} {job : Job σ}
    (hready : s.ready = before ++ job :: after) :
    ∃ fresh, Renumbers s (work host { s with ready := before ++ after } job) fresh := by
  have hrest := count_loopNumbers_of_ready hready
  have hjob := (hs.kept.jobs job (by simp [mem_jobs, hready])).of_fair
    (Law.grown host s.world.timers) fun _ _ h => h
  have hgrown : ∀ {Q : World → Prop} {turn : Turn σ} {waiting : Request → Prop},
      turn.Kept (Law.grown host s.world.timers) waiting Q → turn.world.Grown s.world.timers := by
    intro Q turn waiting h
    cases turn with
    | finished | held => exact h.1
  have hw : ∀ waiting, (Law.grown host s.world.timers).Holds waiting s.world s.state :=
    fun _ => World.grown_self hs.created hs.kept.world.ordered
  have hjobs : ∀ job' ∈ jobs { s with ready := before ++ after }, job' ∈ s.jobs := by
    intro job' hmem
    simp only [mem_jobs, hready, List.mem_append, List.mem_cons] at hmem ⊢
    grind
  have hinvocation : ∀ (owner : Owner) (boxes : List (Pending σ)) {turn : Turn σ},
      turn.world.Grown s.world.timers →
      ∃ fresh, Renumbers s (conclude { s with ready := before ++ after } owner boxes turn) fresh :=
    fun owner boxes turn hturn =>
      ⟨_, renumbers_conclude hjobs (fun n => (hrest n).symm ▸ Nat.le_add_right _ _) owner boxes
        hturn⟩
  have hloop : ∀ {timer : Key} {number : Nat}, job.loop? = some (timer, number) →
      ∃ fresh, Renumbers s (work host { s with ready := before ++ after } job) fresh := by
    intro timer number hloop
    obtain ⟨hworld, hcount⟩ := count_work_loop hloop
    refine ⟨[], renumbers_of_timers hs.created (by rw [hworld]) (fun n => ?_) ?_⟩
    · rw [hrest, Job.number?, hloop]
      exact hcount n
    · intro job' hjob' name number' hloop'
      obtain hmem | heq := mem_jobs_work_loop hloop hjob' (by simp [hloop'])
      · exact ⟨job', hjobs job' hmem, hloop'⟩
      · exact ⟨job, by simp [mem_jobs, hready], hloop.trans (heq.symm.trans hloop')⟩
  cases job with
  | run owner script boxes =>
    exact hinvocation owner boxes (hgrown (hjob.turn_run (hw fun _ => False)))
  | close owner event box boxes =>
    have hwaits := hw fun r => False ∨ requestsOf (box :: boxes) r
    exact hinvocation owner boxes (hgrown (hjob.turn_close hwaits))
  | beginLoop timer number => exact hloop rfl
  | wakeLoop timer number => exact hloop rfl

/-- A step registers loops under new numbers only. -/
theorem Numbered.exists_renumbers {calls : Script Value → Prop} (hs : s.Numbered host)
    (h : Step host calls s s') : ∃ fresh, Renumbers s s' fresh := by
  have hsame : s'.world.timers = s.world.timers →
      (∀ n, s'.loopNumbers.count n ≤ s.loopNumbers.count n) →
      (∀ job ∈ s'.jobs, job.loop? ≠ none → job ∈ s.jobs) → ∃ fresh, Renumbers s s' fresh := by
    intro htimers hcount hjobs
    refine ⟨[], renumbers_of_timers hs.created htimers hcount fun job hjob name number hloop => ?_⟩
    exact ⟨job, hjobs job hjob (by simp [hloop]), hloop⟩
  cases h with
  | turn hready => exact hs.turn hready
  | wake instant =>
    refine hsame rfl (fun n => le_of_eq ?_) fun job hjob _ => (s.perm_wake instant).mem_iff.1 hjob
    exact ((s.perm_wake instant).filterMap _).count_eq n
  | pass | results => exact hsame rfl (fun n => le_rfl) fun _ hjob _ => hjob
  | call hready =>
    refine hsame rfl (fun n => le_of_eq ?_) fun job hjob hloop => ?_
    · rw [count_loopNumbers_of_ready (s := { s with ready := _ }) rfl, ← hready]
      rfl
    · simp only [mem_jobs, hready, List.mem_append, List.mem_cons] at hjob ⊢
      obtain (hmem | rfl | hmem) | hmem := hjob
      · exact .inl (.inl hmem)
      · exact absurd rfl hloop
      · exact .inl (.inr hmem)
      · exact .inr hmem
  | signal signal =>
    exact hsame (by cases signal <;> rfl) (fun n => le_rfl) fun _ hjob _ => hjob
  | load => exact hsame rfl (fun n => le_rfl) fun _ hjob _ => hjob
  | stop =>
    refine ⟨[], rfl, le_rfl, fun _ _ h => ?_, fun _ h => ?_, List.nodup_nil, fun n => ?_,
      fun n hn => List.mem_append_right _ hn,
      fun name number hget => World.accounted_stopTimers (.inl hget),
      fun job hjob name number hloop => .inl ⟨job, ?_, hloop⟩⟩
    · cases h
    · cases h
    rotate_left
    · obtain hmem | ⟨e, hmem, he⟩ := mem_jobs.1 hjob
      · exact mem_jobs.2 (.inl (List.mem_filter.1 hmem).1)
      · exact mem_jobs.2 (.inr ⟨e, (List.mem_filter.1 hmem).1, he⟩)
    rw [count_loopNumbers, count_loopNumbers]
    have hready := (List.filter_sublist (p := fun job => !job.ofTimer) (l := s.ready)).filterMap
      Job.number?
    have hsleeping := ((List.filter_sublist (p := fun e => !e.2.ofTimer) (l := s.sleeping)).map
      Prod.snd).filterMap Job.number?
    exact (Nat.add_le_add (hready.count_le n) (hsleeping.count_le n)).trans (Nat.le_add_right _ _)

/-- A loop that is the registered one of its timer or cancelled stays so. -/
theorem Renumbers.accounted {fresh : List Nat} (h : Renumbers s s' fresh) {name : Text}
    {number : Nat} (haccounted : s.world.timers.Accounted name number) :
    s'.world.timers.Accounted name number :=
  haccounted.elim (h.kept name number) fun hcancelled => .inr (h.cancelled number hcancelled)

/-- Numbers stay distinct and accounted for. -/
theorem Numbered.step (hs : s.Numbered host) (h : Step host Script.Executed s s') :
    s'.Numbered host := by
  obtain ⟨fresh, hfresh⟩ := hs.exists_renumbers h
  have hnew : ∀ n ∈ fresh, n ∉ s.loopNumbers := fun n hn hold =>
    absurd (hs.bound n hold) (Nat.not_lt.2 (hfresh.bound n hn).1)
  refine ⟨?_, hfresh.created, List.nodup_iff_count_le_one.2 fun n => ?_, fun n hn => ?_,
    fun job hjob name number hloop => ?_⟩
  · cases h with
    | turn hready =>
      refine hs.kept.take ⟨rfl, rfl, rfl, fun j => ?_⟩
      simp only [mem_jobs, hready, List.mem_append, List.mem_cons]
      grind
    | wake instant => exact hs.kept.wake instant
    | pass | results => exact ⟨hs.kept.world, hs.kept.jobs⟩
    | call hready howner hscript =>
      obtain ⟨execution, rfl⟩ := hscript
      refine hs.kept.add hready ⟨execution.tidy_script, fun _ w => ?_, boxesKept_nil _ _⟩
      refine Outcome.reaches_any (fun w => ?_) _
      cases ‹Owner› <;> trivial
    | signal signal => exact ⟨(Law.grown host {}).signal signal hs.kept.world, hs.kept.jobs⟩
    | load => exact ⟨hs.kept.world.of_timers rfl, hs.kept.jobs⟩
    | stop => exact hs.kept.stop
  · have hcount := hfresh.count n
    have hold := List.nodup_iff_count_le_one.1 hs.nodup n
    have hone := List.nodup_iff_count_le_one.1 hfresh.nodup n
    by_cases hn : n ∈ fresh
    · rw [List.count_eq_zero_of_not_mem (hnew n hn)] at hcount
      omega
    · rw [List.count_eq_zero_of_not_mem hn] at hcount
      omega
  · have hcount := hfresh.count n
    have hpos := List.count_pos_iff.2 hn
    by_cases hmem : n ∈ fresh
    · exact (hfresh.bound n hmem).2
    · rw [List.count_eq_zero_of_not_mem hmem] at hcount
      exact (hs.bound n (List.count_pos_iff.1 (by omega))).trans_le hfresh.next
  · obtain ⟨job', hjob', hloop'⟩ | haccounted := hfresh.live job hjob name number hloop
    · exact hfresh.accounted (hs.accounted job' hjob' name number hloop')
    · exact haccounted

theorem Numbered.steps (hs : s.Numbered host) (h : Steps host Script.Executed s s') :
    s'.Numbered host := by
  induction h with
  | refl => exact hs
  | tail _ hstep ih => exact ih.step hstep

/-- A session begins without tick loops. -/
theorem numbered_fresh {w : World} (hloops : w.timers.loops = []) (hcreated : w.timers.created = [])
    (hcancelled : w.timers.cancelled = []) (state : σ) :
    Numbered host ({ world := w, state } : Session σ) := by
  have hordered : w.timers.Ordered := by
    refine ⟨?_, ?_, ?_, ?_⟩
    all_goals simp [hloops, hcancelled, Entries.values]
  refine ⟨⟨⟨Nat.zero_le _, fun e he => ?_, ?_, fun name number h => ?_, fun _ h => ?_,
    fun name number h => ?_, hordered⟩, fun job hjob => ?_⟩, hcreated, List.nodup_nil,
    fun n hn => ?_, fun job hjob => ?_⟩
  · rw [hcreated] at he
    cases he
  · rw [hcreated]
    exact List.nodup_nil
  · rw [hloops] at h
    cases h
  · cases h
  · rw [hcreated] at h
    obtain h | h := h <;> cases h
  · cases hjob
  · cases hn
  · cases hjob

/-- Among the loops under way, those that are not cancelled are the registered ones. -/
theorem Numbered.not_cancelled_iff (hs : s.Numbered host) {job : Job σ} (hjob : job ∈ s.jobs)
    {timer : Text} {number : Nat} (hloop : job.loop? = some (.text timer, number)) :
    number ∉ s.world.timers.cancelled ↔ s.world.timers.loops.get? (.text timer) = some number := by
  constructor
  · intro hlive
    exact (hs.accounted job hjob timer number hloop).resolve_right hlive
  · intro hregistered
    exact hs.kept.world.ordered.live number (Entries.mem_values_of_get? hregistered)

/-- No timer has two live loops. -/
theorem Numbered.length_liveLoops_le (hs : s.Numbered host) (timer : Text) :
    (s.liveLoops (.text timer)).length ≤ 1 := by
  have hnumber : ∀ job ∈ s.liveLoops (.text timer), ∃ number, job.number? = some number ∧
      s.world.timers.loops.get? (.text timer) = some number := by
    intro job hjob
    obtain ⟨hmem, hlive⟩ := List.mem_filter.1 hjob
    split at hlive
    · next key number hloop =>
      rw [Bool.and_eq_true, Bool.not_eq_true', ← Bool.not_eq_true, List.contains_iff_mem] at hlive
      obtain rfl := Key.eq_text_of_equal hlive.1
      exact ⟨number, by rw [Job.number?, hloop]; rfl, (hs.not_cancelled_iff hmem hloop).1 hlive.2⟩
    · cases hlive
  have hnodup : ((s.liveLoops (.text timer)).filterMap Job.number?).Nodup :=
    hs.nodup.sublist (List.filter_sublist.filterMap _)
  rcases hloops : s.liveLoops (.text timer) with _ | ⟨first, _ | ⟨second, rest⟩⟩
  · exact Nat.zero_le 1
  · exact le_rfl
  · rw [hloops] at hnumber hnodup
    obtain ⟨number, hfirst, hregistered⟩ := hnumber first List.mem_cons_self
    obtain ⟨number', hsecond, hregistered'⟩ :=
      hnumber second (List.mem_cons_of_mem _ List.mem_cons_self)
    obtain rfl := Option.some.inj (hregistered.symm.trans hregistered')
    rw [List.filterMap_cons_some hfirst, List.filterMap_cons_some hsecond] at hnodup
    exact absurd List.mem_cons_self (List.nodup_cons.1 hnodup).1

-- ════════════════════════════════════════════════════════════════════════════
-- Ticks
-- ════════════════════════════════════════════════════════════════════════════

/-- A turn goes on with a tick only if it is the tick's own, or a live loop's that starts it. -/
theorem underWay_of_turn {before after : List (Job σ)} {job : Job σ}
    (hready : s.ready = before ++ job :: after) {tick : Nat}
    (htick : (work host { s with ready := before ++ after } job).UnderWay tick) :
    s.UnderWay tick ∨ tick = s.nextTick ∧
      ∃ timer number, s.Ticks timer number (work host { s with ready := before ++ after } job) := by
  obtain ⟨job', hjob', howner⟩ := htick
  have hrest : job' ∈ jobs { s with ready := before ++ after } → s.UnderWay tick := by
    intro hmem
    refine ⟨job', ?_, howner⟩
    simp only [mem_jobs, hready, List.mem_append, List.mem_cons] at hmem ⊢
    grind
  have hinvocation : ∀ {owner : Owner} {boxes : List (Pending σ)} {turn : Turn σ},
      job.owner? = some owner →
      job' ∈ (conclude { s with ready := before ++ after } owner boxes turn).jobs →
      s.UnderWay tick := by
    intro owner boxes turn hown hmem
    obtain hmem | heq | ⟨e, -, rfl⟩ := mem_jobs_conclude hmem
    · exact hrest hmem
    · exact ⟨job, by simp [mem_jobs, hready], hown.trans (heq.symm.trans howner)⟩
    · cases howner
  have hloop : ∀ {timer : Key} {number : Nat} {s : Session σ},
      job' ∈ (s.sleepLoop timer number).jobs → job' ∈ s.jobs := by
    intro timer number s hmem
    refine (mem_jobs_sleepLoop hmem).resolve_right ?_
    rintro rfl
    cases howner
  cases job with
  | run => exact .inl (hinvocation rfl hjob')
  | close => exact .inl (hinvocation rfl hjob')
  | beginLoop timer number =>
    obtain heq | ⟨-, heq⟩ :=
      work_beginLoop_cases host { s with ready := before ++ after } timer number
    all_goals rw [heq] at hjob'
    · exact .inl (hrest hjob')
    · exact .inl (hrest (hloop hjob'))
  | wakeLoop timer number =>
    obtain heq | ⟨hticks, heq⟩ :=
      work_wakeLoop_cases host { s with ready := before ++ after } timer number
    all_goals rw [heq] at hjob' ⊢
    · exact .inl (hrest hjob')
    · have hmem := hloop hjob'
      simp only [mem_jobs, startTick, List.mem_append, List.mem_singleton] at hmem
      obtain (hmem | rfl) | hmem := hmem
      · exact .inl (hrest (mem_jobs.2 (.inl (List.mem_append.2 hmem))))
      · refine .inr ⟨?_, timer, number, hticks, before, after, hready, rfl⟩
        simpa [Job.owner?] using howner.symm
      · exact .inl (hrest (mem_jobs.2 (.inr hmem)))

/-- A tick is under way because it was, or because a live loop started it. -/
theorem underWay_of_step {calls : Script Value → Prop} (h : Step host calls s s') {tick : Nat}
    (htick : s'.UnderWay tick) :
    s.UnderWay tick ∨ tick = s.nextTick ∧ ∃ timer number, s.Ticks timer number s' := by
  have hold : (∀ job ∈ s'.jobs, job.owner? = some (.tick tick) → job ∈ s.jobs) →
      s.UnderWay tick := by
    intro hjobs
    obtain ⟨job, hjob, howner⟩ := htick
    exact ⟨job, hjobs job hjob howner, howner⟩
  cases h with
  | turn hready => exact underWay_of_turn hready htick
  | wake instant => exact .inl (hold fun job hjob _ => (s.perm_wake instant).mem_iff.1 hjob)
  | call hready howner hscript =>
    refine .inl (hold fun job hjob htick => ?_)
    simp only [mem_jobs, hready, List.mem_append, List.mem_cons] at hjob ⊢
    obtain (hmem | rfl | hmem) | hmem := hjob
    · exact .inl (.inl hmem)
    · cases Option.some.inj htick
      exact howner.elim
    · exact .inl (.inr hmem)
    · exact .inr hmem
  | stop =>
    refine .inl (hold fun job hjob _ => ?_)
    obtain hmem | ⟨e, hmem, he⟩ := mem_jobs.1 hjob
    · exact mem_jobs.2 (.inl (List.mem_filter.1 hmem).1)
    · exact mem_jobs.2 (.inr ⟨e, (List.mem_filter.1 hmem).1, he⟩)
  | _ => exact .inl (hold fun _ hjob _ => hjob)

/-- A tick is started in the turn of its loop. -/
theorem Ticks.step {calls : Script Value → Prop} {timer : Key} {number : Nat}
    (h : s.Ticks timer number s') : Step host calls s s' := by
  obtain ⟨hticks, before, after, hready, rfl⟩ := h
  have hturn : work host { s with ready := before ++ after } (.wakeLoop timer number) =
      (startTick { s with ready := before ++ after } timer).sleepLoop timer number := if_pos hticks
  rw [← hturn]
  exact .turn hready

/-- The loop that starts a tick is not cancelled, and it is the registered one; the session is not
stopped. -/
theorem Ticks.goesOn {timer : Key} {number : Nat} (h : s.Ticks timer number s') :
    number ∉ s.world.timers.cancelled ∧ s.world.stopped = false ∧
      s.world.timers.loops.get? timer = some number := by
  have hticks := h.1
  rw [loopTicks, loopGoesOn, Bool.and_eq_true, Bool.and_eq_true, beq_iff_eq] at hticks
  obtain ⟨⟨hlive, hstopped⟩, hregistered⟩ := hticks
  exact ⟨by simpa using hlive, by simpa using hstopped, hregistered⟩

theorem Ticks.registered {timer : Key} {number : Nat} (h : s.Ticks timer number s') :
    s.world.timers.loops.get? timer = some number := h.goesOn.2.2

/-- A loop that is cancelled stays so. -/
theorem Numbered.cancelled (hs : s.Numbered host) {number : Nat}
    (hcancelled : number ∈ s.world.timers.cancelled) (h : Steps host Script.Executed s s') :
    number ∈ s'.world.timers.cancelled := by
  induction h with
  | refl => exact hcancelled
  | tail hsteps hstep ih =>
    obtain ⟨fresh, hfresh⟩ := (hs.steps hsteps).exists_renumbers hstep
    exact hfresh.cancelled number ih

theorem mem_loopNumbers {job : Job σ} {timer : Key} {number : Nat} (hjob : job ∈ s.jobs)
    (hloop : job.loop? = some (timer, number)) : number ∈ s.loopNumbers := by
  refine List.mem_filterMap.2 ⟨job, hjob, ?_⟩
  rw [Job.number?, hloop]
  rfl

-- ════════════════════════════════════════════════════════════════════════════
-- The time between two ticks
-- ════════════════════════════════════════════════════════════════════════════

/-- One step of a session in which the interval of a timer is so many seconds or more. -/
def Paced (host : Host σ) (timer : Text) (seconds : Rat) (s s' : Session σ) : Prop :=
  Step host Script.Executed s s' ∧ ∀ time, s.timeToTick? (.text timer) = some time → seconds ≤ time

/-- Whether a timer does not tick before an instant: its live loop sleeps until then, or has yet to
begin. -/
structure Rested (timer : Text) (instant : Rat) (s : Session σ) : Prop where
  sleeping : ∀ e ∈ s.sleeping, ∀ number, e.2 = .wakeLoop (.text timer) number →
    s.world.timers.loops.get? (.text timer) = some number → instant ≤ e.1
  ready : ∀ number, .wakeLoop (.text timer) number ∈ s.ready →
    s.world.timers.loops.get? (.text timer) = some number → instant ≤ s.clock

/-- A rest lasts if the loops that are asleep were so, or sleep long enough, and those that are
awake were so, or slept long enough. -/
theorem Rested.of_renumbers {timer : Text} {instant : Rat} (h : s.Rested timer instant)
    (hs : s.Numbered host) {fresh : List Nat} (hfresh : Renumbers s s' fresh)
    (hclock : s.clock ≤ s'.clock)
    (hsleeping : ∀ e ∈ s'.sleeping, ∀ number, e.2 = .wakeLoop (.text timer) number →
      e ∈ s.sleeping ∨ instant ≤ e.1)
    (hready : ∀ number, .wakeLoop (.text timer) number ∈ s'.ready →
      .wakeLoop (.text timer) number ∈ s.ready ∨
        ∃ e ∈ s.sleeping, e.2 = .wakeLoop (.text timer) number ∧ e.1 ≤ s'.clock) :
    s'.Rested timer instant := by
  have hold : ∀ number, (.wakeLoop (.text timer) number : Job σ) ∈ s.jobs →
      s'.world.timers.loops.get? (.text timer) = some number →
      s.world.timers.loops.get? (.text timer) = some number := by
    intro number hmem hregistered
    refine (hfresh.loops timer number hregistered).resolve_right fun hnew => ?_
    exact absurd (hs.bound number (mem_loopNumbers hmem rfl)) (Nat.not_lt.2 hnew.1)
  refine ⟨fun e he number heq hregistered => ?_, fun number hmem hregistered => ?_⟩
  · obtain hmem | hlong := hsleeping e he number heq
    · have hlive := hold number (mem_jobs.2 (.inr ⟨e, hmem, heq⟩)) hregistered
      exact h.sleeping e hmem number heq hlive
    · exact hlong
  · obtain hmem | ⟨e, hmem, heq, hwoken⟩ := hready number hmem
    · exact (h.ready number hmem (hold number (mem_jobs.2 (.inl hmem)) hregistered)).trans hclock
    · have hregistered' := hold number (mem_jobs.2 (.inr ⟨e, hmem, heq⟩)) hregistered
      exact (h.sleeping e hmem number heq hregistered').trans hwoken

/-- A loop of the timer that goes to sleep sleeps for an interval. -/
theorem sleeping_sleepLoop {timer : Text} {seconds : Rat}
    (hpace : ∀ time, s.timeToTick? (.text timer) = some time → seconds ≤ time) {key : Key}
    {number : Nat} {e : Rat × Job σ} (he : e ∈ (s.sleepLoop key number).sleeping) {number' : Nat}
    (heq : e.2 = .wakeLoop (.text timer) number') : e ∈ s.sleeping ∨ s.clock + seconds ≤ e.1 := by
  obtain hsame | ⟨time, htime, hslept⟩ := s.sleepLoop_cases key number
  · exact .inl (hsame ▸ he)
  · rw [hslept] at he
    rcases List.mem_append.1 he with he | he
    · exact .inl he
    · obtain rfl := List.mem_singleton.1 he
      cases heq
      exact .inr (add_le_add le_rfl (hpace time htime))

theorem world_sleepLoop (s : Session σ) (timer : Key) (number : Nat) :
    (s.sleepLoop timer number).world = s.world := by
  obtain heq | ⟨seconds, -, heq⟩ := s.sleepLoop_cases timer number
  all_goals rw [heq]
  rfl

theorem ready_sleepLoop (s : Session σ) (timer : Key) (number : Nat) :
    (s.sleepLoop timer number).ready = s.ready := by
  obtain heq | ⟨seconds, -, heq⟩ := s.sleepLoop_cases timer number
  all_goals rw [heq]
  rfl

/-- What a turn does to the loops of a timer that have begun: they are as they were, or begin to
sleep for an interval. -/
theorem wakeLoops_work (host : Host σ) {timer : Text} {seconds : Rat}
    (hpace : ∀ time, s.timeToTick? (.text timer) = some time → seconds ≤ time) (job : Job σ) :
    (∀ e ∈ (s.work host job).sleeping, ∀ number, e.2 = .wakeLoop (.text timer) number →
      e ∈ s.sleeping ∨ s.clock + seconds ≤ e.1) ∧
    ∀ number, .wakeLoop (.text timer) number ∈ (s.work host job).ready →
      .wakeLoop (.text timer) number ∈ s.ready := by
  have hinvocation : ∀ (owner : Owner) (boxes : List (Pending σ)) (turn : Turn σ),
      (∀ e ∈ (s.conclude owner boxes turn).sleeping, ∀ number,
        e.2 = .wakeLoop (.text timer) number → e ∈ s.sleeping ∨ s.clock + seconds ≤ e.1) ∧
      ∀ number, .wakeLoop (.text timer) number ∈ (s.conclude owner boxes turn).ready →
        .wakeLoop (.text timer) number ∈ s.ready := by
    intro owner boxes turn
    obtain ⟨front, back, result, spawned, ticks, hfront, hback, heq⟩ :=
      s.exists_conclude_eq owner boxes turn
    rw [heq]
    refine ⟨fun e he number hjob => ?_, fun number hmem => ?_⟩
    · refine .inl ((List.mem_append.1 he).resolve_right fun hmem => ?_)
      have howner := hback e hmem
      rw [hjob] at howner
      cases howner
    · rcases List.mem_append.1 hmem with hmem | hmem
      · refine (List.mem_append.1 hmem).resolve_left fun hmem => ?_
        cases hfront _ hmem
      · obtain ⟨e, -, hjob⟩ := List.mem_map.1 hmem
        cases hjob
  cases job with
  | run owner script boxes => exact hinvocation owner boxes _
  | close owner event box boxes => exact hinvocation owner boxes _
  | beginLoop key number =>
    obtain heq | ⟨-, heq⟩ := s.work_beginLoop_cases host key number
    all_goals rw [heq]
    · exact ⟨fun e he _ _ => .inl he, fun _ h => h⟩
    · rw [ready_sleepLoop]
      exact ⟨fun e he _ hjob => sleeping_sleepLoop hpace he hjob, fun _ h => h⟩
  | wakeLoop key number =>
    obtain heq | ⟨-, heq⟩ := s.work_wakeLoop_cases host key number
    all_goals rw [heq]
    · exact ⟨fun e he _ _ => .inl he, fun _ h => h⟩
    · rw [ready_sleepLoop]
      refine ⟨fun e he _ hjob => sleeping_sleepLoop (s := s.startTick key) hpace he hjob, ?_⟩
      intro number' hmem
      refine (List.mem_append.1 hmem).resolve_right fun hmem => ?_
      cases List.mem_singleton.1 hmem

/-- A rest lasts while the interval is long enough. -/
theorem Rested.step {timer : Text} {instant seconds : Rat} (h : s.Rested timer instant)
    (hs : s.Numbered host) (hinstant : instant ≤ s.clock + seconds)
    (hstep : Paced host timer seconds s s') : s'.Rested timer instant := by
  obtain ⟨hstep, hpace⟩ := hstep
  obtain ⟨fresh, hfresh⟩ := hs.exists_renumbers hstep
  have hclock := hstep.clock_le
  cases hstep with
  | @turn before after job hready =>
    have hpace' : ∀ time,
        { s with ready := before ++ after }.timeToTick? (.text timer) = some time →
          seconds ≤ time := hpace
    obtain ⟨hsleeping, hawake⟩ := wakeLoops_work host hpace' job
    refine h.of_renumbers hs hfresh hclock (fun e he number heq => ?_) fun number hmem => .inl ?_
    · exact (hsleeping e he number heq).imp_right hinstant.trans
    · have hmem := hawake number hmem
      rw [hready]
      simp only [List.mem_append, List.mem_cons] at hmem ⊢
      grind
  | wake instant' =>
    refine h.of_renumbers hs hfresh hclock
      (fun e he _ _ => .inl (List.mem_filter.1 he).1) fun number hmem => ?_
    rcases List.mem_append.1 hmem with hmem | hmem
    · exact .inl hmem
    · obtain ⟨e, he, hjob⟩ := List.mem_map.1 hmem
      obtain ⟨hmem, hwoken⟩ := List.mem_filter.1 he
      refine .inr ⟨e, hmem, hjob, (of_decide_eq_true hwoken).trans ?_⟩
      change instant' ≤ if s.clock < instant' then instant' else s.clock
      split
      · exact le_rfl
      · next hpast => exact not_lt.1 hpast
  | call hready =>
    refine h.of_renumbers hs hfresh hclock (fun e he _ _ => .inl he) fun number hmem => .inl ?_
    rw [hready]
    simp only [List.mem_append, List.mem_cons] at hmem ⊢
    obtain hmem | heq | hmem := hmem
    · exact .inl hmem
    · cases heq
    · exact .inr hmem
  | stop =>
    exact h.of_renumbers hs hfresh hclock (fun e he _ _ => .inl (List.mem_filter.1 he).1)
      fun number hmem => .inl (List.mem_filter.1 hmem).1
  | _ =>
    exact h.of_renumbers hs hfresh hclock (fun e he _ _ => .inl he) fun number hmem => .inl hmem

/-- A tick begins a rest. -/
theorem Ticks.rested (hs : s.Numbered host) {timer : Text} {number : Nat} {seconds : Rat}
    (h : s.Ticks (.text timer) number s') (hpace : Paced host timer seconds s s') :
    s'.Rested timer (s.clock + seconds) := by
  have hregistered := h.registered
  obtain ⟨hlives, before, after, hready, rfl⟩ := h
  have hgone : ∀ {job : Job σ}, job = .wakeLoop (.text timer) number →
      job ∉ jobs { s with ready := before ++ after } := by
    rintro job rfl hmem
    have hcount := count_loopNumbers_of_ready hready number
    have hone := List.nodup_iff_count_le_one.1 hs.nodup number
    have hrest := List.count_pos_iff.2 (mem_loopNumbers hmem rfl)
    simp only [Job.number?, Job.loop?, Option.map_some, Option.toList_some,
      List.count_singleton_self] at hcount
    omega
  have hsame : ∀ {number' : Nat}, s.world.timers.loops.get? (.text timer) = some number' →
      number' = number := fun h => Option.some.inj (h.symm.trans hregistered)
  refine ⟨fun e he number' heq h => ?_, fun number' hmem h => ?_⟩
  · rw [world_sleepLoop] at h
    obtain rfl := hsame h
    refine (sleeping_sleepLoop (s := startTick { s with ready := before ++ after } (.text timer))
      hpace.2 he heq).resolve_left fun hmem => ?_
    exact hgone heq (mem_jobs.2 (.inr ⟨e, hmem, rfl⟩))
  · rw [world_sleepLoop] at h
    obtain rfl := hsame h
    rw [ready_sleepLoop] at hmem
    rcases List.mem_append.1 hmem with hmem | hmem
    · exact absurd (mem_jobs.2 (.inl hmem)) (hgone rfl)
    · cases List.mem_singleton.1 hmem

/-- Two ticks of a timer are an interval apart, whichever of its loops start them. -/
theorem Numbered.clock_le_of_ticks (hs : s.Numbered host) {timer : Text} {number number' : Nat}
    {seconds : Rat} {s₁ s₂ s₃ : Session σ} (hfirst : s.Ticks (.text timer) number s₁)
    (hpace : Paced host timer seconds s s₁)
    (hrun : Relation.ReflTransGen (Paced host timer seconds) s₁ s₂)
    (hsecond : s₂.Ticks (.text timer) number' s₃) : s.clock + seconds ≤ s₂.clock := by
  have hrested : s₂.Numbered host ∧ s.clock ≤ s₂.clock ∧
      s₂.Rested timer (s.clock + seconds) := by
    clear hsecond
    induction hrun with
    | refl => exact ⟨hs.step hpace.1, hpace.1.clock_le, hfirst.rested hs hpace⟩
    | tail _ hstep ih =>
      obtain ⟨hnumbered, hclock, hrested⟩ := ih
      refine ⟨hnumbered.step hstep.1, hclock.trans hstep.1.clock_le, ?_⟩
      exact hrested.step hnumbered (add_le_add hclock le_rfl) hstep
  have hregistered := hsecond.registered
  obtain ⟨-, before, after, hready, -⟩ := hsecond
  exact hrested.2.2.ready number' (by simp [hready]) hregistered

-- ════════════════════════════════════════════════════════════════════════════
-- Every state that a session can reach
-- ════════════════════════════════════════════════════════════════════════════

/-- In whatever order timers are switched, ticks and other handlers run and time passes, a timer has
one loop at most that is under way and not cancelled, and a loop under way is not cancelled exactly
if it is the registered one. A tick is started by a loop that is registered and not cancelled alone,
while the session is not stopped; a loop that is cancelled never starts one again; and two ticks of a
timer are an interval apart, whichever of its loops start them. -/
theorem ticks_of_registered_loop {w : World} (hloops : w.timers.loops = [])
    (hcreated : w.timers.created = []) (hnone : w.timers.cancelled = []) {state : σ}
    (hs : Steps host Script.Executed { world := w, state } s) :
    (∀ timer, (s.liveLoops (.text timer)).length ≤ 1) ∧
    (∀ timer number, ∀ job ∈ s.jobs, job.loop? = some (.text timer, number) →
      (number ∉ s.world.timers.cancelled ↔
        s.world.timers.loops.get? (.text timer) = some number)) ∧
    (∀ s' tick, Step host Script.Executed s s' → s'.UnderWay tick →
      s.UnderWay tick ∨ tick = s.nextTick ∧ ∃ timer number, s.Ticks timer number s' ∧
        number ∉ s.world.timers.cancelled ∧ s.world.stopped = false ∧
        s.world.timers.loops.get? timer = some number) ∧
    (∀ timer number, number ∈ s.world.timers.cancelled →
      ∀ s' s'', Steps host Script.Executed s s' → ¬ s'.Ticks timer number s'') ∧
    ∀ timer number number' seconds s₁ s₂ s₃, s.Ticks (.text timer) number s₁ →
      Paced host timer seconds s s₁ → Relation.ReflTransGen (Paced host timer seconds) s₁ s₂ →
      s₂.Ticks (.text timer) number' s₃ → s.clock + seconds ≤ s₂.clock := by
  have hnumbered : s.Numbered host := (numbered_fresh hloops hcreated hnone state).steps hs
  refine ⟨hnumbered.length_liveLoops_le, ?_, ?_, ?_, ?_⟩
  · exact fun timer number job hjob hloop => hnumbered.not_cancelled_iff hjob hloop
  · intro s' tick hstep hunderWay
    refine (underWay_of_step hstep hunderWay).imp_right ?_
    rintro ⟨rfl, timer, number, hticks⟩
    exact ⟨rfl, timer, number, hticks, hticks.goesOn⟩
  · intro timer number hcancelled s' s'' hrun htick
    exact htick.goesOn.1 (hnumbered.cancelled hcancelled hrun)
  · intro timer number number' seconds s₁ s₂ s₃ hfirst hpace hrun hsecond
    exact hnumbered.clock_le_of_ticks hfirst hpace hrun hsecond

end Session

/-- The lamp, started, switched off and on again while its loop sleeps. -/
def lampRelit : Session Rehearsal :=
  Session.play Rehearsal.silentHost { world := lamp, state := {} }
    [switch true, .perform 9 .start, switch false, switch true]

/-- The loop that slept while the lamp was switched off and on again is still under way, but it is
cancelled, only the new one is live, and the old one never starts a tick. -/
theorem Session.ticks_of_registered_loop_lamp :
    (lampRelit.liveLoops (.text "Lamp")).length = 1 ∧ 0 ∈ lampRelit.loopNumbers ∧
      0 ∈ lampRelit.world.timers.cancelled ∧
      ∀ s' s'', Session.Steps Rehearsal.silentHost Script.Executed lampRelit s' →
        ¬ s'.Ticks (.text "Lamp") 0 s'' := by
  have hrun : Session.Steps Rehearsal.silentHost Script.Executed { world := lamp, state := {} }
      lampRelit := Session.steps_play (by simp [switch, Move.InTurn]) _
  obtain ⟨hlive, -, -, hsilent, -⟩ := Session.ticks_of_registered_loop rfl rfl rfl hrun
  have hcancelled : 0 ∈ lampRelit.world.timers.cancelled := by decide +kernel
  exact ⟨le_antisymm (hlive _) (by decide +kernel), by decide +kernel, hcancelled,
    hsilent (.text "Lamp") 0 hcancelled⟩

end FormBasic
