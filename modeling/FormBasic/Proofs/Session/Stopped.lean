import FormBasic.Proofs.Session.Replay
import FormBasic.Proofs.Session.Steps
import FormBasic.Proofs.Session.Timers

/-!
# Stopped sessions

A stopped session can still be used: sources are loaded, statements and events are given to it, it
is started, paused and resumed, and time passes. None of this has any effect apart from what it is
loaded with. Statements are not run, events have no handler run for them, values that the user
changes are not written and no tick loop is registered; the host hears of sources that do not parse
and of nothing else.

## Main definitions

* `Entry` - what the user of a session may ask of it
* `World.Still` - stopped worlds that have kept their variables, components and console
* `Script.Quiet` - scripts that do nothing in such a world but report parse errors
* `Session.Idle` - stopped sessions in which nothing is under way but such scripts

## Main statements

* `Entry.quiet_script` - whatever is asked of a stopped session is quiet
* `Session.Idle.step` - a stopped session stays idle
* `Session.stop_is_final` - all of this after any run

## Design notes

A report of a parse error may be held by the host like any other request, and while it is an event
may be raised. So a quiet script may wait, and what is known of it is known of how it goes on from
any still world.
-/

namespace FormBasic

-- ════════════════════════════════════════════════════════════════════════════
-- What may be asked of a session
-- ════════════════════════════════════════════════════════════════════════════

/-- What the user of a session may ask of it. -/
inductive Entry where
  /-- Handlers are loaded from their sources. -/
  | loadHandlers (sources : List (Text × Text))
  /-- A module is loaded. -/
  | loadProgram (name source : Text)
  /-- Statements are run. -/
  | execute (name source : Text)
  /-- The first handler runs, and then the timers. -/
  | start
  /-- The handler of an event runs. -/
  | fire (key : Text)
  /-- A value that the user changed is written. -/
  | updateFromUser (component property : Text) (value : Value)

/-- The script of what is asked. -/
def Entry.script : Entry → Script Value
  | .loadHandlers sources => .asValue (fun _ => .nothing) (.loadHandlers sources)
  | .loadProgram name source => .asValue .bool (.loadProgram name source)
  | .execute name source => .asValue .bool (.executeSource name source)
  | .start => .asValue (fun _ => .nothing) .start
  | .fire key => .fireValue key
  | .updateFromUser component property value =>
    .asValue (fun _ => .nothing) (.updateFromUser component property value)

/-- Whether a script is that of something that may be asked. -/
def Script.Asked (script : Script Value) : Prop := ∃ entry : Entry, script = entry.script

/-- Whether a request reports a source that does not parse. -/
def Request.ReportsParseError (request : Request) : Prop :=
  ∃ (name : Text) (error : ParseError),
    request = .errorReport ("Parse error in " ++ name ++ ": " ++ error.message) error.line

-- ════════════════════════════════════════════════════════════════════════════
-- Still worlds
-- ════════════════════════════════════════════════════════════════════════════

/-- Whether a world is stopped without any tick loop, and is otherwise as it was except for what has
been loaded, the other flag and the mark of the start. -/
structure World.Still (before w : World) : Prop where
  stopped : w.stopped = true
  loops : w.timers.loops = []
  created : w.timers.created = []
  components : w.components = before.components
  globals : w.globals = before.globals
  console : w.console = before.console
  objects : w.objects = before.objects
  memory : w.memory = before.memory

section Still

variable {before w w' : World}

theorem World.Still.signal (h : World.Still before w) (signal : Signal) :
    World.Still before (w.signal signal) := by
  obtain ⟨hstopped, hloops, hcreated, hcomponents, hglobals, hconsole, hobjects, hmemory⟩ := h
  cases signal with
  | stop => exact ⟨rfl, hloops, hcreated, hcomponents, hglobals, hconsole, hobjects, hmemory⟩
  | pause | resume =>
    exact ⟨hstopped, hloops, hcreated, hcomponents, hglobals, hconsole, hobjects, hmemory⟩

theorem World.Still.signals (h : World.Still before w) (sent : List Signal) :
    World.Still before (w.signals sent) := by
  induction sent generalizing w with
  | nil => exact h
  | cons signal sent ih => exact ih (h.signal signal)

/-- Whatever is loaded, and whether or not the session is marked as started. -/
theorem World.Still.load (h : World.Still before w) (handlers : Table (List Stmt))
    (parseErrors : Table Text) (started : Bool) : World.Still before
      { w with handlers, parseErrors, timers := { w.timers with started } } :=
  ⟨h.stopped, h.loops, h.created, h.components, h.globals, h.console, h.objects, h.memory⟩

theorem World.Still.collect (h : World.Still before w) :
    World.Still before { w with timers := { w.timers with created := [] } } :=
  ⟨h.stopped, h.loops, rfl, h.components, h.globals, h.console, h.objects, h.memory⟩

/-- No loop is wanted in a stopped session, so none is registered. -/
theorem World.Still.synchronize (h : World.Still before w) {name : Key}
    (hsync : w.synchronize name = .ok w') : w' = w := by
  obtain ⟨rfl, -⟩ | ⟨c, -, -, ⟨hwanted, -⟩ | ⟨-, hrunning, -⟩⟩ := World.synchronize_cases hsync
  · rfl
  · rw [wantsLoop, h.stopped] at hwanted
    cases hwanted
  · rw [h.loops] at hrunning
    cases hrunning

theorem World.Still.stop (h : World.Still before w) : World.Still before w.stopTimers :=
  ⟨rfl, rfl, rfl, h.components, h.globals, h.console, h.objects, h.memory⟩

theorem World.still_stop (w : World) : w.Still w.stopTimers :=
  ⟨rfl, rfl, rfl, rfl, rfl, rfl, rfl, rfl⟩

end Still

-- ════════════════════════════════════════════════════════════════════════════
-- Quiet scripts
-- ════════════════════════════════════════════════════════════════════════════

/-- Whether an outcome does nothing in a still world but report parse errors, now and whenever it is
resumed. -/
def Outcome.Quiet {α : Type} (before : World) : Outcome α → Prop
  | .done w _ => World.Still before w
  | .failed w _ => World.Still before w
  | .asking w request resume => World.Still before w ∧ request.ReportsParseError ∧
      ∀ w reply, World.Still before w → (resume w reply).Quiet before
  | .calling _ _ _ => False

/-- Whether a script does nothing in a still world but report parse errors. -/
def Script.Quiet {α : Type} (before : World) (script : Script α) : Prop :=
  ∀ w, World.Still before w → (script w).Quiet before

section Quiet

variable {α β : Type} {before w : World}

namespace Script

theorem quiet_pure (a : α) : (pure a : Script α).Quiet before := fun _ h => h

theorem quiet_throw (fault : Fault) : (throw fault : Script α).Quiet before := fun _ h => h

theorem Quiet.bind {m : Script α} (hm : m.Quiet before) {f : α → Script β}
    (hf : ∀ a, (f a).Quiet before) : (m >>= f).Quiet before := by
  intro w hw
  have hquiet := hm w hw
  change ((m w).andThen _).Quiet before
  generalize m w = o at hquiet
  induction o with
  | done w a => exact hf a w hquiet
  | failed w fault => exact hquiet
  | asking w request resume ih =>
    obtain ⟨hasked, hrequest, hresume⟩ := hquiet
    exact ⟨hasked, hrequest, fun w reply hw => ih w reply (hresume w reply hw)⟩
  | calling => exact hquiet.elim

theorem Quiet.discard {m : Script α} (hm : m.Quiet before) :
    (discard m : Script Unit).Quiet before :=
  hm.bind fun _ => quiet_pure _

theorem Quiet.asValue {m : Script α} (hm : m.Quiet before) (f : α → Value) :
    (Script.asValue f m).Quiet before :=
  hm.bind fun _ => quiet_pure _

/-- What a script does with the world that it looks at only matters in still worlds. -/
theorem quiet_look {f : World → Script α}
    (h : ∀ w, World.Still before w → (f w w).Quiet before) : (world >>= f).Quiet before := h

theorem quiet_update {f : World → World}
    (h : ∀ w, World.Still before w → World.Still before (f w)) : (update f).Quiet before := h

theorem quiet_reportMalformed (name : Text) (error : ParseError) :
    (reportMalformed name error).Quiet before := by
  refine (quiet_update fun w hw => hw.load w.handlers _ w.timers.started).bind fun _ => ?_
  refine fun w hw => ⟨hw, ⟨name, error, rfl⟩, fun w reply hw => ?_⟩
  cases reply <;> exact hw

theorem quiet_parsed? (name : Text) (result : Except ParseFailure α) :
    (parsed? name result).Quiet before := by
  unfold parsed?
  split
  · exact quiet_pure _
  · exact quiet_throw _
  · exact (quiet_reportMalformed name _).bind fun _ => quiet_pure _

theorem quiet_setHandler (key : Text) (body : List Stmt) : (setHandler key body).Quiet before :=
  quiet_update fun w hw => hw.load _ w.parseErrors w.timers.started

theorem quiet_loadHandlers (sources : List (Text × Text)) :
    (loadHandlers sources).Quiet before := by
  induction sources with
  | nil => exact quiet_pure _
  | cons source sources ih =>
    refine (quiet_parsed? source.1 (parseBody source.2)).bind fun body => ?_
    cases body with
    | none => exact ih
    | some body =>
      exact (quiet_setHandler source.1 body).bind fun _ => ih.bind fun _ => quiet_pure _

theorem Quiet.forM {f : β → Script PUnit} (hf : ∀ b, (f b).Quiet before) (bs : List β) :
    (bs.forM f).Quiet before := by
  induction bs with
  | nil => exact quiet_pure _
  | cons b bs ih => exact (hf b).bind fun _ => ih

-- ════════════════════════════════════════════════════════════════════════════
-- What is asked of a stopped session
-- ════════════════════════════════════════════════════════════════════════════

/-- No statement of a block is run. -/
theorem block_of_stopped (hw : w.stopped = true) (body : List Stmt) :
    block body w = .done w () := by
  cases body with
  | nil =>
    rw [block]
    rfl
  | cons s rest =>
    have hhalted : w.halted = true := by rw [World.halted, hw, Bool.true_or]
    rw [block]
    change (if w.halted = true then pure () else (do exec s; block rest : Script Unit)) w = _
    rw [if_pos hhalted]
    rfl

theorem runBlock_of_stopped (hw : w.stopped = true) (name : Text) (body : List Stmt) :
    runBlock name body w = .done w true := by
  have hblock : (do block body; return true : Script Bool) w = .done w true := by
    change (block body w).andThen _ = _
    rw [block_of_stopped hw]
    rfl
  change (((do block body; return true : Script Bool) w).andThen _).andThen _ = _
  rw [hblock]
  rfl

/-- An event has no handler run for it. -/
theorem fire_of_stopped (hw : w.stopped = true) (key : Text) : fire key w = .done w false := by
  change (if w.stopped || !w.handlers.contains key then pure false
    else reporting key (call key)) w = _
  rw [hw]
  rfl

theorem fireValue_of_stopped (hw : w.stopped = true) (key : Text) :
    fireValue key w = .done w (.bool false) :=
  asValue_of_done (fire_of_stopped hw key) .bool

theorem quiet_runBlock (name : Text) (body : List Stmt) : (runBlock name body).Quiet before := by
  intro w hw
  rw [runBlock_of_stopped hw.stopped]
  exact hw

theorem quiet_fire (key : Text) : (fire key).Quiet before := by
  intro w hw
  rw [fire_of_stopped hw.stopped]
  exact hw

theorem quiet_fireValue (key : Text) : (fireValue key).Quiet before :=
  (quiet_fire key).asValue .bool

theorem quiet_synchronize (component : Key) : (synchronize component).Quiet before := by
  intro w hw
  rw [synchronize_apply]
  cases hsync : w.synchronize component with
  | ok w' => exact hw.synchronize hsync ▸ hw
  | error fault => exact hw

theorem quiet_start : start.Quiet before := by
  refine (quiet_update fun w hw => hw.load w.handlers w.parseErrors true).bind fun _ => ?_
  have hlast : (do (← world).components.keys.forM synchronize : Script Unit).Quiet before :=
    quiet_look fun w hw => Quiet.forM quiet_synchronize w.components.keys w hw
  refine quiet_look fun w hw => ?_
  cases firstHandler? w with
  | some key => exact (quiet_fire key).discard.bind (fun _ => hlast) w hw
  | none => exact hlast w hw

theorem quiet_updateFromUser (component property : Text) (value : Value) :
    (updateFromUser component property value).Quiet before := by
  refine quiet_look fun w hw => ?_
  rw [hw.stopped]
  exact hw

theorem quiet_executeSource (name source : Text) : (executeSource name source).Quiet before := by
  refine (quiet_parsed? name (parseBody source)).bind fun body => ?_
  cases body with
  | none => exact quiet_pure _
  | some body => exact quiet_runBlock name body

theorem quiet_loadProgram (name source : Text) : (loadProgram name source).Quiet before := by
  refine (quiet_parsed? name (Program.parse source)).bind fun program => ?_
  cases program with
  | none => exact quiet_pure _
  | some program =>
    have hset : ∀ e : Text × List Stmt, (setHandler e.1 e.2).Quiet before :=
      fun e => quiet_setHandler e.1 e.2
    refine (Quiet.forM hset program.handlers.entries).bind fun _ => ?_
    exact (quiet_runBlock name program.declarations).discard.bind fun _ => quiet_pure _

end Script

/-- Whatever is asked of a stopped session is quiet. -/
theorem Entry.quiet_script (entry : Entry) : entry.script.Quiet before := by
  cases entry with
  | loadHandlers sources => exact (Script.quiet_loadHandlers sources).asValue _
  | loadProgram name source => exact (Script.quiet_loadProgram name source).asValue _
  | execute name source => exact (Script.quiet_executeSource name source).asValue _
  | start => exact Script.quiet_start.asValue _
  | fire key => exact Script.quiet_fireValue key
  | updateFromUser component property value =>
    exact (Script.quiet_updateFromUser component property value).asValue _

end Quiet

-- ════════════════════════════════════════════════════════════════════════════
-- Quiet turns
-- ════════════════════════════════════════════════════════════════════════════

/-- Whether only reports of parse errors were added to a log. -/
def Reported (log log' : List Request) : Prop :=
  ∃ reports, log' = log ++ reports ∧ ∀ r ∈ reports, r.ReportsParseError

theorem reported_self (log : List Request) : Reported log log :=
  ⟨[], (List.append_nil log).symm, fun _ h => absurd h List.not_mem_nil⟩

theorem Reported.concat {log log' : List Request} (h : Reported log log') {request : Request}
    (hrequest : request.ReportsParseError) : Reported log (log' ++ [request]) := by
  obtain ⟨reports, rfl, hreports⟩ := h
  refine ⟨reports ++ [request], List.append_assoc _ _ _, fun r hr => ?_⟩
  rcases List.mem_append.1 hr with hr | hr
  · exact hreports r hr
  · exact List.mem_singleton.1 hr ▸ hrequest

section Turns

variable {σ : Type} {host : Host σ} {before w : World} {log : List Request}

/-- Whether a held invocation of a quiet script goes on quietly: it has no callers, and the host
does not write anything down when it looks at the request again. -/
structure Pending.Quiet (before : World) (p : Pending (σ × List Request)) : Prop where
  resume : ∀ w reply, World.Still before w → (p.resume w reply).Quiet before
  frames : p.frames = []
  release : ∀ event state, (p.release event state).Keeps state.2

/-- Whether a turn leaves the world still and the log with reports of parse errors at most. -/
def Turn.Quiet (before : World) (log : List Request) : Turn (σ × List Request) → Prop
  | .finished w state _ => World.Still before w ∧ Reported log state.2
  | .held w state pending => World.Still before w ∧ Reported log state.2 ∧ pending.Quiet before

/-- A quiet outcome makes a quiet turn; it enters no handler. -/
theorem Turn.quiet_follow {stack : List Text}
    {enter : World → σ × List Request → Text → List Stmt → Turn (σ × List Request)}
    {o : Outcome Value} (ho : o.Quiet before) {state : σ × List Request}
    (hlog : Reported log state.2) : (follow host.noting stack enter o state).Quiet before log := by
  induction o generalizing state with
  | done w value => exact ⟨ho, hlog⟩
  | failed w fault => exact ⟨ho, hlog⟩
  | asking w request resume ih =>
    obtain ⟨hw, hrequest, hresume⟩ := ho
    have hlog' := hlog.concat hrequest
    have hkeeps : (host.noting.receive request state).Keeps (state.2 ++ [request]) :=
      Reception.keeps_noting _ _
    rw [follow]
    cases hr : host.noting.receive request state with
    | answered state' sent reply =>
      rw [hr] at hkeeps
      refine ih _ reply (hresume _ reply (hw.signals sent)) ?_
      rwa [show state'.2 = _ from hkeeps]
    | held state' sent hold release =>
      rw [hr] at hkeeps
      obtain ⟨hstate, hrelease⟩ := hkeeps
      refine ⟨hw.signals sent, ?_, hresume, rfl, hrelease⟩
      rwa [hstate]
  | calling => exact ho.elim

theorem Turn.quiet_run {script : Script Value} (hscript : script.Quiet before)
    (hw : World.Still before w) {state : σ × List Request} (hlog : Reported log state.2) :
    (run host.noting script w state).Quiet before log :=
  quiet_follow (hscript w hw) hlog

/-- The next turn of a held invocation is quiet too. -/
theorem Pending.quiet_next {p : Pending (σ × List Request)} (hp : p.Quiet before)
    (event : Except Fault Unit) (hw : World.Still before w) {state : σ × List Request}
    (hlog : Reported log state.2) : (p.next host.noting event w state).Quiet before log := by
  have hkeeps := hp.release event state
  rw [Pending.next, hp.frames]
  cases hr : p.release event state with
  | answered state' sent reply =>
    rw [hr] at hkeeps
    refine Turn.quiet_follow (hp.resume _ reply (hw.signals sent)) ?_
    rwa [show state'.2 = _ from hkeeps]
  | held state' sent hold release =>
    rw [hr] at hkeeps
    obtain ⟨hstate, hrelease⟩ := hkeeps
    refine ⟨hw.signals sent, ?_, hp.resume, rfl, hrelease⟩
    rwa [hstate]

end Turns

-- ════════════════════════════════════════════════════════════════════════════
-- Idle sessions
-- ════════════════════════════════════════════════════════════════════════════

section Idle

variable {σ : Type} {host : Host σ} {before : World} {log : List Request}

/-- Whether a job is an invocation of a quiet script, begun from outside. -/
def Job.Quiet (before : World) : Job (σ × List Request) → Prop
  | .run owner script boxes =>
    owner.Outside ∧ script.Quiet before ∧ ∀ box ∈ boxes, box.Quiet before
  | .close owner _ box boxes => owner.Outside ∧ ∀ b ∈ box :: boxes, b.Quiet before
  | .beginLoop _ _ => False
  | .wakeLoop _ _ => False

theorem Job.Quiet.not_ofTimer {job : Job (σ × List Request)} (h : job.Quiet before) :
    job.ofTimer = false := by
  cases job with
  | run owner | close owner =>
    cases owner with
    | tick => exact h.1.elim
    | _ => rfl
  | beginLoop | wakeLoop => exact h.elim

namespace Session

/-- Whether a session is stopped, nothing is under way in it but quiet scripts, and only reports of
parse errors were added to the log of the host. -/
structure Idle (before : World) (log : List Request) (nextTick : Nat)
    (s : Session (σ × List Request)) : Prop where
  world : World.Still before s.world
  log : Reported log s.state.2
  jobs : ∀ job ∈ s.jobs, job.Quiet before
  ticks : s.ticks = []
  nextTick : s.nextTick = nextTick

variable {s s' : Session (σ × List Request)} {nextTick : Nat}

theorem Idle.of_eq (h : s.Idle before log nextTick) (hworld : World.Still before s'.world)
    (hlog : Reported log s'.state.2) (hjobs : ∀ job ∈ s'.jobs, job ∈ s.jobs ∨ job.Quiet before)
    (hticks : s'.ticks = s.ticks) (hnext : s'.nextTick = s.nextTick) :
    s'.Idle before log nextTick :=
  ⟨hworld, hlog, fun job hjob => (hjobs job hjob).elim (h.jobs job) id, hticks.trans h.ticks,
    hnext.trans h.nextTick⟩

theorem Idle.first (h : s.Idle before log nextTick) {job : Job (σ × List Request)}
    (hjob : job.Quiet before) : (s.first job).Idle before log nextTick := by
  refine h.of_eq h.world h.log (fun j hj => ?_) rfl rfl
  simp only [mem_jobs, Session.first, List.mem_cons] at hj ⊢
  grind

theorem Idle.sleep (h : s.Idle before log nextTick) (seconds : Rat) {job : Job (σ × List Request)}
    (hjob : job.Quiet before) : (s.sleep seconds job).Idle before log nextTick := by
  refine h.of_eq h.world h.log (fun j hj => ?_) rfl rfl
  simp only [mem_jobs, Session.sleep, List.mem_append, List.mem_singleton] at hj ⊢
  grind

/-- A quiet turn leaves a session idle. -/
theorem Idle.conclude (h : s.Idle before log nextTick) {owner : Owner} (howner : owner.Outside)
    {boxes : List (Pending (σ × List Request))} (hboxes : ∀ box ∈ boxes, box.Quiet before)
    {turn : Turn (σ × List Request)} (hturn : turn.Quiet before log) :
    (s.conclude owner boxes turn).Idle before log nextTick := by
  have hcollect : ∀ {w : World} {state : σ × List Request}, World.Still before w →
      Reported log state.2 →
      Idle before log nextTick (Session.collect { s with world := w, state }) := by
    intro w state hw hlog
    refine h.of_eq hw.collect hlog (fun job hjob => .inl ?_) rfl rfl
    simpa [mem_jobs, Session.collect, hw.created] using hjob
  cases turn with
  | finished w state result =>
    have hs := hcollect hturn.1 hturn.2
    cases boxes with
    | nil =>
      cases owner with
      | command | spawned => exact ⟨hs.world, hs.log, hs.jobs, hs.ticks, hs.nextTick⟩
      | tick => exact howner.elim
    | cons box boxes => exact hs.first ⟨howner, hboxes⟩
  | held w state box =>
    obtain ⟨hw, hlog, hbox⟩ := hturn
    have hs := hcollect hw hlog
    have hall : ∀ b ∈ box :: boxes, b.Quiet before := List.forall_mem_cons.2 ⟨hbox, hboxes⟩
    unfold Session.conclude
    simp only
    split
    · next seconds hhold => exact hs.sleep seconds ⟨howner, hall⟩
    · next key hhold => exact hs.first ⟨howner, Script.quiet_fireValue key, hall⟩

/-- A job takes its turn quietly, whichever it is. -/
theorem Idle.work (h : s.Idle before log nextTick) {job : Job (σ × List Request)}
    (hjob : job.Quiet before) : (s.work host.noting job).Idle before log nextTick := by
  cases job with
  | run owner script boxes =>
    obtain ⟨howner, hscript, hboxes⟩ := hjob
    exact h.conclude howner hboxes (Turn.quiet_run hscript h.world h.log)
  | close owner event box boxes =>
    obtain ⟨howner, hboxes⟩ := hjob
    obtain ⟨hbox, hboxes⟩ := List.forall_mem_cons.1 hboxes
    exact h.conclude howner hboxes (Pending.quiet_next hbox event h.world h.log)
  | beginLoop | wakeLoop => exact hjob.elim

/-- A stopped session stays idle. -/
theorem Idle.step (h : s.Idle before log nextTick) (hstep : Step host.noting Script.Asked s s') :
    s'.Idle before log nextTick := by
  cases hstep with
  | @turn front back job hready =>
    have hrest : Idle before log nextTick { s with ready := front ++ back } := by
      refine h.of_eq h.world h.log (fun j hj => .inl ?_) rfl rfl
      simp only [mem_jobs, hready, List.mem_append, List.mem_cons] at hj ⊢
      grind
    exact hrest.work (h.jobs job (by simp [mem_jobs, hready]))
  | wake instant =>
    exact h.of_eq h.world h.log (fun j hj => .inl ((s.perm_wake instant).mem_iff.1 hj)) rfl rfl
  | call hready howner hscript =>
    obtain ⟨entry, rfl⟩ := hscript
    refine h.of_eq h.world h.log (fun j hj => ?_) rfl rfl
    simp only [mem_jobs, hready, List.mem_append, List.mem_cons] at hj ⊢
    obtain (hmem | rfl | hmem) | hmem := hj
    · exact .inl (.inl (.inl hmem))
    · exact .inr ⟨howner, entry.quiet_script, fun _ hbox => absurd hbox List.not_mem_nil⟩
    · exact .inl (.inl (.inr hmem))
    · exact .inl (.inr hmem)
  | signal signal => exact ⟨h.world.signal signal, h.log, h.jobs, h.ticks, h.nextTick⟩
  | load handlers parseErrors =>
    exact ⟨h.world.load handlers parseErrors s.world.timers.started, h.log, h.jobs, h.ticks,
      h.nextTick⟩
  | stop =>
    refine ⟨h.world.stop, h.log, fun job hjob => h.jobs job ?_, rfl, h.nextTick⟩
    obtain hmem | ⟨e, hmem, he⟩ := mem_jobs.1 hjob
    · exact mem_jobs.2 (.inl (List.mem_filter.1 hmem).1)
    · exact mem_jobs.2 (.inr ⟨e, (List.mem_filter.1 hmem).1, he⟩)
  | pass | results => exact ⟨h.world, h.log, h.jobs, h.ticks, h.nextTick⟩

theorem Idle.steps (h : s.Idle before log nextTick) (hsteps : Steps host.noting Script.Asked s s') :
    s'.Idle before log nextTick := by
  induction hsteps with
  | refl => exact h
  | tail _ hstep ih => exact ih.step hstep

/-- Whether no handler is suspended in a session, ticks apart: whatever else is to run has not
begun. -/
def Unsuspended {σ : Type} (s : Session σ) : Prop :=
  ∀ job ∈ s.jobs, job.ofTimer = true ∨
    ∃ (owner : Owner) (entry : Entry), owner.Outside ∧ job = .run owner entry.script []

/-- A session in which no handler is suspended is idle once it is stopped. -/
theorem idle_stop (h : s.Unsuspended) : s.stop.Idle s.world s.state.2 s.nextTick := by
  refine ⟨s.world.still_stop, reported_self _, fun job hjob => ?_, rfl, rfl⟩
  have hmem : job ∈ s.jobs ∧ job.ofTimer = false := by
    simp only [mem_jobs, Session.stop, List.mem_filter, Bool.not_eq_true'] at hjob ⊢
    grind
  obtain hticks | ⟨owner, entry, howner, rfl⟩ := h job hmem.1
  · rw [hmem.2] at hticks
    cases hticks
  · exact ⟨howner, entry.quiet_script, fun _ hbox => absurd hbox List.not_mem_nil⟩

/-- In a stopped session an event ends at once, and its handler has not run. -/
theorem run_of_stopped {σ : Type} (host : Host σ) {w : World} (hw : w.stopped = true) (key : Text)
    (state : σ) :
    Turn.run host (Script.fireValue key) w state = .finished w state (.ok (.bool false)) := by
  rw [Turn.run, Script.fireValue_of_stopped hw]
  rfl

theorem perform_of_stopped {σ : Type} (host : Host σ) {s : Session σ}
    (hw : s.world.stopped = true) (key : Text) (fuel : Nat) :
    (s.perform host (fuel + 1) (Script.fireValue key)).2 = .ok (.bool false) := by
  have hturn : work host { s with result := none } (.run .command (Script.fireValue key) []) =
      Session.collect { s with result := some (.ok (.bool false)) } := by
    rw [Session.work, run_of_stopped host hw]
    rfl
  have hdrive : drive host (fun s => s.result.isSome) none (fuel + 1)
      (({ s with result := none } : Session σ).first (.run .command (Script.fireValue key) [])) =
      Session.collect { s with result := some (.ok (.bool false)) } := by
    change drive host (fun s => s.result.isSome) none fuel
      (work host { s with result := none } (.run .command (Script.fireValue key) [])) = _
    rw [hturn]
    cases fuel <;> rfl
  rw [perform, hdrive]
  rfl

/-- Once a session in which no handler is suspended is stopped, it stays so, whatever is asked of it
and in whatever order: no tick loop is registered or under way and there are no ticks, variables,
components and the console keep what they have, the host hears of nothing but sources that do not
parse, and events have no handler run for them. -/
theorem stop_is_final (hidle : s.Unsuspended)
    (hsteps : Steps host.noting Script.Asked s.stop s') :
    s'.world.stopped = true ∧
    (s'.world.timers.loops = [] ∧ (∀ job ∈ s'.jobs, job.ofTimer = false) ∧ s'.ticks = [] ∧
      s'.nextTick = s.nextTick) ∧
    (∀ key, Turn.run host.noting (Script.fireValue key) s'.world s'.state =
      .finished s'.world s'.state (.ok (.bool false))) ∧
    (∀ key fuel,
      (s'.perform host.noting (fuel + 1) (Script.fireValue key)).2 = .ok (.bool false)) ∧
    (s'.world.globals = s.world.globals ∧ s'.world.components = s.world.components ∧
      s'.world.transcript = s.world.transcript ∧ s'.world.objects = s.world.objects ∧
      s'.world.memory = s.world.memory) ∧
    ∃ reports, s'.state.2 = s.state.2 ++ reports ∧ ∀ r ∈ reports, r.ReportsParseError := by
  obtain ⟨hworld, hlog, hjobs, hticks, hnext⟩ := (idle_stop hidle).steps hsteps
  refine ⟨hworld.stopped,
    ⟨hworld.loops, fun job hjob => (hjobs job hjob).not_ofTimer, hticks, hnext⟩,
    fun key => run_of_stopped _ hworld.stopped key _,
    fun key fuel => perform_of_stopped _ hworld.stopped key fuel,
    ⟨hworld.globals, hworld.components, ?_, hworld.objects, hworld.memory⟩, hlog⟩
  rw [World.transcript, World.transcript, hworld.console]

end Session

end Idle

/-- The lamp, switched on and started, with a host that writes down what it is asked. -/
def lampNoted : Session (Rehearsal × List Request) :=
  Session.play Rehearsal.silentHost.noting { world := lamp, state := ({}, []) }
    [switch true, .perform 9 .start]

/-- Asks something of a session of the lamp. -/
def askLamp (s : Session (Rehearsal × List Request)) (entry : Entry) :
    Session (Rehearsal × List Request) :=
  (s.perform Rehearsal.silentHost.noting 9 entry.script).1

/-- Once it is stopped, the lamp that was blinking does not blink any more, although a module with
another handler is loaded and it is started again. -/
theorem Session.stop_is_final_lamp :
    let source : Text := "Lamp.Interval = 5\nSub Lamp_Tick()\nLamp.Enabled = False\nEnd Sub"
    let later := askLamp (askLamp lampNoted.stop (.loadProgram "module" source)) .start
    lampNoted.world.Registered "Lamp" ∧ later.world.timers.loops = [] ∧
      later.world.components = lampNoted.world.components ∧
      (later.perform Rehearsal.silentHost.noting 9 (Script.fireValue "Lamp_Tick")).2 =
        .ok (.bool false) := by
  intro source later
  have hregistered : lampNoted.world.timers.loops.contains (.text "Lamp") = true := by
    decide +kernel
  have htimers : lampNoted.jobs.all Job.ofTimer = true := by decide +kernel
  have hidle : lampNoted.Unsuspended := fun job hjob => .inl (List.all_eq_true.1 htimers job hjob)
  have hrun : Session.Steps Rehearsal.silentHost.noting Script.Asked lampNoted.stop later :=
    (Session.steps_perform 9 ⟨_, rfl⟩ _).trans (Session.steps_perform 9 ⟨_, rfl⟩ _)
  obtain ⟨-, ⟨hloops, -⟩, -, hfired, ⟨-, hcomponents, -⟩, -⟩ := Session.stop_is_final hidle hrun
  exact ⟨hregistered, hloops, hcomponents, hfired "Lamp_Tick" 8⟩

end FormBasic
