import FormBasic.Proofs.Grammar.Placement
import FormBasic.Proofs.Session.Unwinding
import FormBasic.Proofs.Table

/-!
# Loading sources

Sources are loaded one after the other. One that parses gives a handler; one that does not is noted
and shown, and the others are loaded all the same. A key keeps the handler it has until another
source of the key parses, so a source that does not parse leaves an earlier handler in its place.

## Main definitions

* `Text.HasShortIntegers` - sources of which every number can be read
* `parsedSources`, `malformedSources` - what becomes of sources
* `Host.showAll` - a host that is shown diagnoses one after the other
* `World.loaded` - the world once sources are loaded
* `LoadsEach` - sources loaded in surroundings in which other things happen while a report waits
* `Loads` - sources loaded several times

## Main statements

* `Turn.loading_is_local` - loading handlers and modules
* `Loads.fire_runs_lastParsed` - what an event runs after handlers were loaded several times
-/

namespace FormBasic

-- ════════════════════════════════════════════════════════════════════════════
-- Sources
-- ════════════════════════════════════════════════════════════════════════════

/-- Whether no integer of a source has more digits than can be read. -/
def Text.HasShortIntegers (source : Text) : Prop :=
  ∀ t ∈ (Stream.ofSource source).tokens, t.kind = .number →
    t.text.toList.contains (.char '.') = false → t.text.toList.length ≤ digitLimit

instance (source : Text) : Decidable source.HasShortIntegers :=
  inferInstanceAs (Decidable (∀ t ∈ (Stream.ofSource source).tokens, _))

/-- A source whose numbers can be read is only rejected for being malformed. -/
theorem Reads.ok_or_malformed {α : Type} {P : α → Prop} {source : Text}
    {result : Except ParseFailure α} (h : Reads (Stream.ofSource source).tokens P result)
    (hshort : source.HasShortIntegers) :
    (∃ a, result = .ok a) ∨ ∃ error, result = .error (.malformed error) := by
  rcases result with failure | a
  · cases failure with
    | malformed error => exact .inr ⟨error, rfl⟩
    | refused refusal =>
      obtain ⟨t, ht, hkind, hrefused⟩ := h.exists_isRefused rfl
      have hnumeral := isNumeral_of_mem_scan (mem_scan_of_mem_tokens ht) hkind
      obtain ⟨n, hn⟩ := exists_numberOf hnumeral (hshort t ht hkind)
      cases hn.symm.trans hrefused
  · exact .inl ⟨a, rfl⟩

/-- The sources that parse, with their keys and their statements. -/
def parsedSources (sources : List (Text × Text)) : List (Text × List Stmt) :=
  sources.filterMap fun s =>
    match parseBody s.2 with
    | .ok body => some (s.1, body)
    | .error _ => none

/-- The sources that are malformed, with their keys and what is wrong with them. -/
def malformedSources (sources : List (Text × Text)) : List (Text × ParseError) :=
  sources.filterMap fun s =>
    match parseBody s.2 with
    | .error (.malformed error) => some (s.1, error)
    | _ => none

/-- What is shown for a source that is malformed. -/
def parseDiagnosis (s : Text × ParseError) : Text × Line :=
  ("Parse error in " ++ s.1 ++ ": " ++ s.2.message, s.2.line)

section Sources

variable {key source : Text} {body : List Stmt} {error : ParseError}

theorem parsedSources_cons_of_ok (h : parseBody source = .ok body) (rest : List (Text × Text)) :
    parsedSources ((key, source) :: rest) = (key, body) :: parsedSources rest := by
  simp [parsedSources, h]

theorem parsedSources_cons_of_error {failure : ParseFailure} (h : parseBody source = .error failure)
    (rest : List (Text × Text)) : parsedSources ((key, source) :: rest) = parsedSources rest := by
  simp [parsedSources, h]

theorem malformedSources_cons_of_ok (h : parseBody source = .ok body)
    (rest : List (Text × Text)) :
    malformedSources ((key, source) :: rest) = malformedSources rest := by
  simp [malformedSources, h]

theorem malformedSources_cons_of_malformed (h : parseBody source = .error (.malformed error))
    (rest : List (Text × Text)) :
    malformedSources ((key, source) :: rest) = (key, error) :: malformedSources rest := by
  simp [malformedSources, h]

theorem parsedSources_append (sources sources' : List (Text × Text)) :
    parsedSources (sources ++ sources') = parsedSources sources ++ parsedSources sources' :=
  List.filterMap_append

theorem keys_parsedSources (sources : List (Text × Text)) :
    (parsedSources sources).map Prod.fst =
      (sources.filter fun s => (parseBody s.2).isOk).map Prod.fst := by
  induction sources with
  | nil => rfl
  | cons s rest ih =>
    obtain ⟨key, source⟩ := s
    cases h : parseBody source with
    | ok body => simp [parsedSources_cons_of_ok h, ih, h, Except.isOk, Except.toBool]
    | error failure => simp [parsedSources_cons_of_error h, ih, h, Except.isOk, Except.toBool]

theorem keys_malformedSources {sources : List (Text × Text)}
    (hshort : ∀ s ∈ sources, s.2.HasShortIntegers) :
    (malformedSources sources).map Prod.fst =
      (sources.filter fun s => !(parseBody s.2).isOk).map Prod.fst := by
  induction sources with
  | nil => rfl
  | cons s rest ih =>
    obtain ⟨key, source⟩ := s
    have hrest := ih fun s hs => hshort s (List.mem_cons_of_mem _ hs)
    obtain ⟨body, h⟩ | ⟨error, h⟩ :=
      (reads_parseBody source).ok_or_malformed (hshort (key, source) List.mem_cons_self)
    · simp [malformedSources_cons_of_ok h, hrest, h, Except.isOk, Except.toBool]
    · simp [malformedSources_cons_of_malformed h, hrest, h, Except.isOk, Except.toBool]

end Sources

-- ════════════════════════════════════════════════════════════════════════════
-- Keys
-- ════════════════════════════════════════════════════════════════════════════

/-- A text that is cut is made of its parts. -/
theorem Text.toList_of_cutAt? {sep : Char} {s before after : Text}
    (h : Text.cutAt? sep s = some (before, after)) :
    s.toList = before.toList ++ .char sep :: after.toList := by
  unfold Text.cutAt? at h
  split at h
  · next hmem =>
    cases h
    have hne : s.toList.dropWhile (· != .char sep) ≠ [] := by
      intro hnil
      have hall := List.dropWhile_eq_nil_iff.1 hnil (.char sep) (by simpa using hmem)
      simp at hall
    have hhead : (s.toList.dropWhile (· != .char sep)).head hne = .char sep := by
      simpa using List.head_dropWhile_not (· != CodePoint.char sep) hne
    have hdrop : CodePoint.char sep :: (s.toList.dropWhile (· != .char sep)).drop 1 =
        s.toList.dropWhile (· != .char sep) := by
      have hcons := List.cons_head_tail hne
      rwa [hhead, ← List.drop_one] at hcons
    rw [Text.toList_ofList, Text.toList_ofList, hdrop, List.takeWhile_append_dropWhile]
  · cases h

namespace Script

/-- Handlers of the form go by the form's name, whichever way their key refers to the form. -/
theorem handlerKey_of_mem (form event : Text) {owner : Text} (h : owner ∈ formAliases) :
    handlerKey form (owner ++ "_" ++ event) = form ++ "_" ++ event := by
  have hbefore : ∀ c ∈ owner.toList, (c != .char '_') = true := by
    revert owner
    decide
  have hcut : Text.cutAt? '_' (owner ++ "_" ++ event) = some (owner, event) := by
    have hlist : (owner ++ "_" ++ event).toList = owner.toList ++ .char '_' :: event.toList := by
      simp
    rw [Text.cutAt?, hlist, List.takeWhile_append_of_pos hbefore,
      List.dropWhile_append_of_pos hbefore]
    simp
  have howner : formAliases.contains owner = true := by simpa using h
  simp only [handlerKey, hcut, howner, if_true]

/-- Every other handler goes by its own key. -/
theorem handlerKey_of_ne (form : Text) {key : Text}
    (h : ∀ owner ∈ formAliases, ∀ event : Text, key ≠ owner ++ "_" ++ event) :
    handlerKey form key = key := by
  unfold handlerKey
  split
  · next owner event hcut =>
    split
    · next howner =>
      refine absurd ?_ (h owner (by simpa using howner) event)
      rw [← Text.toList_inj, Text.toList_of_cutAt? hcut]
      simp
    · rfl
  · rfl

end Script

-- ════════════════════════════════════════════════════════════════════════════
-- Loading
-- ════════════════════════════════════════════════════════════════════════════

namespace World

/-- The handlers that sources give, under the keys by which they are stored. -/
def handlersOf (w : World) (sources : List (Text × Text)) : List (Text × List Stmt) :=
  (parsedSources sources).map fun s => (Script.handlerKey (w.formName.getD "") s.1, s.2)

theorem handlersOf_congr {w w' : World} (h : w'.formName = w.formName)
    (sources : List (Text × Text)) : w'.handlersOf sources = w.handlersOf sources := by
  rw [handlersOf, handlersOf, h]

theorem handlersOf_append (w : World) (sources sources' : List (Text × Text)) :
    w.handlersOf (sources ++ sources') = w.handlersOf sources ++ w.handlersOf sources' := by
  rw [handlersOf, parsedSources_append, List.map_append]
  rfl

/-- The world once sources are loaded. -/
def loaded (w : World) (sources : List (Text × Text)) : World :=
  { w with
    handlers := w.handlers.setAll (w.handlersOf sources)
    parseErrors :=
      w.parseErrors.setAll ((malformedSources sources).map fun s => (s.1, s.2.message)) }

/-- The world with a source noted that is malformed. -/
def noted (w : World) (name : Text) (error : ParseError) : World :=
  { w with parseErrors := w.parseErrors.set name error.message }

/-- The world with a handler stored. -/
def withHandler (w : World) (key : Text) (body : List Stmt) : World :=
  { w with handlers := w.handlers.set (Script.handlerKey (w.formName.getD "") key) body }

theorem signals_append (w : World) (sent sent' : List Signal) :
    w.signals (sent ++ sent') = (w.signals sent).signals sent' :=
  List.foldl_append

theorem loaded_signals (w : World) (sent : List Signal) (sources : List (Text × Text)) :
    (w.signals sent).loaded sources = (w.loaded sources).signals sent := by
  induction sent generalizing w with
  | nil => rfl
  | cons signal sent ih =>
    have hone : (w.signal signal).loaded sources = (w.loaded sources).signal signal := by
      cases signal <;> rfl
    exact (ih (w.signal signal)).trans (congrArg (World.signals · sent) hone)

/-- The sources that are noted are those noted before and those that are malformed. -/
theorem contains_parseErrors_loaded (w : World) (sources : List (Text × Text)) (key : Text) :
    (w.loaded sources).parseErrors.contains key =
      (w.parseErrors.contains key || ((malformedSources sources).map Prod.fst).contains key) := by
  have hkeys : ((malformedSources sources).map fun s => (s.1, s.2.message)).reverse.map Prod.fst =
      ((malformedSources sources).map Prod.fst).reverse := by
    rw [List.map_reverse, List.map_map]
    rfl
  rw [Table.contains, loaded, Table.get?_setAll, Option.isSome_or, Table.isSome_lookup, hkeys,
    List.contains_reverse, Bool.or_comm, Table.contains]

section Cons

variable {w : World} {key source : Text} {body : List Stmt} {error : ParseError}
  {rest : List (Text × Text)}

theorem loaded_cons_of_ok (h : parseBody source = .ok body) :
    w.loaded ((key, source) :: rest) = (w.withHandler key body).loaded rest := by
  simp [loaded, handlersOf, withHandler, parsedSources_cons_of_ok h, malformedSources_cons_of_ok h,
    Table.setAll]

theorem loaded_cons_of_malformed (h : parseBody source = .error (.malformed error)) :
    w.loaded ((key, source) :: rest) = (w.noted key error).loaded rest := by
  simp [loaded, handlersOf, noted, parsedSources_cons_of_error h,
    malformedSources_cons_of_malformed h, Table.setAll]

end Cons

end World

/-- A host that is shown diagnoses one after the other: its state afterwards and the signals it sent
meanwhile. There is no such state if it holds or fails one of the requests. -/
def Host.showAll {σ : Type} (host : Host σ) : List (Text × Line) → σ → Option (σ × List Signal)
  | [], state => some (state, [])
  | d :: rest, state =>
    match host.receive (.errorReport d.1 d.2) state with
    | .answered state sent (.ok _) =>
      (host.showAll rest state).map fun after => (after.1, sent ++ after.2)
    | _ => none

namespace Script

theorem asValue_apply {α : Type} (f : α → Value) (m : Script α) (w : World) :
    asValue f m w = (m w).andThen fun w result => .ended w (result.map f) := by
  refine congrArg (Outcome.andThen (m w)) (funext fun w => funext fun result => ?_)
  cases result <;> rfl

variable {w : World} {key source : Text} {body : List Stmt} {error : ParseError}
  {rest : List (Text × Text)}

theorem loadHandlers_cons_of_ok (h : parseBody source = .ok body) :
    loadHandlers ((key, source) :: rest) w =
      (loadHandlers rest (w.withHandler key body)).andThen fun w result =>
        .ended w (result.map fun keys => key :: keys) := by
  have hload : loadHandlers ((key, source) :: rest) w =
      (loadHandlers rest >>= fun keys => pure (key :: keys)) (w.withHandler key body) := by
    rw [loadHandlers, h]
    rfl
  rw [hload]
  refine congrArg (Outcome.andThen _) (funext fun w => funext fun result => ?_)
  cases result <;> rfl

theorem loadHandlers_cons_of_malformed (h : parseBody source = .error (.malformed error)) :
    loadHandlers ((key, source) :: rest) w =
      .asking (w.noted key error)
        (.errorReport (parseDiagnosis (key, error)).1 (parseDiagnosis (key, error)).2)
        fun w reply =>
          match reply with
          | .ok _ => loadHandlers rest w
          | .error fault => .failed w fault := by
  rw [loadHandlers, h]
  refine congrArg (Outcome.asking _ _) (funext fun w => funext fun reply => ?_)
  cases reply <;> rfl

theorem loadProgram_of_malformed (h : Program.parse source = .error (.malformed error)) :
    loadProgram key source w =
      .asking (w.noted key error)
        (.errorReport (parseDiagnosis (key, error)).1 (parseDiagnosis (key, error)).2)
        fun w reply => .ended w (reply.map fun _ => false) := by
  rw [loadProgram, h]
  refine congrArg (Outcome.asking _ _) (funext fun w => funext fun reply => ?_)
  cases reply <;> rfl

/-- A source with an integer that cannot be read ends the loading with a fault that is no diagnosis:
the handlers before it are stored, and no later source is looked at. -/
theorem loadHandlers_of_refused {before : List (Text × Text)} {refusal : Refusal}
    (hbefore : ∀ s ∈ before, ∃ body, parseBody s.2 = .ok body)
    (h : parseBody source = .error (.refused refusal)) :
    loadHandlers (before ++ (key, source) :: rest) w =
      .failed (w.loaded before) (.refused refusal) := by
  induction before generalizing w with
  | nil =>
    rw [List.nil_append, loadHandlers, h]
    rfl
  | cons s before ih =>
    obtain ⟨body, hs⟩ := hbefore s List.mem_cons_self
    rw [List.cons_append, loadHandlers_cons_of_ok hs, World.loaded_cons_of_ok hs,
      ih fun s' hs' => hbefore s' (List.mem_cons_of_mem _ hs')]
    rfl

end Script

/-- Whether no report of a diagnosis is ever failed. -/
def Surroundings.ShowsReports {σ : Type} (env : Surroundings σ) : Prop :=
  ∀ {message line w state w' state' reply},
    env.Replies (.errorReport message line) w state w' state' reply → reply = .ok ()

/-- Whether a part of the world stays what it is while reports of diagnoses wait. -/
def Surroundings.Leaves {σ β : Type} (env : Surroundings σ) (part : World → β) : Prop :=
  ∀ {message line w state w' state' reply},
    env.Replies (.errorReport message line) w state w' state' reply → part w' = part w

/-- Whether sources are loaded one after the other. A source that parses is stored, one that is
malformed is noted and then shown; anything else happens only while it is being shown. -/
inductive LoadsEach {σ : Type} (env : Surroundings σ) :
    List (Text × Text) → World → σ → World → σ → Prop where
  | nil (w : World) (state : σ) : LoadsEach env [] w state w state
  | stored {key source : Text} {rest : List (Text × Text)} {body : List Stmt} {w w' : World}
    {state state' : σ} (hparse : parseBody source = .ok body)
    (hrest : LoadsEach env rest (w.withHandler key body) state w' state') :
    LoadsEach env ((key, source) :: rest) w state w' state'
  | shown {key source : Text} {rest : List (Text × Text)} {error : ParseError} {w w₁ w' : World}
    {state state₁ state' : σ} (hparse : parseBody source = .error (.malformed error))
    (hreply : env.Replies
      (.errorReport (parseDiagnosis (key, error)).1 (parseDiagnosis (key, error)).2)
      (w.noted key error) state w₁ state₁ (.ok ()))
    (hrest : LoadsEach env rest w₁ state₁ w' state') :
    LoadsEach env ((key, source) :: rest) w state w' state'

namespace LoadsEach

variable {σ : Type} {env : Surroundings σ} {sources : List (Text × Text)} {w w' : World}
  {state state' : σ}

/-- Sources whose numbers can be read are always loaded to the end if no report is failed. -/
theorem exists_loadsEach (henv : env.ShowsReports) (hshort : ∀ s ∈ sources, s.2.HasShortIntegers)
    (w : World) (state : σ) : ∃ w' state', LoadsEach env sources w state w' state' := by
  induction sources generalizing w state with
  | nil => exact ⟨w, state, .nil w state⟩
  | cons s rest ih =>
    obtain ⟨key, source⟩ := s
    have hrest := ih fun s hs => hshort s (List.mem_cons_of_mem _ hs)
    obtain ⟨body, hok⟩ | ⟨error, herror⟩ :=
      (reads_parseBody source).ok_or_malformed (hshort (key, source) List.mem_cons_self)
    · obtain ⟨w', state', h⟩ := hrest (w.withHandler key body) state
      exact ⟨w', state', .stored hok h⟩
    · obtain ⟨w₁, state₁, reply, hreply⟩ := env.exists_reply
        (.errorReport (parseDiagnosis (key, error)).1 (parseDiagnosis (key, error)).2)
        (w.noted key error) state
      obtain rfl := henv hreply
      obtain ⟨w', state', h⟩ := hrest w₁ state₁
      exact ⟨w', state', .shown herror hreply h⟩

/-- While sources are loaded the handlers become those that the sources give. -/
theorem handlers (h : LoadsEach env sources w state w' state')
    (henv : env.Leaves World.formName) :
    w'.formName = w.formName ∧ w'.handlers = (w.loaded sources).handlers := by
  induction h with
  | nil => exact ⟨rfl, rfl⟩
  | stored hparse _ ih =>
    rw [World.loaded_cons_of_ok hparse]
    exact ih
  | @shown key source rest error w w₁ w' state state₁ state' hparse hreply _ ih =>
    have hform : w₁.formName = (w.noted key error).formName := henv hreply
    have hhandlers : w₁.handlers = (w.noted key error).handlers := env.handlers hreply
    have hloaded : (w₁.loaded rest).handlers = ((w.noted key error).loaded rest).handlers := by
      rw [World.loaded, World.loaded, hhandlers, World.handlersOf_congr hform]
    rw [World.loaded_cons_of_malformed hparse]
    exact ⟨ih.1.trans hform, ih.2.trans hloaded⟩

/-- While sources are loaded those that are malformed are noted. -/
theorem parseErrors (h : LoadsEach env sources w state w' state')
    (henv : env.Leaves World.parseErrors) :
    w'.parseErrors = (w.loaded sources).parseErrors := by
  induction h with
  | nil => rfl
  | stored hparse _ ih =>
    rw [World.loaded_cons_of_ok hparse]
    exact ih
  | @shown key source rest error w w₁ w' state state₁ state' hparse hreply _ ih =>
    have herrors : w₁.parseErrors = (w.noted key error).parseErrors := henv hreply
    rw [World.loaded_cons_of_malformed hparse, ih, World.loaded, herrors]
    rfl

/-- Whatever is neither a handler nor a note stays what it is, unless it changes while a report
waits. -/
theorem part_eq {β : Type} {part : World → β} (h : LoadsEach env sources w state w' state')
    (hstored : ∀ w key body, part (World.withHandler w key body) = part w)
    (hnoted : ∀ w name error, part (World.noted w name error) = part w)
    (henv : env.Leaves part) : part w' = part w := by
  induction h with
  | nil => rfl
  | stored _ _ ih => exact ih.trans (hstored _ _ _)
  | shown _ hreply _ ih => exact ih.trans ((henv hreply).trans (hnoted _ _ _))

end LoadsEach

namespace Script

variable {σ : Type} {env : Surroundings σ} {stack : List Text} {sources : List (Text × Text)}
  {w w' : World} {state state' : σ}

/-- Loading handlers ends with the keys of the sources that parse exactly where the sources are
loaded one after the other. -/
theorem settles_loadHandlers_iff (hshort : ∀ s ∈ sources, s.2.HasShortIntegers)
    {keys : List Text} :
    Outcome.Settles env stack (loadHandlers sources w) state w' state' (.ok keys) ↔
      keys = (parsedSources sources).map Prod.fst ∧ LoadsEach env sources w state w' state' := by
  induction sources generalizing w state keys with
  | nil =>
    constructor
    · intro h
      cases h
      exact ⟨rfl, .nil w' state'⟩
    · rintro ⟨rfl, h⟩
      cases h
      exact .done _ _ _
  | cons s rest ih =>
    obtain ⟨key, source⟩ := s
    have hrest : ∀ s ∈ rest, s.2.HasShortIntegers :=
      fun s hs => hshort s (List.mem_cons_of_mem _ hs)
    obtain ⟨body, hok⟩ | ⟨error, herror⟩ :=
      (reads_parseBody source).ok_or_malformed (hshort (key, source) List.mem_cons_self)
    · rw [loadHandlers_cons_of_ok hok, parsedSources_cons_of_ok hok, List.map_cons]
      constructor
      · intro h
        obtain ⟨w₁, state₁, result, hfirst, hsecond⟩ := h.of_andThen
        cases result with
        | error fault => cases hsecond
        | ok keys' =>
          cases hsecond
          obtain ⟨rfl, hloads⟩ := (ih hrest).1 hfirst
          exact ⟨rfl, .stored hok hloads⟩
      · rintro ⟨rfl, h⟩
        cases h with
        | stored hparse hloads =>
          cases hok.symm.trans hparse
          exact ((ih hrest).2 ⟨rfl, hloads⟩).andThen (.done _ _ _)
        | shown hparse => cases hok.symm.trans hparse
    · rw [loadHandlers_cons_of_malformed herror, parsedSources_cons_of_error herror]
      constructor
      · intro h
        obtain ⟨w₁, state₁, reply, hreply, h⟩ := h.of_asking
        cases reply with
        | error fault => cases h
        | ok shown =>
          obtain ⟨rfl, hloads⟩ := (ih hrest).1 h
          exact ⟨rfl, .shown herror hreply hloads⟩
      · rintro ⟨rfl, h⟩
        cases h with
        | stored hparse => cases herror.symm.trans hparse
        | shown hparse hreply hloads =>
          cases herror.symm.trans hparse
          exact .asking hreply ((ih hrest).2 ⟨rfl, hloads⟩)

/-- If no report is failed, the loading of handlers does not fail either. -/
theorem ok_of_settles_loadHandlers (henv : env.ShowsReports)
    (hshort : ∀ s ∈ sources, s.2.HasShortIntegers) {result : Except Fault (List Text)}
    (h : Outcome.Settles env stack (loadHandlers sources w) state w' state' result) :
    ∃ keys, result = .ok keys := by
  induction sources generalizing w w' state state' result with
  | nil =>
    cases h
    exact ⟨[], rfl⟩
  | cons s rest ih =>
    obtain ⟨key, source⟩ := s
    have hrest : ∀ s ∈ rest, s.2.HasShortIntegers :=
      fun s hs => hshort s (List.mem_cons_of_mem _ hs)
    obtain ⟨body, hok⟩ | ⟨error, herror⟩ :=
      (reads_parseBody source).ok_or_malformed (hshort (key, source) List.mem_cons_self)
    · rw [loadHandlers_cons_of_ok hok] at h
      obtain ⟨w₁, state₁, result₁, hfirst, hsecond⟩ := h.of_andThen
      obtain ⟨keys, rfl⟩ := ih hrest hfirst
      cases hsecond
      exact ⟨key :: keys, rfl⟩
    · rw [loadHandlers_cons_of_malformed herror] at h
      obtain ⟨w₁, state₁, reply, hreply, h⟩ := h.of_asking
      obtain rfl := henv hreply
      exact ih hrest h

/-- Loading a module that is malformed ends once the host was shown what is wrong. -/
theorem settles_loadProgram_iff (henv : env.ShowsReports) {name source : Text} {error : ParseError}
    (hparse : Program.parse source = .error (.malformed error)) {result : Except Fault Bool} :
    Outcome.Settles env stack (loadProgram name source w) state w' state' result ↔
      result = .ok false ∧ env.Replies
        (.errorReport (parseDiagnosis (name, error)).1 (parseDiagnosis (name, error)).2)
        (w.noted name error) state w' state' (.ok ()) := by
  rw [loadProgram_of_malformed hparse]
  constructor
  · intro h
    obtain ⟨w₁, state₁, reply, hreply, h⟩ := h.of_asking
    obtain rfl := henv hreply
    cases h
    exact ⟨rfl, hreply⟩
  · rintro ⟨rfl, hreply⟩
    exact .asking hreply (.done _ _ _)

end Script

namespace Turn

variable {σ : Type} {host : Host σ} {stack : List Text}
  {enter : World → σ → Text → List Stmt → Turn σ}

theorem follow_asking_of_answered {request : Request} {state state₁ : σ} {sent : List Signal}
    {reply : Except Fault request.Reply}
    (h : host.receive request state = .answered state₁ sent reply) (w : World)
    (resume : World → Except Fault request.Reply → Outcome Value) :
    follow host stack enter (.asking w request resume) state =
      follow host stack enter (resume (w.signals sent) reply) state₁ := by
  rw [follow, h]

/-- A turn goes through all sources if the host is shown what is wrong with them, and otherwise it
does not end with a value. -/
theorem follow_loadHandlers {sources : List (Text × Text)}
    (hshort : ∀ s ∈ sources, s.2.HasShortIntegers)
    (next : World → Except Fault (List Text) → Outcome Value)
    (hnext : ∀ w fault, next w (.error fault) = .failed w fault) (w : World) (state : σ) :
    (∃ state' sent,
      host.showAll ((malformedSources sources).map parseDiagnosis) state = some (state', sent) ∧
      follow host stack enter ((Script.loadHandlers sources w).andThen next) state =
        follow host stack enter
          (next ((w.loaded sources).signals sent) (.ok ((parsedSources sources).map Prod.fst)))
          state') ∨
    host.showAll ((malformedSources sources).map parseDiagnosis) state = none ∧
      ∀ w' state' value,
        follow host stack enter ((Script.loadHandlers sources w).andThen next) state ≠
          .finished w' state' (.ok value) := by
  induction sources generalizing w state next with
  | nil => exact .inl ⟨state, [], rfl, rfl⟩
  | cons s rest ih =>
    obtain ⟨key, source⟩ := s
    have hrest : ∀ s ∈ rest, s.2.HasShortIntegers :=
      fun s hs => hshort s (List.mem_cons_of_mem _ hs)
    obtain ⟨body, hok⟩ | ⟨error, herror⟩ :=
      (reads_parseBody source).ok_or_malformed (hshort (key, source) List.mem_cons_self)
    · rw [malformedSources_cons_of_ok hok, parsedSources_cons_of_ok hok,
        World.loaded_cons_of_ok hok, Script.loadHandlers_cons_of_ok hok, Outcome.andThen_assoc]
      refine ih hrest _ (fun w fault => ?_) (w.withHandler key body) state
      exact hnext w fault
    · rw [malformedSources_cons_of_malformed herror, parsedSources_cons_of_error herror,
        World.loaded_cons_of_malformed herror, Script.loadHandlers_cons_of_malformed herror,
        List.map_cons, Outcome.andThen]
      rcases hreceive : host.receive (.errorReport (parseDiagnosis (key, error)).1
        (parseDiagnosis (key, error)).2) state with ⟨state₁, sent, fault | reply⟩ | _
      · refine .inr ⟨by rw [Host.showAll, hreceive], fun w' state' value h => ?_⟩
        rw [follow_asking_of_answered hreceive, Outcome.andThen, hnext] at h
        cases h
      · rw [follow_asking_of_answered hreceive, Host.showAll, hreceive]
        obtain ⟨state', sent', hshow, hgo⟩ | ⟨hshow, hgo⟩ :=
          ih hrest next hnext ((w.noted key error).signals sent) state₁
        · refine .inl ⟨state', sent ++ sent', by simp [hshow], ?_⟩
          rw [World.signals_append, ← World.loaded_signals]
          exact hgo
        · exact .inr ⟨by simp [hshow], hgo⟩
      · refine .inr ⟨by rw [Host.showAll, hreceive], fun w' state' value h => ?_⟩
        rw [follow, hreceive] at h
        cases h

/-- Loading handlers ends with the keys of the sources that parse. -/
theorem run_loadHandlers {sources : List (Text × Text)}
    (hshort : ∀ s ∈ sources, s.2.HasShortIntegers) {state state' : σ} {sent : List Signal}
    (hshow : host.showAll ((malformedSources sources).map parseDiagnosis) state =
      some (state', sent)) (f : List Text → Value) (w : World) :
    run host (Script.asValue f (Script.loadHandlers sources)) w state =
      .finished ((w.loaded sources).signals sent) state'
        (.ok (f ((parsedSources sources).map Prod.fst))) := by
  rw [run, resume, Script.asValue_apply]
  obtain ⟨state₁, sent₁, hshow₁, hrun⟩ | ⟨hnone, -⟩ :=
    follow_loadHandlers hshort (fun w result => .ended w (result.map f)) (fun _ _ => rfl) w state
  · cases hshow.symm.trans hshow₁
    exact hrun
  · cases hshow.symm.trans hnone

/-- Loading handlers only ends with a value if the host is shown what is wrong. -/
theorem showAll_of_run_loadHandlers {sources : List (Text × Text)}
    (hshort : ∀ s ∈ sources, s.2.HasShortIntegers) {f : List Text → Value} {w w' : World}
    {state state' : σ} {value : Value}
    (h : run host (Script.asValue f (Script.loadHandlers sources)) w state =
      .finished w' state' (.ok value)) :
    ∃ sent, host.showAll ((malformedSources sources).map parseDiagnosis) state =
      some (state', sent) ∧ w' = (w.loaded sources).signals sent := by
  obtain ⟨state₁, sent, hshow, -⟩ | ⟨-, hnone⟩ :=
    follow_loadHandlers hshort (fun w result => .ended w (result.map f)) (fun _ _ => rfl) w state
  · cases h.symm.trans (run_loadHandlers hshort hshow f w)
    exact ⟨sent, hshow, rfl⟩
  · rw [run, resume, Script.asValue_apply] at h
    exact absurd h (hnone w' state' value)

/-- With a host that replies at once the sources are loaded as they are in any surroundings. -/
theorem loadsEach_of_showAll (hhost : host.Answers) {sources : List (Text × Text)}
    (hshort : ∀ s ∈ sources, s.2.HasShortIntegers) {w : World} {state state' : σ}
    {sent : List Signal}
    (h : host.showAll ((malformedSources sources).map parseDiagnosis) state = some (state', sent)) :
    LoadsEach (host.surroundings hhost) sources w state ((w.loaded sources).signals sent) state' := by
  induction sources generalizing w state sent with
  | nil =>
    cases h
    exact .nil w state'
  | cons s rest ih =>
    obtain ⟨key, source⟩ := s
    have hrest : ∀ s ∈ rest, s.2.HasShortIntegers :=
      fun s hs => hshort s (List.mem_cons_of_mem _ hs)
    obtain ⟨body, hok⟩ | ⟨error, herror⟩ :=
      (reads_parseBody source).ok_or_malformed (hshort (key, source) List.mem_cons_self)
    · rw [malformedSources_cons_of_ok hok] at h
      rw [World.loaded_cons_of_ok hok]
      exact .stored hok (ih hrest h)
    · rw [malformedSources_cons_of_malformed herror, List.map_cons, Host.showAll] at h
      split at h
      · next state₁ sent₁ reply hreceive =>
        obtain ⟨⟨state₂, sent₂⟩, hshow, heq⟩ := Option.map_eq_some_iff.1 h
        cases heq
        rw [World.loaded_cons_of_malformed herror, World.signals_append, ← World.loaded_signals]
        exact .shown herror ⟨sent₁, hreceive, rfl⟩ (ih hrest hshow)
      · cases h

/-- A turn that loads handlers and ends with a value loads the sources one after the other. -/
theorem loadsEach_of_run (hhost : host.Answers) {sources : List (Text × Text)}
    (hshort : ∀ s ∈ sources, s.2.HasShortIntegers) {f : List Text → Value} {w w' : World}
    {state state' : σ} {value : Value}
    (h : run host (Script.asValue f (Script.loadHandlers sources)) w state =
      .finished w' state' (.ok value)) :
    LoadsEach (host.surroundings hhost) sources w state w' state' := by
  obtain ⟨sent, hshow, rfl⟩ := showAll_of_run_loadHandlers hshort h
  exact loadsEach_of_showAll hhost hshort hshow

/-- Loading a module that is malformed only notes and shows what is wrong. -/
theorem run_loadProgram {name source : Text} {error : ParseError}
    (h : Program.parse source = .error (.malformed error)) {state state' : σ} {sent : List Signal}
    (hshow : host.showAll [parseDiagnosis (name, error)] state = some (state', sent)) (w : World) :
    run host (Script.asValue .bool (Script.loadProgram name source)) w state =
      .finished ((w.noted name error).signals sent) state' (.ok (.bool false)) := by
  rw [Host.showAll] at hshow
  split at hshow
  · next state₁ sent₁ reply hreceive =>
    cases hshow
    rw [run, resume, Script.asValue_apply, Script.loadProgram_of_malformed h, Outcome.andThen,
      follow_asking_of_answered hreceive, List.append_nil]
    rfl
  · cases hshow

/-- Loading keeps faults local. Handlers of the form are stored under the form's name and all others
under their own key. Sources are loaded as handlers one after the other: the result is the keys of
those that parse, in order; of several sources for one key the last one wins, at the place where the
key was first; every source that does not parse is noted and shown once, in order, with the line of
what is wrong; and nothing else changes but what the host does itself. A module that does not parse
has the result that it was not loaded, is noted and shown, and changes nothing else. If the reports
wait, all this happens around the waiting: what the surroundings leave alone meanwhile is as it would
be without them. -/
theorem loading_is_local (host : Host σ) (w : World) (state state' : σ) (sent : List Signal) :
    (∀ owner ∈ Script.formAliases, ∀ event : Text,
      Script.handlerKey (w.formName.getD "") (owner ++ "_" ++ event) =
        w.formName.getD "" ++ "_" ++ event) ∧
    (∀ key : Text, (∀ owner ∈ Script.formAliases, ∀ event : Text, key ≠ owner ++ "_" ++ event) →
      Script.handlerKey (w.formName.getD "") key = key) ∧
    (∀ sources : List (Text × Text), (∀ s ∈ sources, s.2.HasShortIntegers) →
      host.showAll ((malformedSources sources).map parseDiagnosis) state = some (state', sent) →
      (∀ f : List Text → Value,
        run host (Script.asValue f (Script.loadHandlers sources)) w state =
          .finished ((w.loaded sources).signals sent) state'
            (.ok (f ((sources.filter fun s => (parseBody s.2).isOk).map Prod.fst)))) ∧
      (malformedSources sources).map Prod.fst =
        (sources.filter fun s => !(parseBody s.2).isOk).map Prod.fst ∧
      (∀ key, (w.loaded sources).handlers.get? key =
        (Table.lookup key (w.handlersOf sources).reverse).or (w.handlers.get? key)) ∧
      (w.loaded sources).handlers.keys = w.handlers.keys ++
        (((w.handlersOf sources).map Prod.fst).filter
          fun key => !w.handlers.keys.contains key).eraseDups ∧
      ∀ key, (w.loaded sources).parseErrors.contains key =
        (w.parseErrors.contains key || ((malformedSources sources).map Prod.fst).contains key)) ∧
    (∀ name source : Text, source.HasShortIntegers →
      (∀ program, Program.parse source ≠ .ok program) →
      ∃ error, Program.parse source = .error (.malformed error) ∧
        (host.showAll [parseDiagnosis (name, error)] state = some (state', sent) →
          run host (Script.asValue .bool (Script.loadProgram name source)) w state =
            .finished ((w.noted name error).signals sent) state' (.ok (.bool false)))) ∧
    ∀ env : Surroundings σ, env.ShowsReports → ∀ stack : List Text,
      (∀ sources : List (Text × Text), (∀ s ∈ sources, s.2.HasShortIntegers) →
        (∃ w' state', LoadsEach env sources w state w' state') ∧
        (∀ w' state' result,
          Outcome.Settles env stack (Script.loadHandlers sources w) state w' state' result ↔
            result = .ok ((sources.filter fun s => (parseBody s.2).isOk).map Prod.fst) ∧
              LoadsEach env sources w state w' state') ∧
        ∀ w' state', LoadsEach env sources w state w' state' →
          (env.Leaves World.formName → w'.handlers = (w.loaded sources).handlers) ∧
          (env.Leaves World.parseErrors → w'.parseErrors = (w.loaded sources).parseErrors) ∧
          ∀ {β : Type} (part : World → β),
            (∀ w key body, part (World.withHandler w key body) = part w) →
            (∀ w name error, part (World.noted w name error) = part w) →
            env.Leaves part → part w' = part w) ∧
      ∀ name source error, Program.parse source = .error (.malformed error) →
        ∀ w' state' result,
          Outcome.Settles env stack (Script.loadProgram name source w) state w' state' result ↔
            result = .ok false ∧ env.Replies
              (.errorReport (parseDiagnosis (name, error)).1 (parseDiagnosis (name, error)).2)
              (w.noted name error) state w' state' (.ok ()) := by
  refine ⟨fun owner howner event => Script.handlerKey_of_mem _ event howner,
    fun key hkey => Script.handlerKey_of_ne _ hkey,
    fun sources hshort hshow => ⟨fun f => ?_, keys_malformedSources hshort,
      fun key => Table.get?_setAll _ _ key, Table.keys_setAll _ _, fun key => ?_⟩,
    fun name source hshort hnone => ?_, fun env henv stack => ⟨fun sources hshort =>
      ⟨LoadsEach.exists_loadsEach henv hshort w state, fun w' state' result => ?_,
        fun w' state' h => ⟨fun hform => (h.handlers hform).2, h.parseErrors, fun _ => h.part_eq⟩⟩,
      fun name source error herror w' state' result => Script.settles_loadProgram_iff henv herror⟩⟩
  · rw [← keys_parsedSources]
    exact run_loadHandlers hshort hshow f w
  · exact w.contains_parseErrors_loaded sources key
  · obtain ⟨program, hprogram⟩ | ⟨error, herror⟩ :=
      (Program.reads_parse source).ok_or_malformed hshort
    · exact absurd hprogram (hnone program)
    · exact ⟨error, herror, fun hshow => run_loadProgram herror hshow w⟩
  · rw [← keys_parsedSources]
    constructor
    · intro h
      obtain ⟨keys, rfl⟩ := Script.ok_of_settles_loadHandlers henv hshort h
      obtain ⟨rfl, hloads⟩ := (Script.settles_loadHandlers_iff hshort).1 h
      exact ⟨rfl, hloads⟩
    · rintro ⟨rfl, hloads⟩
      exact (Script.settles_loadHandlers_iff hshort).2 ⟨rfl, hloads⟩

end Turn

/-- Two sources for the loading of the form, with one between them that is malformed. -/
def mixedSources : List (Text × Text) :=
  [("Me_Load", "x = 1"), ("Main", "x = ("), ("Form1_Load", "x = 2")]

/-- What is wrong with the malformed source. -/
def openParenthesis : ParseError := ⟨.endOfStatement, .ofNat 1⟩

/-- What is wrong with a module that has nothing but the word for a handler. -/
def namelessSub : ParseError := ⟨.nameAfter "sub", .ofNat 1⟩

/-- A world that has nothing but the name of its form. -/
def formOnly : World where
  formName := some "Form1"

/-- The host that plays its part once it has written down what is wrong with a source. -/
def notedDiagnosis (name : Text) (error : ParseError) : Rehearsal :=
  ({} : Rehearsal).note
    (.asked (.errorReport (parseDiagnosis (name, error)).1 (parseDiagnosis (name, error)).2))

theorem parseBody_one :
    parseBody "x = 1" = .ok [.assign (.ident "x") (.number (.int 1)) (.ofNat 1)] := by
  have hscan : Token.scan "x = 1" =
      [⟨.identifier, "x", .ofNat 1, 1⟩, ⟨.operator, "=", .ofNat 1, 3⟩,
        ⟨.number, "1", .ofNat 1, 5⟩, ⟨.eof, "", .ofNat 1, 6⟩] := by
    decide +kernel
  rw [parseBody, Stream.ofSource, hscan]
  cbv

theorem parseBody_two :
    parseBody "x = 2" = .ok [.assign (.ident "x") (.number (.int 2)) (.ofNat 1)] := by
  have hscan : Token.scan "x = 2" =
      [⟨.identifier, "x", .ofNat 1, 1⟩, ⟨.operator, "=", .ofNat 1, 3⟩,
        ⟨.number, "2", .ofNat 1, 5⟩, ⟨.eof, "", .ofNat 1, 6⟩] := by
    decide +kernel
  rw [parseBody, Stream.ofSource, hscan]
  cbv

theorem parseBody_open : parseBody "x = (" = .error (.malformed openParenthesis) := by
  have hscan : Token.scan "x = (" =
      [⟨.identifier, "x", .ofNat 1, 1⟩, ⟨.operator, "=", .ofNat 1, 3⟩,
        ⟨.punctuation, "(", .ofNat 1, 5⟩, ⟨.eof, "", .ofNat 1, 6⟩] := by
    decide +kernel
  rw [parseBody, Stream.ofSource, hscan]
  cbv

theorem parsedSources_mixedSources :
    parsedSources mixedSources =
      ([("Me_Load", [.assign (.ident "x") (.number (.int 1)) (.ofNat 1)]),
        ("Form1_Load", [.assign (.ident "x") (.number (.int 2)) (.ofNat 1)])] :
        List (Text × List Stmt)) := by
  rw [mixedSources, parsedSources_cons_of_ok parseBody_one,
    parsedSources_cons_of_error parseBody_open, parsedSources_cons_of_ok parseBody_two]
  rfl

theorem malformedSources_mixedSources :
    malformedSources mixedSources = ([("Main", openParenthesis)] : List (Text × ParseError)) := by
  rw [mixedSources, malformedSources_cons_of_ok parseBody_one,
    malformedSources_cons_of_malformed parseBody_open, malformedSources_cons_of_ok parseBody_two]
  rfl

theorem handlersOf_mixedSources :
    formOnly.handlersOf mixedSources =
      ([("Form1_Load", [.assign (.ident "x") (.number (.int 1)) (.ofNat 1)]),
        ("Form1_Load", [.assign (.ident "x") (.number (.int 2)) (.ofNat 1)])] :
        List (Text × List Stmt)) := by
  rw [World.handlersOf, parsedSources_mixedSources]
  rfl

/-- Surroundings in which reports are written down, and another script notes in a variable that it
was there while they waited. -/
def interrupted : Surroundings Rehearsal where
  Replies request w state w' state' reply :=
    w' = { w with globals := w.globals.set "seen" (.int 1) } ∧
      state' = state.note (.asked request) ∧ reply = .ok (state.silentReply request).1
  handlers := by
    rintro request w state w' state' reply ⟨rfl, -, -⟩
    rfl
  exists_reply request w state := ⟨_, _, _, rfl, rfl, rfl⟩

theorem showsReports_interrupted : interrupted.ShowsReports := by
  rintro message line w state w' state' reply ⟨-, -, rfl⟩
  rfl

theorem leaves_formName_interrupted : interrupted.Leaves World.formName := by
  rintro message line w state w' state' reply ⟨rfl, -, -⟩
  rfl

theorem loadsEach_mixedSources : ∃ w', w'.globals.get? "seen" = some (.int 1) ∧
    LoadsEach interrupted mixedSources formOnly {} w' (notedDiagnosis "Main" openParenthesis) :=
  ⟨_, rfl, .stored parseBody_one
    (.shown parseBody_open ⟨rfl, rfl, rfl⟩ (.stored parseBody_two (.nil _ _)))⟩

theorem Turn.loading_is_local_mixedSources :
    (∀ s ∈ mixedSources, s.2.HasShortIntegers) ∧
    Text.HasShortIntegers "Sub" ∧
    (∀ program, Program.parse "Sub" ≠ .ok program) ∧
    Rehearsal.host.showAll ((malformedSources mixedSources).map parseDiagnosis) {} =
      some (notedDiagnosis "Main" openParenthesis, []) ∧
    Turn.run Rehearsal.host
        (Script.asValue (fun keys => .list (keys.map .text)) (Script.loadHandlers mixedSources))
        formOnly {} =
      .finished (formOnly.loaded mixedSources) (notedDiagnosis "Main" openParenthesis)
        (.ok (.list [.text "Me_Load", .text "Form1_Load"])) ∧
    (formOnly.loaded mixedSources).handlers.get? "Form1_Load" =
      some [.assign (.ident "x") (.number (.int 2)) (.ofNat 1)] ∧
    (formOnly.loaded mixedSources).handlers.keys = ["Form1_Load"] ∧
    Turn.run Rehearsal.host (Script.asValue .bool (Script.loadProgram "Module" "Sub")) formOnly {} =
      .finished (formOnly.noted "Module" namelessSub) (notedDiagnosis "Module" namelessSub)
        (.ok (.bool false)) ∧
    interrupted.ShowsReports ∧
    ∃ w', Outcome.Settles interrupted [] (Script.loadHandlers mixedSources formOnly) {} w'
        (notedDiagnosis "Main" openParenthesis) (.ok ["Me_Load", "Form1_Load"]) ∧
      w'.globals.get? "seen" = some (.int 1) ∧
      w'.handlers = (formOnly.loaded mixedSources).handlers := by
  have hshort : ∀ s ∈ mixedSources, s.2.HasShortIntegers := by decide +kernel
  have hbroken : Text.HasShortIntegers "Sub" := by decide +kernel
  have hscan : Token.scan "Sub" = [⟨.keyword, "sub", .ofNat 1, 1⟩, ⟨.eof, "", .ofNat 1, 4⟩] := by
    decide +kernel
  have hparse : Program.parse "Sub" = .error (.malformed namelessSub) := by
    rw [Program.parse, Stream.ofSource, hscan]
    cbv
  have hnone : ∀ program, Program.parse "Sub" ≠ .ok program := by
    intro program h
    cases hparse.symm.trans h
  have hshow : Rehearsal.host.showAll ((malformedSources mixedSources).map parseDiagnosis) {} =
      some (notedDiagnosis "Main" openParenthesis, []) := by
    rw [malformedSources_mixedSources]
    rfl
  obtain ⟨-, -, hsources, -, henv⟩ := Turn.loading_is_local Rehearsal.host formOnly {}
    (notedDiagnosis "Main" openParenthesis) []
  obtain ⟨-, -, -, hprogram, -⟩ := Turn.loading_is_local Rehearsal.host formOnly {}
    (notedDiagnosis "Module" namelessSub) []
  obtain ⟨hrun, -, hget, hkeys, -⟩ := hsources mixedSources hshort hshow
  obtain ⟨error, herror, hload⟩ := hprogram "Module" "Sub" hbroken hnone
  obtain rfl : namelessSub = error :=
    ParseFailure.malformed.inj (Except.error.inj (hparse.symm.trans herror))
  have hloaded : (mixedSources.filter fun s => (parseBody s.2).isOk).map Prod.fst =
      ["Me_Load", "Form1_Load"] := by
    rw [← keys_parsedSources, parsedSources_mixedSources]
    rfl
  obtain ⟨-, hsettles, hleft⟩ := (henv interrupted showsReports_interrupted []).1 mixedSources hshort
  obtain ⟨w', hseen, hloads⟩ := loadsEach_mixedSources
  refine ⟨hshort, hbroken, hnone, hshow, ?_, ?_, ?_, hload rfl, showsReports_interrupted, w',
    (hsettles _ _ _).2 ⟨congrArg Except.ok hloaded.symm, hloads⟩, hseen,
    (hleft _ _ hloads).1 leaves_formName_interrupted⟩
  · rw [hrun, hloaded]
    rfl
  · rw [hget, handlersOf_mixedSources]
    rfl
  · rw [hkeys, handlersOf_mixedSources]
    rfl

-- ════════════════════════════════════════════════════════════════════════════
-- Loading several times
-- ════════════════════════════════════════════════════════════════════════════

/-- Whether handlers are loaded several times, each time to the end. Reports may wait meanwhile, and
between two times anything else may happen that keeps the handlers and the name of the form. -/
inductive Loads {σ : Type} (env : Surroundings σ) :
    List (List (Text × Text)) → World → σ → World → σ → Prop where
  | start (w : World) (state : σ) : Loads env [] w state w state
  | again {sources : List (Text × Text)} {rest : List (List (Text × Text))} {w w₁ w₂ w' : World}
    {state state₁ state₂ state' : σ} {keys : List Text}
    (hload : Outcome.Settles env [] (Script.loadHandlers sources w) state w₁ state₁ (.ok keys))
    (hbetween : w₂.handlers = w₁.handlers ∧ w₂.formName = w₁.formName)
    (hrest : Loads env rest w₂ state₂ w' state') : Loads env (sources :: rest) w state w' state'

/-- The source that was last given for a key. -/
def lastGiven? (key : Text) (sources : List (Text × Text)) : Option Text :=
  Table.lookup key sources.reverse

/-- The statements of the source of a key that was the last one to parse. -/
def lastParsed? (key : Text) (sources : List (Text × Text)) : Option (List Stmt) :=
  Table.lookup key (parsedSources sources).reverse

theorem parsedSources_reverse (sources : List (Text × Text)) :
    (parsedSources sources).reverse = parsedSources sources.reverse :=
  List.filterMap_reverse.symm

/-- If the source that was last given parses, it is the last one to parse. -/
theorem lastParsed?_of_lastGiven? {key source : Text} {sources : List (Text × Text)}
    {body : List Stmt} (hgiven : lastGiven? key sources = some source)
    (hparse : parseBody source = .ok body) : lastParsed? key sources = some body := by
  rw [lastParsed?, parsedSources_reverse]
  rw [lastGiven?] at hgiven
  generalize sources.reverse = given at hgiven
  induction given with
  | nil => cases hgiven
  | cons s rest ih =>
    obtain ⟨key', source'⟩ := s
    rw [Table.lookup] at hgiven
    by_cases hkey : key' = key
    · rw [if_pos hkey] at hgiven
      cases hgiven
      rw [parsedSources_cons_of_ok hparse, Table.lookup, if_pos hkey]
    · rw [if_neg hkey] at hgiven
      cases hparse' : parseBody source' with
      | ok body' =>
        rw [parsedSources_cons_of_ok hparse', Table.lookup, if_neg hkey]
        exact ih hgiven
      | error failure =>
        rw [parsedSources_cons_of_error hparse']
        exact ih hgiven

/-- A key that no other key is stored under gets what its own sources give. -/
theorem World.lookup_handlersOf {w : World} {key : Text} {sources : List (Text × Text)}
    (hkey : Script.handlerKey (w.formName.getD "") key = key)
    (hother : ∀ s ∈ sources, Script.handlerKey (w.formName.getD "") s.1 = key → s.1 = key) :
    Table.lookup key (w.handlersOf sources).reverse = lastParsed? key sources := by
  rw [handlersOf, ← List.map_reverse, lastParsed?, parsedSources_reverse]
  have hsame : ∀ s ∈ sources.reverse,
      Script.handlerKey (w.formName.getD "") s.1 = key → s.1 = key :=
    fun s hs => hother s (List.mem_reverse.1 hs)
  generalize sources.reverse = given at hsame
  induction given with
  | nil => rfl
  | cons s rest ih =>
    obtain ⟨key', source⟩ := s
    have hrest := ih fun s hs => hsame s (List.mem_cons_of_mem _ hs)
    cases hparse : parseBody source with
    | error failure => rwa [parsedSources_cons_of_error hparse]
    | ok body =>
      rw [parsedSources_cons_of_ok hparse, List.map_cons, Table.lookup, Table.lookup]
      by_cases hkey' : key' = key
      · rw [if_pos hkey', if_pos (by rw [hkey', hkey])]
      · have hstored : Script.handlerKey (w.formName.getD "") key' ≠ key :=
          fun h => hkey' (hsame _ List.mem_cons_self h)
        rw [if_neg hkey', if_neg hstored]
        exact hrest

/-- What loading several times leaves in the table of handlers. -/
theorem Loads.handlers {σ : Type} {env : Surroundings σ} {loads : List (List (Text × Text))}
    {w w' : World} {state state' : σ} (h : Loads env loads w state w' state')
    (henv : env.Leaves World.formName) (hshort : ∀ s ∈ loads.flatten, s.2.HasShortIntegers) :
    w'.formName = w.formName ∧ w'.handlers = w.handlers.setAll (w.handlersOf loads.flatten) := by
  induction h with
  | start => exact ⟨rfl, rfl⟩
  | @again sources rest w w₁ w₂ w' state state₁ state₂ state' keys hload hbetween _ ih =>
    rw [List.flatten_cons] at hshort
    obtain ⟨-, hloads⟩ := (Script.settles_loadHandlers_iff
      fun s hs => hshort s (List.mem_append_left _ hs)).1 hload
    obtain ⟨hform₁, hhandlers₁⟩ := hloads.handlers henv
    obtain ⟨hform, hhandlers⟩ := ih fun s hs => hshort s (List.mem_append_right _ hs)
    have hform₂ : w₂.formName = w.formName := hbetween.2.trans hform₁
    refine ⟨hform.trans hform₂, ?_⟩
    rw [hhandlers, hbetween.1, hhandlers₁, World.handlersOf_congr hform₂, List.flatten_cons,
      World.handlersOf_append, Table.setAll_append]
    rfl

/-- Whether an event runs a block: it calls a handler, and the block is found to be its body. -/
def Script.FireRuns (key : Text) (body : List Stmt) (w : World) : Prop :=
  Script.fire key w = .calling w key (Script.afterHandler key) ∧ Turn.body? w [] key = some body

/-- After handlers were loaded several times, a key that does not refer to the form and that no
other key is stored under has the handler of its source that was the last one to parse, or the
handler that it had at first. If the source that was last given parses, it is this one. If that
source does not parse, an earlier one stays in place. The event of the key runs the handler it has;
with no handler, or in a session that is stopped, no statement runs and the result is that nothing
ran. -/
theorem Loads.fire_runs_lastParsed {σ : Type} {env : Surroundings σ}
    {loads : List (List (Text × Text))} {w w' : World} {state state' : σ}
    (hloads : Loads env loads w state w' state') (henv : env.Leaves World.formName)
    (hshort : ∀ s ∈ loads.flatten, s.2.HasShortIntegers) {key : Text}
    (hkey : ∀ owner ∈ Script.formAliases, ∀ event : Text, key ≠ owner ++ "_" ++ event)
    (hother : ∀ s ∈ loads.flatten, Script.handlerKey (w.formName.getD "") s.1 = key → s.1 = key) :
    w'.handlers.get? key = (lastParsed? key loads.flatten).or (w.handlers.get? key) ∧
    (∀ source body, lastGiven? key loads.flatten = some source → parseBody source = .ok body →
      w'.handlers.get? key = some body) ∧
    (w'.stopped = false → ∀ body, w'.handlers.get? key = some body →
      Script.FireRuns key body w') ∧
    (w'.stopped = true ∨ w'.handlers.get? key = none →
      Script.fire key w' = .done w' false ∧
      ∀ (host : Host σ) (state : σ), Turn.run host (Script.fireValue key) w' state =
        .finished w' state (.ok (.bool false))) := by
  have hget : w'.handlers.get? key = (lastParsed? key loads.flatten).or (w.handlers.get? key) := by
    rw [(hloads.handlers henv hshort).2, Table.get?_setAll,
      World.lookup_handlersOf (Script.handlerKey_of_ne _ hkey) hother]
  refine ⟨hget, fun source body hgiven hparse => ?_, fun hstopped body hbody => ?_, fun hnone => ?_⟩
  · rw [hget, lastParsed?_of_lastGiven? hgiven hparse]
    rfl
  · refine ⟨Script.fire_eq_calling hstopped ?_, hbody⟩
    rw [Table.contains, hbody]
    rfl
  · have hheld : (w'.stopped || !w'.handlers.contains key) = true := by
      rcases hnone with hstopped | hnone
      · rw [hstopped]
        rfl
      · rw [Table.contains, hnone, Option.isSome_none, Bool.not_false, Bool.or_true]
    have hfire : Script.fire key w' = .done w' false := by
      change (if w'.stopped || !w'.handlers.contains key then return false
        else Script.reporting key (Script.call key) : Script Bool) w' = _
      rw [hheld]
      rfl
    refine ⟨hfire, fun host state => ?_⟩
    rw [Turn.run, Script.fireValue, Script.asValue_apply, hfire]
    rfl

/-- A source for the main handler, and then one that is malformed. -/
def reloadedSources : List (List (Text × Text)) := [[("Main", "x = 1")], [("Main", "x = (")]]

theorem shortIntegers_reloadedSources :
    ∀ s ∈ reloadedSources.flatten, s.2.HasShortIntegers := by
  decide +kernel

/-- Between the two times a variable is written, and while the malformed source is shown another
script is running. -/
theorem loads_reloadedSources : ∃ w', w'.stopped = false ∧
    Loads interrupted reloadedSources formOnly {} w' (notedDiagnosis "Main" openParenthesis) := by
  let stored := formOnly.withHandler "Main" [.assign (.ident "x") (.number (.int 1)) (.ofNat 1)]
  have hfirst : LoadsEach interrupted [("Main", "x = 1")] formOnly {} stored {} :=
    .stored parseBody_one (.nil _ _)
  let written : World := { stored with globals := stored.globals.set "y" (.int 2) }
  have hbetween : written.handlers = stored.handlers ∧ written.formName = stored.formName :=
    ⟨rfl, rfl⟩
  have hsecond : ∃ w', w'.stopped = false ∧
      LoadsEach interrupted [("Main", "x = (")] written {} w'
        (notedDiagnosis "Main" openParenthesis) :=
    ⟨_, rfl, .shown parseBody_open ⟨rfl, rfl, rfl⟩ (.nil _ _)⟩
  obtain ⟨w', hstopped, hsecond⟩ := hsecond
  have hshort := shortIntegers_reloadedSources
  refine ⟨w', hstopped, .again ((Script.settles_loadHandlers_iff fun s hs => ?_).2 ⟨rfl, hfirst⟩)
    hbetween (.again ((Script.settles_loadHandlers_iff fun s hs => ?_).2 ⟨rfl, hsecond⟩)
      ⟨rfl, rfl⟩ (.start _ _))⟩
  · exact hshort s (List.mem_append_left _ hs)
  · exact hshort s (List.mem_append_right _ (List.mem_append_left _ hs))

/-- The malformed source is the last one given, and the event still runs the earlier one. -/
theorem Loads.fire_runs_lastParsed_reloadedSources :
    (∀ s ∈ reloadedSources.flatten, s.2.HasShortIntegers) ∧
    lastGiven? "Main" reloadedSources.flatten = some "x = (" ∧
    parseBody "x = (" = .error (.malformed openParenthesis) ∧
    ∃ w', Loads interrupted reloadedSources formOnly {} w' (notedDiagnosis "Main" openParenthesis) ∧
      Script.FireRuns "Main" [.assign (.ident "x") (.number (.int 1)) (.ofNat 1)] w' ∧
      Script.fire "Other" w' = .done w' false := by
  have hparsed : parsedSources reloadedSources.flatten =
      ([("Main", [.assign (.ident "x") (.number (.int 1)) (.ofNat 1)])] :
        List (Text × List Stmt)) := by
    change parsedSources [("Main", "x = 1"), ("Main", "x = (")] = _
    rw [parsedSources_cons_of_ok parseBody_one, parsedSources_cons_of_error parseBody_open]
    rfl
  have hkey : ∀ key : Text, key.toList.contains (.char '_') = false →
      ∀ owner ∈ Script.formAliases, ∀ event : Text, key ≠ owner ++ "_" ++ event := by
    rintro key hkey owner - event rfl
    simp at hkey
  have hown : ∀ s ∈ reloadedSources.flatten, s.1 = "Main" := by decide
  obtain ⟨w', hstopped, hloads⟩ := loads_reloadedSources
  obtain ⟨hmain, -, hfire, -⟩ := Loads.fire_runs_lastParsed hloads leaves_formName_interrupted
    shortIntegers_reloadedSources (hkey "Main" rfl) (fun s hs _ => hown s hs)
  obtain ⟨hother, -, -, hnone⟩ := Loads.fire_runs_lastParsed hloads leaves_formName_interrupted
    shortIntegers_reloadedSources (hkey "Other" rfl) (fun s hs h => by
      rw [hown s hs, Script.handlerKey_of_ne _ (hkey "Main" rfl)] at h
      exact absurd h (by decide))
  refine ⟨shortIntegers_reloadedSources, rfl, parseBody_open, w', hloads, hfire hstopped _ ?_,
    (hnone (.inr ?_)).1⟩
  · rw [hmain, lastParsed?, hparsed]
    rfl
  · rw [hother, lastParsed?, hparsed]
    rfl

end FormBasic
