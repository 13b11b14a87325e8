import FormBasic.Proofs.Script.Sparing
import FormBasic.Proofs.Table

/-!
# Opening and closing connections

A connection string leads to the database of a file, which is opened anew each time, or else to the
one that is registered for this very string, which is made when it is first asked for. A connection
that is opened is linked to the database that its connection string leads to; one that is closed
commits to its database, which is closed too unless it is registered.

## Main definitions

* `World.SameData` - worlds with the same data access objects and the same registry
* `linksOf`, `Exchange.Closes` - the databases that are opened and closed in a history
* `Attaches` - how a connection string leads to a database

## Main statements

* `Script.traces_openConnection` - how connections are opened, or fail to open
* `Script.traces_closeConnection` - how connections are closed, or fail to close
-/

namespace FormBasic

open Data (Connection)

-- ════════════════════════════════════════════════════════════════════════════
-- Waits
-- ════════════════════════════════════════════════════════════════════════════

/-- Whether two worlds have the same data access objects and the same registry of databases. -/
structure World.SameData (w w' : World) : Prop where
  objects : w'.objects = w.objects
  memory : w'.memory = w.memory

theorem World.SameData.spares {w w' : World} (h : w.SameData w') : w.Spares w' :=
  ⟨h.objects ▸ .refl _, h.memory⟩

namespace Exchange

theorem Direct.sameData {e : Exchange} (h : e.Direct) : e.left.SameData e.found := by
  obtain ⟨sent, hfound⟩ := h
  obtain ⟨stopped, paused, hsignals⟩ := e.left.signals_eq sent
  rw [hfound, hsignals]
  exact ⟨rfl, rfl⟩

theorem sameData_of_direct {request : Request} {w found : World}
    {reply : Except Fault request.Reply} {rest : List Exchange}
    (h : ∀ e ∈ .asked request w found reply :: rest, e.Direct) : w.SameData found :=
  (h _ List.mem_cons_self).sameData

/-- The database that is opened during a wait. -/
def link? : Exchange → Option Nat
  | .asked (.connect _) _ _ (.ok (.ok link)) => some link
  | _ => none

/-- Whether a script waits for a database to be closed. -/
def Closes (link : Nat) (e : Exchange) : Prop := e.request? = some (.disconnect link)

end Exchange

/-- The databases that are opened in a history, in order. -/
def linksOf (history : List Exchange) : List Nat := history.filterMap Exchange.link?

-- ════════════════════════════════════════════════════════════════════════════
-- Opening and closing
-- ════════════════════════════════════════════════════════════════════════════

/-- How a connection string leads to a database: it names a file, whose database is opened anew, or
a database is registered for it, or becomes so. -/
inductive Attaches (memory memory' : Table Nat) (connectionString : Text) (opened : List Nat)
    (link : Nat) : Prop where
  | file (hpath : Data.filePath? connectionString ≠ none) (hmemory : memory' = memory)
    (hopened : opened = [link])
  | shared (hregistered : memory.get? connectionString = some link) (hmemory : memory' = memory)
    (hopened : opened = [])
  | new (hfree : memory.get? connectionString = none)
    (hmemory : memory' = memory.set connectionString link) (hopened : opened = [link])

namespace Attaches

variable {memory memory' : Table Nat} {connectionString : Text} {opened : List Nat} {link : Nat}

/-- The registry only grows. -/
theorem kept (h : Attaches memory memory' connectionString opened link) {name : Text} {old : Nat}
    (hold : memory.get? name = some old) : memory'.get? name = some old := by
  obtain ⟨-, rfl, -⟩ | ⟨-, rfl, -⟩ | ⟨hfree, rfl, -⟩ := h
  · exact hold
  · exact hold
  · have hne : name ≠ connectionString := by
      rintro rfl
      cases hfree.symm.trans hold
    rw [Table.get?_set, if_neg hne, hold]

/-- A connection string that names no file leads to the database that is registered for it. -/
theorem registered (h : Attaches memory memory' connectionString opened link)
    (hpath : Data.filePath? connectionString = none) :
    memory'.get? connectionString = some link := by
  obtain ⟨hfile, -, -⟩ | ⟨hregistered, rfl, -⟩ | ⟨-, rfl, -⟩ := h
  · exact absurd hpath hfile
  · exact hregistered
  · rw [Table.get?_set, if_pos rfl]

theorem mem_values (h : Attaches memory memory' connectionString opened link) {other : Nat}
    (hother : other ∈ memory'.values) : other ∈ memory.values ∨ other ∈ opened := by
  obtain ⟨-, rfl, -⟩ | ⟨-, rfl, -⟩ | ⟨hfree, rfl, rfl⟩ := h
  · exact .inl hother
  · exact .inl hother
  · rw [Table.values_set_of_get?_eq_none hfree] at hother
    exact List.mem_append.1 hother

theorem mem_or_mem (h : Attaches memory memory' connectionString opened link) :
    link ∈ memory.values ∨ link ∈ opened := by
  obtain ⟨-, -, rfl⟩ | ⟨hregistered, -, -⟩ | ⟨-, -, rfl⟩ := h
  · exact .inr (List.mem_singleton_self _)
  · exact .inl (Table.mem_values_of_get? hregistered)
  · exact .inr (List.mem_singleton_self _)

end Attaches

namespace Script

variable {w w' : World} {g : Handle} {c : Connection} {history : List Exchange}

/-- A script that asks first either ends with the fault that it gets or goes on with the reply. -/
theorem traces_ask_bind {α : Type} {request : Request} {f : request.Reply → Script α}
    {result : Except Fault α} (h : ((ask request >>= f) w).Traces history w' result) :
    ∃ found reply rest, history = .asked request w found reply :: rest ∧
      ((∃ fault, reply = .error fault ∧ rest = [] ∧ w' = found ∧ result = .error fault) ∨
        ∃ a, reply = .ok a ∧ (f a found).Traces rest w' result) := by
  obtain ⟨fault, hask, rfl⟩ | ⟨first, second, found, a, rfl, hask, hrest⟩ := traces_bind.1 h
  · obtain rfl := traces_ask.1 hask
    exact ⟨w', _, [], rfl, .inl ⟨fault, rfl, rfl, rfl, rfl⟩⟩
  · obtain rfl := traces_ask.1 hask
    exact ⟨found, _, second, rfl, .inr ⟨a, rfl, hrest⟩⟩

/-- A database is opened in one wait; either the script ends with its number, or none was opened. -/
theorem traces_connect {path : Text} {f : Except Text Nat → Script Nat}
    (hok : ∀ link, f (.ok link) = pure link)
    (herror : ∀ reason, ∃ fault, f (.error reason) = throw fault) {result : Except Fault Nat}
    (h : ((ask (.connect path) >>= f) w).Traces history w' result) :
    ∃ reply, history = [.asked (.connect path) w w' reply] ∧
      linksOf history = result.toOption.toList := by
  obtain ⟨found, reply, rest, rfl, ⟨fault, rfl, rfl, rfl, rfl⟩ | ⟨answer, rfl, hrest⟩⟩ :=
    traces_ask_bind h
  · exact ⟨_, rfl, rfl⟩
  · cases answer with
    | ok link =>
      rw [hok] at hrest
      obtain ⟨rfl, rfl, rfl⟩ := traces_pure.1 hrest
      exact ⟨_, rfl, rfl⟩
    | error reason =>
      obtain ⟨fault, hfault⟩ := herror reason
      rw [hfault] at hrest
      obtain ⟨rfl, rfl, rfl⟩ := traces_throw.1 hrest
      exact ⟨_, rfl, rfl⟩

theorem traces_connectFile {path : Text} {result : Except Fault Nat}
    (h : (connectFile path w).Traces history w' result) :
    ∃ reply, history = [.asked (.connect path) w w' reply] ∧
      linksOf history = result.toOption.toList :=
  traces_connect (fun _ => rfl) (fun _ => ⟨_, rfl⟩) h

theorem traces_connectMemory {result : Except Fault Nat}
    (h : (connectMemory w).Traces history w' result) :
    ∃ reply, history = [.asked (.connect Data.memoryPath) w w' reply] ∧
      linksOf history = result.toOption.toList :=
  traces_connect (fun _ => rfl) (fun _ => ⟨_, rfl⟩) h

/-- Whether a history closes no database. -/
def ClosesNone (history : List Exchange) : Prop := ∀ e ∈ history, ∀ link, ¬ e.Closes link

theorem closesNone_connect {path : Text} {found : World}
    {reply : Except Fault (Request.connect path).Reply} :
    ClosesNone [.asked (.connect path) w found reply] :=
  List.forall_mem_singleton.2 fun _ => nofun

section OpenDatabase

variable {connectionString : Text}

theorem openDatabase_of_filePath? {path : Text}
    (hpath : Data.filePath? connectionString = some path) :
    openDatabase connectionString = connectFile path := by
  rw [openDatabase, hpath]

theorem openDatabase_of_get? {link : Nat} (hpath : Data.filePath? connectionString = none)
    (hregistered : w.memory.get? connectionString = some link) :
    openDatabase connectionString w = .done w link := by
  rw [openDatabase, hpath]
  refine (bind_of_done (m := world) rfl _).trans ?_
  rw [hregistered]
  rfl

theorem openDatabase_of_get?_eq_none (hpath : Data.filePath? connectionString = none)
    (hfree : w.memory.get? connectionString = none) :
    openDatabase connectionString w = (do
      let link ← connectMemory
      update fun w => { w with memory := w.memory.set connectionString link }
      return link : Script Nat) w := by
  rw [openDatabase, hpath]
  refine (bind_of_done (m := world) rfl _).trans ?_
  rw [hfree]

/-- What a connection string leads to. -/
theorem traces_openDatabase {result : Except Fault Nat}
    (h : (openDatabase connectionString w).Traces history w' result)
    (hdirect : ∀ e ∈ history, e.Direct) :
    ClosesNone history ∧ w'.objects = w.objects ∧
      ((∃ fault, result = .error fault ∧ w'.memory = w.memory) ∨
        ∃ link, result = .ok link ∧
          Attaches w.memory w'.memory connectionString (linksOf history) link) := by
  cases hpath : Data.filePath? connectionString with
  | some path =>
    rw [openDatabase_of_filePath? hpath] at h
    obtain ⟨reply, rfl, hlinks⟩ := traces_connectFile h
    have hsame := Exchange.sameData_of_direct hdirect
    refine ⟨closesNone_connect, hsame.objects, ?_⟩
    cases result with
    | error fault => exact .inl ⟨fault, rfl, hsame.memory⟩
    | ok link =>
      have hfile : Data.filePath? connectionString ≠ none := hpath ▸ Option.some_ne_none path
      exact .inr ⟨link, rfl, .file hfile hsame.memory hlinks⟩
  | none =>
    cases hregistered : w.memory.get? connectionString with
    | some link =>
      rw [openDatabase_of_get? hpath hregistered] at h
      obtain ⟨rfl, rfl, rfl⟩ := Outcome.traces_done.1 h
      exact ⟨List.forall_mem_nil _, rfl, .inr ⟨link, rfl, .shared hregistered rfl rfl⟩⟩
    | none =>
      rw [openDatabase_of_get?_eq_none hpath hregistered] at h
      obtain ⟨fault, hconnect, rfl⟩ | ⟨first, second, w₁, link, rfl, hconnect, hrest⟩ :=
        traces_bind.1 h
      · obtain ⟨reply, rfl, -⟩ := traces_connectMemory hconnect
        have hsame := Exchange.sameData_of_direct hdirect
        exact ⟨closesNone_connect, hsame.objects, .inl ⟨fault, rfl, hsame.memory⟩⟩
      · obtain ⟨reply, rfl, hlinks⟩ := traces_connectMemory hconnect
        obtain ⟨rfl, rfl, rfl⟩ := Outcome.traces_done.1 hrest
        have hsame := Exchange.sameData_of_direct hdirect
        refine ⟨closesNone_connect, hsame.objects, .inr ⟨link, rfl, .new hregistered ?_ hlinks⟩⟩
        show w₁.memory.set _ _ = _
        rw [hsame.memory]

end OpenDatabase

/-- A connection that is opened is linked to the database that its connection string leads to; if it
cannot be opened, it stays as it was. -/
theorem traces_openConnection {result : Except Fault Unit}
    (h : (openConnection g c w).Traces history w' result) (hdirect : ∀ e ∈ history, e.Direct) :
    ClosesNone history ∧
      ((∃ fault, result = .error fault ∧ w.SameData w') ∨
        ∃ link, result = .ok () ∧
          w'.objects = w.objects.set g (.connection (c.opened link)) ∧
          Attaches w.memory w'.memory c.connectionString (linksOf history) link) := by
  obtain ⟨fault, hopen, rfl⟩ | ⟨first, second, w₁, link, rfl, hopen, hrest⟩ := traces_bind.1 h
  · obtain ⟨hcloses, hobjects, ⟨_, -, hmemory⟩ | ⟨_, hresult, -⟩⟩ :=
      traces_openDatabase hopen hdirect
    · exact ⟨hcloses, .inl ⟨fault, rfl, hobjects, hmemory⟩⟩
    · cases hresult
  · obtain ⟨rfl, rfl, rfl⟩ := Outcome.traces_done.1 hrest
    rw [List.append_nil] at hdirect ⊢
    obtain ⟨hcloses, hobjects, ⟨_, hresult, -⟩ | ⟨_, hresult, hattaches⟩⟩ :=
      traces_openDatabase hopen hdirect
    · cases hresult
    · cases hresult
      refine ⟨hcloses, .inr ⟨link, rfl, ?_, hattaches⟩⟩
      show w₁.objects.set _ _ = _
      rw [hobjects]

/-- What is done to a connection and its database after the database has committed. -/
def release (g : Handle) (c : Connection) (link : Nat) : Script Unit := do
  if !(← world).memory.values.contains link then ask (.disconnect link)
  replace g (.connection c.closed)

theorem closeConnection_of_link {link : Nat} (hlink : c.link = some link) :
    closeConnection g c = (do ask (.commit link); release g c link : Script Unit) := by
  rw [closeConnection, hlink]
  rfl

theorem release_of_mem {link : Nat} (hregistered : link ∈ w.memory.values) :
    release g c link w = replace g (.connection c.closed) w := by
  rw [release, bind_of_done (m := world) rfl, List.contains_iff_mem.2 hregistered]
  rfl

theorem release_of_notMem {link : Nat} (hfree : link ∉ w.memory.values) :
    release g c link w = (do
      ask (.disconnect link)
      replace g (.connection c.closed) : Script Unit) w := by
  rw [release, bind_of_done (m := world) rfl, if_pos (by simpa using hfree)]

/-- The connection has no link in the end; the database is closed unless it is registered. -/
theorem traces_release {link : Nat} {result : Except Fault Unit}
    (h : (release g c link w).Traces history w' result) (hdirect : ∀ e ∈ history, e.Direct) :
    (∀ e ∈ history, ∀ other, e.Closes other → other = link ∧ link ∉ w.memory.values) ∧
      w'.memory = w.memory ∧
      ((∃ fault, result = .error fault ∧ w'.objects = w.objects) ∨
        result = .ok () ∧ w'.objects = w.objects.set g (.connection c.closed)) := by
  by_cases hregistered : link ∈ w.memory.values
  · rw [release_of_mem hregistered] at h
    obtain ⟨rfl, rfl, rfl⟩ := Outcome.traces_done.1 h
    exact ⟨List.forall_mem_nil _, rfl, .inr ⟨rfl, rfl⟩⟩
  · rw [release_of_notMem hregistered] at h
    have hcloses : ∀ {found : World} {reply : Except Fault (Request.disconnect link).Reply} {other},
        (Exchange.asked (.disconnect link) w found reply).Closes other →
        other = link ∧ link ∉ w.memory.values := by
      rintro found reply other hother
      cases hother
      exact ⟨rfl, hregistered⟩
    obtain ⟨found, reply, rest, rfl, ⟨fault, rfl, rfl, rfl, rfl⟩ | ⟨_, rfl, hrest⟩⟩ :=
      traces_ask_bind h
    · have hsame := Exchange.sameData_of_direct hdirect
      exact ⟨List.forall_mem_singleton.2 fun _ => hcloses, hsame.memory,
        .inl ⟨fault, rfl, hsame.objects⟩⟩
    · obtain ⟨rfl, rfl, rfl⟩ := Outcome.traces_done.1 hrest
      have hsame := Exchange.sameData_of_direct hdirect
      refine ⟨List.forall_mem_singleton.2 fun _ => hcloses, hsame.memory, .inr ⟨rfl, ?_⟩⟩
      show found.objects.set _ _ = _
      rw [hsame.objects]

/-- A connection that is closed has no link in the end, or stays as it was if something goes wrong.
No database is closed but its own, and this only if it is not registered. -/
theorem traces_closeConnection {result : Except Fault Unit}
    (h : (closeConnection g c w).Traces history w' result) (hdirect : ∀ e ∈ history, e.Direct) :
    (∀ e ∈ history, ∀ link, e.Closes link → c.link = some link ∧ link ∉ w.memory.values) ∧
      w'.memory = w.memory ∧
      ((∃ fault, result = .error fault ∧ w'.objects = w.objects) ∨
        result = .ok () ∧ w'.objects = w.objects.set g (.connection c.closed)) := by
  cases hlink : c.link with
  | none =>
    rw [closeConnection, hlink] at h
    obtain ⟨rfl, rfl, rfl⟩ := Outcome.traces_done.1 h
    exact ⟨List.forall_mem_nil _, rfl, .inr ⟨rfl, rfl⟩⟩
  | some link =>
    rw [closeConnection_of_link hlink] at h
    obtain ⟨found, reply, rest, rfl, ⟨fault, rfl, rfl, rfl, rfl⟩ | ⟨_, rfl, hrest⟩⟩ :=
      traces_ask_bind h
    · have hsame := Exchange.sameData_of_direct hdirect
      exact ⟨List.forall_mem_singleton.2 fun _ => nofun, hsame.memory,
        .inl ⟨fault, rfl, hsame.objects⟩⟩
    · have hsame := Exchange.sameData_of_direct hdirect
      obtain ⟨hcloses, hmemory, hobjects⟩ :=
        traces_release hrest (List.forall_mem_cons.1 hdirect).2
      rw [hsame.memory] at hcloses hmemory
      rw [hsame.objects] at hobjects
      refine ⟨List.forall_mem_cons.2 ⟨fun _ => nofun, fun e he other hother => ?_⟩, hmemory,
        hobjects⟩
      obtain ⟨rfl, hfree⟩ := hcloses e he other hother
      exact ⟨rfl, hfree⟩

theorem invoke_connection_open {name : Text} (hg : w.objects.get? g = some (.connection c))
    (hname : Text.word name = "open") (args : List Value) :
    invoke g name args w = (do openConnection g c; return .nothing : Script Value) w := by
  rw [invoke.eq_def, bind_of_done (m := world) rfl]
  simp only [hg, hname]

theorem invoke_connection_close {name : Text} (hg : w.objects.get? g = some (.connection c))
    (hname : Text.word name = "close") (args : List Value) :
    invoke g name args w = (do closeConnection g c; return .nothing : Script Value) w := by
  rw [invoke.eq_def, bind_of_done (m := world) rfl]
  simp only [hg, hname]

end Script

end FormBasic
