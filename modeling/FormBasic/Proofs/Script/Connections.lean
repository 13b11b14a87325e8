import FormBasic.Proofs.Script.Opening

/-!
# Connections and shared databases

Which database a connection is linked to depends on its connection string at the time when it was
opened, and whether its database is closed with it depends on the registry at the time when it is
closed. So whatever is done to however many connections, the registry only grows, its databases stay
open, and connections that were opened for the same string share a database.

An engine is assumed to give every database that it opens a number that no other database has or
had.

## Main definitions

* `Access`, `Dealing` - what scripts do to data access objects, and what came of it
* `Dealings` - sequences of dealings
* `attached` - the connection string for which a connection is open, according to such a sequence
* `Sharing` - how the links of connections and the registry belong together

## Main statements

* `Dealing.effect` - what a dealing does to links and registry
* `Sharing.dealing`, `Sharing.run` - one dealing, and a sequence of them
* `Script.connections_share_memory` - what holds after every sequence
-/

namespace FormBasic

open Data (Connection)

-- ════════════════════════════════════════════════════════════════════════════
-- Dealings
-- ════════════════════════════════════════════════════════════════════════════

/-- What scripts do to data access objects. -/
inductive Access where
  | construct (typeName : String) (args : List Value)
  | call (h : Handle) (name : Text) (args : List Value)
  | read (h : Handle) (name : Text)
  | write (h : Handle) (name : Text) (value : Value)
  | item (container key : Value)

/-- The script of an access. -/
def Access.script : Access → Script Value
  | .construct typeName args => (Script.construct? typeName args).getD (pure .nothing)
  | .call h name args => Script.invoke h name args
  | .read h name => Script.member h name
  | .write h name value => do
    Script.setMember h name value
    return .nothing
  | .item container key => Script.index container key

/-- An access with what came of it. -/
structure Dealing where
  access : Access
  before : World
  exchanges : List Exchange
  after : World
  result : Except Fault Value

namespace Dealing

/-- Whether a dealing can happen: its access has such a history, in which nothing but the host acts
while the access waits. -/
structure Happens (d : Dealing) : Prop where
  traces : (d.access.script d.before).Traces d.exchanges d.after d.result
  direct : ∀ e ∈ d.exchanges, e.Direct

/-- What a dealing makes of the connection of a handle: it is open from now on, for the connection
string that it has, or it is closed from now on. None if the dealing does not open or close it. -/
def turn? (d : Dealing) (h : Handle) : Option (Option Text) :=
  match d.access, d.result, d.before.objects.get? h with
  | .call g name _, .ok _, some (.connection c) =>
    if g = h then
      match Text.word name with
      | "open" => some (some c.connectionString)
      | "close" => some none
      | _ => none
    else none
  | _, _, _ => none

/-- What a dealing does to the links of connections and to the registry. -/
inductive Effect (d : Dealing) : Prop where
  /-- No link and no entry of the registry is changed. -/
  | spared (hspares : d.before.Spares d.after) (hturn : ∀ h, d.turn? h = none)
  /-- A connection is linked to the database that its connection string leads to. -/
  | opened {g : Handle} {c : Connection} {link : Nat}
    (hg : d.before.objects.get? g = some (.connection c))
    (hobjects : d.after.objects = d.before.objects.set g (.connection (c.opened link)))
    (hattaches : Attaches d.before.memory d.after.memory c.connectionString
      (linksOf d.exchanges) link)
    (hturn : ∀ h, d.turn? h = if h = g then some (some c.connectionString) else none)
  /-- A connection has no link any more. -/
  | closed {g : Handle} {c : Connection} (hg : d.before.objects.get? g = some (.connection c))
    (hobjects : d.after.objects = d.before.objects.set g (.connection c.closed))
    (hmemory : d.after.memory = d.before.memory)
    (hturn : ∀ h, d.turn? h = if h = g then some none else none)

/-- Whether a dealing only closes databases to which a connection is linked and which are not
registered. -/
def ClosesOwn (d : Dealing) : Prop := ∀ e ∈ d.exchanges, ∀ link, e.Closes link →
  (∃ h, d.before.objects.link? h = some link) ∧ link ∉ d.before.memory.values

variable {d : Dealing}

theorem closesOwn_of_closesNone (h : Script.ClosesNone d.exchanges) : d.ClosesOwn :=
  fun e he link hlink => absurd hlink (h e he link)

/-- A dealing that is no call that opens or closes a connection spares connections. -/
theorem effect_of_heeds (hd : d.Happens)
    (hheeds : d.access.script.HeedsFrom .sparing d.before) (hturn : ∀ h, d.turn? h = none) :
    d.Effect ∧ d.ClosesOwn := by
  obtain ⟨hpaves, hallows⟩ := hheeds.paved hd.traces
  have hmoves : ∀ e ∈ d.exchanges, ∀ request, e.request? = some request → ¬ request.movesLink := by
    intro e he request hrequest
    have hallowed := hallows e he
    cases e with
    | asked =>
      cases hrequest
      exact hallowed
    | called => cases hrequest
  have hspares := hpaves.step fun e he => (hd.direct e he).sameData.spares
  exact ⟨.spared hspares hturn,
    closesOwn_of_closesNone fun e he link hcloses => hmoves e he _ hcloses trivial⟩

theorem turn?_of_error {fault : Fault} (hresult : d.result = .error fault) (h : Handle) :
    d.turn? h = none := by
  unfold turn?
  split
  · next hok _ => cases hresult.symm.trans hok
  · rfl

theorem turn?_of_not_switches {g : Handle} {name : Text} {args : List Value}
    (haccess : d.access = .call g name args) (hswitches : ¬ Script.Switches d.before g name)
    (h : Handle) : d.turn? h = none := by
  unfold turn?
  split
  · next g' name' args' value c hcall hresult hh =>
    cases haccess.symm.trans hcall
    split
    · next heq =>
      subst heq
      split
      · next hname => exact absurd ⟨⟨c, hh⟩, .inl hname⟩ hswitches
      · next hname => exact absurd ⟨⟨c, hh⟩, .inr hname⟩ hswitches
      · rfl
    · rfl
  · rfl

theorem turn?_call {g : Handle} {c : Connection} {name : Text} {args : List Value} {value : Value}
    (haccess : d.access = .call g name args) (hresult : d.result = .ok value)
    (hg : d.before.objects.get? g = some (.connection c)) (h : Handle) :
    d.turn? h = if h = g then
      match Text.word name with
      | "open" => some (some c.connectionString)
      | "close" => some none
      | _ => none
    else none := by
  by_cases heq : h = g
  · subst heq
    rw [turn?, haccess, hresult, hg, if_pos rfl]
    simp only [if_true]
  · rw [if_neg heq, turn?, haccess, hresult]
    split
    · next hcall _ _ =>
      cases hcall
      rw [if_neg fun hgh => heq hgh.symm]
    · rfl

/-- Opening a connection opens it, or leaves everything as it is; no database is closed. -/
theorem effect_of_open {g : Handle} {c : Connection} {name : Text} {args : List Value}
    (hd : d.Happens) (haccess : d.access = .call g name args)
    (hg : d.before.objects.get? g = some (.connection c)) (hname : Text.word name = "open") :
    d.Effect ∧ d.ClosesOwn := by
  have htraces := hd.traces
  rw [haccess, Access.script, Script.invoke_connection_open hg hname] at htraces
  obtain ⟨result, hopen, hresult⟩ := Script.traces_map.1 htraces
  obtain ⟨hcloses, ⟨fault, rfl, hsame⟩ | ⟨link, rfl, hobjects, hattaches⟩⟩ :=
    Script.traces_openConnection hopen hd.direct
  · exact ⟨.spared hsame.spares (turn?_of_error hresult), closesOwn_of_closesNone hcloses⟩
  · refine ⟨.opened hg hobjects hattaches fun h => ?_, closesOwn_of_closesNone hcloses⟩
    rw [turn?_call haccess hresult hg, hname]
    rfl

/-- Closing a connection closes it, or leaves everything as it is; the only database that may be
closed is its own, if it is not registered. -/
theorem effect_of_close {g : Handle} {c : Connection} {name : Text} {args : List Value}
    (hd : d.Happens) (haccess : d.access = .call g name args)
    (hg : d.before.objects.get? g = some (.connection c)) (hname : Text.word name = "close") :
    d.Effect ∧ d.ClosesOwn := by
  have htraces := hd.traces
  rw [haccess, Access.script, Script.invoke_connection_close hg hname] at htraces
  obtain ⟨result, hclose, hresult⟩ := Script.traces_map.1 htraces
  obtain ⟨hown, hmemory, hresults⟩ := Script.traces_closeConnection hclose hd.direct
  have hcloses : d.ClosesOwn := fun e he link hlink => by
    obtain ⟨hheld, hfree⟩ := hown e he link hlink
    exact ⟨⟨g, (Data.Store.link?_of_get? hg).trans hheld⟩, hfree⟩
  obtain ⟨fault, rfl, hobjects⟩ | ⟨rfl, hobjects⟩ := hresults
  · have hsame : d.before.SameData d.after := ⟨hobjects, hmemory⟩
    exact ⟨.spared hsame.spares (turn?_of_error hresult), hcloses⟩
  · refine ⟨.closed hg hobjects hmemory fun h => ?_, hcloses⟩
    rw [turn?_call haccess hresult hg, hname]
    rfl

/-- Every dealing spares connections or opens or closes one; a database is closed only if a
connection is linked to it and it is not registered. -/
theorem effect (hd : d.Happens) (hsound : d.before.objects.Sound) : d.Effect ∧ d.ClosesOwn := by
  cases haccess : d.access with
  | call g name args =>
    by_cases hswitches : Script.Switches d.before g name
    · obtain ⟨⟨c, hg⟩, hname | hname⟩ := hswitches
      · exact effect_of_open hd haccess hg hname
      · exact effect_of_close hd haccess hg hname
    · refine effect_of_heeds hd ?_ (turn?_of_not_switches haccess hswitches)
      rw [haccess]
      exact Script.sparing_invoke hsound hswitches args
  | construct typeName args =>
    refine effect_of_heeds hd ?_ fun h => by rw [turn?, haccess]
    rw [haccess, Access.script]
    cases hconstruct : Script.construct? typeName args with
    | none => exact (Script.heeds_pure _).heedsFrom _
    | some script => exact (Script.sparing_construct? hconstruct).heedsFrom _
  | read h name =>
    refine effect_of_heeds hd ?_ fun h => by rw [turn?, haccess]
    rw [haccess]
    exact (Script.sparing_member h name).heedsFrom _
  | write h name value =>
    refine effect_of_heeds hd ?_ fun h => by rw [turn?, haccess]
    rw [haccess]
    exact ((Script.sparing_setMember h name value).bind fun _ => Script.heeds_pure _).heedsFrom _
  | item container key =>
    refine effect_of_heeds hd ?_ fun h => by rw [turn?, haccess]
    rw [haccess]
    exact (Script.sparing_index container key).heedsFrom _

namespace Effect

/-- The registry only grows. -/
theorem kept (h : d.Effect) {name : Text} {link : Nat}
    (hget : d.before.memory.get? name = some link) : d.after.memory.get? name = some link := by
  cases h with
  | spared hspares => rwa [hspares.memory]
  | opened _ _ hattaches => exact hattaches.kept hget
  | closed _ _ hmemory => rwa [hmemory]

/-- What comes to the registry was opened just then. -/
theorem mem_values (h : d.Effect) {link : Nat} (hlink : link ∈ d.after.memory.values) :
    link ∈ d.before.memory.values ∨ link ∈ linksOf d.exchanges := by
  cases h with
  | spared hspares => exact .inl (hspares.memory ▸ hlink)
  | opened _ _ hattaches => exact hattaches.mem_values hlink
  | closed _ _ hmemory => exact .inl (hmemory ▸ hlink)

theorem sound (h : d.Effect) (hsound : d.before.objects.Sound) : d.after.objects.Sound := by
  cases h with
  | spared hspares => exact (hspares.objects hsound).1
  | @opened g c link hg hobjects =>
    refine hobjects ▸ Data.Store.sound_set hsound hg rfl nofun fun c' heq => ?_
    cases heq
    exact c.agrees_opened link
  | @closed g c hg hobjects =>
    refine hobjects ▸ Data.Store.sound_set hsound hg rfl nofun fun c' heq => ?_
    cases heq
    exact c.agrees_closed

/-- What a dealing makes of the link of a connection: it stays what it is, there is none, or it is
to the database that the connection string leads to. -/
theorem turn_cases (heffect : d.Effect) (hsound : d.before.objects.Sound) (h : Handle) :
    (d.turn? h = none ∧ d.after.objects.link? h = d.before.objects.link? h) ∨
    (d.turn? h = some none ∧ d.after.objects.link? h = none) ∨
    ∃ c link, d.turn? h = some (some c) ∧ d.after.objects.link? h = some link ∧
      (link ∈ d.before.memory.values ∨ link ∈ linksOf d.exchanges) ∧
      (Data.filePath? c = none → d.after.memory.get? c = some link) := by
  cases heffect with
  | spared hspares hturn => exact .inl ⟨hturn h, (hspares.objects hsound).2 h⟩
  | @opened g c link hg hobjects hattaches hturn =>
    rw [hturn, hobjects, Data.Store.link?_set hg]
    by_cases heq : h = g
    · rw [if_pos heq, if_pos heq]
      exact .inr (.inr ⟨c.connectionString, link, rfl, rfl, hattaches.mem_or_mem,
        hattaches.registered⟩)
    · rw [if_neg heq, if_neg heq]
      exact .inl ⟨rfl, rfl⟩
  | @closed g c hg hobjects _ hturn =>
    rw [hturn, hobjects, Data.Store.link?_set hg]
    by_cases heq : h = g
    · rw [if_pos heq, if_pos heq]
      exact .inr (.inl ⟨rfl, rfl⟩)
    · rw [if_neg heq, if_neg heq]
      exact .inl ⟨rfl, rfl⟩

end Effect

end Dealing

-- ════════════════════════════════════════════════════════════════════════════
-- Sequences of dealings
-- ════════════════════════════════════════════════════════════════════════════

/-- Sequences of dealings, the last one first. Between two dealings anything may happen that leaves
the data access objects and the registry as they are. -/
inductive Dealings (start : World) : List Dealing → World → Prop where
  | start : Dealings start [] start
  | dealing {ds : List Dealing} {d : Dealing} (h : Dealings start ds d.before) (hd : d.Happens) :
    Dealings start (d :: ds) d.after
  | other {ds : List Dealing} {w w' : World} (h : Dealings start ds w) (hsame : w.SameData w') :
    Dealings start ds w'

/-- The connection string for which the connection of a handle is open after a sequence of dealings:
the one that it had when it was last opened. None if it was never opened, or closed since then. -/
def attached (h : Handle) : List Dealing → Option Text
  | [] => none
  | d :: ds => (d.turn? h).getD (attached h ds)

/-- The databases that were opened in a sequence of dealings. -/
def openedIn (ds : List Dealing) : List Nat := ds.flatMap fun d => linksOf d.exchanges

/-- Whether a database was closed in a sequence of dealings. -/
def ClosedIn (link : Nat) (ds : List Dealing) : Prop := ∃ d ∈ ds, ∃ e ∈ d.exchanges, e.Closes link

/-- Whether the engine gave all databases that were opened in a sequence of dealings numbers of
their own, which none of the databases had that were registered before. -/
structure FreshLinks (registered : List Nat) (ds : List Dealing) : Prop where
  nodup : (openedIn ds).Nodup
  disjoint : ∀ link ∈ openedIn ds, link ∉ registered

namespace FreshLinks

variable {registered : List Nat} {ds : List Dealing} {d : Dealing}

theorem tail (h : FreshLinks registered (d :: ds)) : FreshLinks registered ds where
  nodup := (List.nodup_append.1 h.nodup).2.1
  disjoint link hlink := h.disjoint link (List.mem_append_right _ hlink)

theorem earlier {later : List Dealing} (h : FreshLinks registered (later ++ ds)) :
    FreshLinks registered ds := by
  induction later with
  | nil => exact h
  | cons d later ih => exact ih h.tail

theorem notMem (h : FreshLinks registered (d :: ds)) {link : Nat}
    (hlink : link ∈ linksOf d.exchanges) : link ∉ openedIn ds ++ registered := by
  rw [List.mem_append, not_or]
  constructor
  · intro hearlier
    exact (List.nodup_append.1 h.nodup).2.2 link hlink link hearlier rfl
  · exact h.disjoint link (List.mem_append_left _ hlink)

end FreshLinks

/-- How links and registry belong together after a sequence of dealings, where `registered` are the
databases that were registered when it began. -/
structure Sharing (registered : List Nat) (ds : List Dealing) (w : World) : Prop where
  sound : w.objects.Sound
  linked_iff : ∀ h, (w.objects.link? h).isSome = (attached h ds).isSome
  shared : ∀ {h c link}, attached h ds = some c → w.objects.link? h = some link →
    Data.filePath? c = none → w.memory.get? c = some link
  known : ∀ {link}, (∃ h, w.objects.link? h = some link) ∨ link ∈ w.memory.values →
    link ∈ openedIn ds ++ registered
  closed : ∀ {link}, ClosedIn link ds →
    link ∈ openedIn ds ++ registered ∧ link ∉ w.memory.values

namespace Sharing

variable {registered : List Nat} {ds : List Dealing} {w : World} {d : Dealing}

/-- Nothing is shared before anything was done if no connection is open. -/
theorem start (hsound : w.objects.Sound) (hclosed : ∀ h, w.objects.link? h = none) :
    Sharing w.memory.values [] w where
  sound := hsound
  linked_iff h := by
    rw [hclosed]
    rfl
  shared hattached := by cases hattached
  known := by
    rintro link (⟨h, hlink⟩ | hlink)
    · cases (hclosed h).symm.trans hlink
    · exact hlink
  closed := by
    rintro link ⟨d, hd, -⟩
    cases hd

theorem of_sameData (h : Sharing registered ds w) {w' : World} (hsame : w.SameData w') :
    Sharing registered ds w' := by
  obtain ⟨hobjects, hmemory⟩ := hsame
  constructor
  · rw [hobjects]
    exact h.sound
  · rw [hobjects]
    exact h.linked_iff
  · rw [hobjects, hmemory]
    exact h.shared
  · rw [hobjects, hmemory]
    exact h.known
  · rw [hmemory]
    exact h.closed

theorem mem_openedIn_cons {link : Nat} (h : link ∈ openedIn ds ++ registered) :
    link ∈ openedIn (d :: ds) ++ registered := by
  obtain h | h := List.mem_append.1 h
  · exact List.mem_append_left _ (List.mem_append_right _ h)
  · exact List.mem_append_right _ h

theorem mem_openedIn_of_linksOf {link : Nat} (h : link ∈ linksOf d.exchanges) :
    link ∈ openedIn (d :: ds) ++ registered :=
  List.mem_append_left _ (List.mem_append_left _ h)

/-- A dealing leaves links and registry as they belong together. -/
theorem dealing (h : Sharing registered ds d.before) (hd : d.Happens)
    (hfresh : FreshLinks registered (d :: ds)) : Sharing registered (d :: ds) d.after := by
  obtain ⟨heffect, hcloses⟩ := d.effect hd h.sound
  have hturn := heffect.turn_cases h.sound
  constructor
  case sound => exact heffect.sound h.sound
  case linked_iff =>
    intro g
    obtain ⟨hg, hlink⟩ | ⟨hg, hlink⟩ | ⟨c, link, hg, hlink, -⟩ := hturn g
    · rw [hlink, attached, hg, h.linked_iff]
      rfl
    · rw [hlink, attached, hg]
      rfl
    · rw [hlink, attached, hg]
      rfl
  case shared =>
    intro g c link hattached hlink hpath
    rw [attached] at hattached
    obtain ⟨hg, hsame⟩ | ⟨hg, -⟩ | ⟨c', link', hg, hlink', -, hregistered⟩ := hturn g
    · rw [hg] at hattached
      exact heffect.kept (h.shared hattached (hsame ▸ hlink) hpath)
    · rw [hg] at hattached
      cases hattached
    · rw [hg] at hattached
      cases hattached
      cases hlink'.symm.trans hlink
      exact hregistered hpath
  case known =>
    rintro link (⟨g, hlink⟩ | hlink)
    · obtain ⟨-, hsame⟩ | ⟨-, hnone⟩ | ⟨c, link', -, hlink', hopened, -⟩ := hturn g
      · exact mem_openedIn_cons (h.known (.inl ⟨g, hsame ▸ hlink⟩))
      · cases hnone.symm.trans hlink
      · cases hlink'.symm.trans hlink
        obtain hold | hnew := hopened
        · exact mem_openedIn_cons (h.known (.inr hold))
        · exact mem_openedIn_of_linksOf hnew
    · obtain hold | hnew := heffect.mem_values hlink
      · exact mem_openedIn_cons (h.known (.inr hold))
      · exact mem_openedIn_of_linksOf hnew
  case closed =>
    rintro link ⟨d', hd', e, he, hlink⟩
    have hbefore : link ∈ openedIn ds ++ registered ∧ link ∉ d.before.memory.values := by
      obtain rfl | hd' := List.mem_cons.1 hd'
      · obtain ⟨hheld, hfree⟩ := hcloses e he link hlink
        exact ⟨h.known (.inl hheld), hfree⟩
      · exact h.closed ⟨d', hd', e, he, hlink⟩
    refine ⟨mem_openedIn_cons hbefore.1, fun hmem => ?_⟩
    obtain hold | hnew := heffect.mem_values hmem
    · exact hbefore.2 hold
    · exact hfresh.notMem hnew hbefore.1

/-- So does a sequence of dealings, and no entry of the registry is lost or replaced by it. -/
theorem run {earlier later : List Dealing} {w₁ w₂ : World} (h : Sharing registered earlier w₁)
    (hrun : Dealings w₁ later w₂) (hfresh : FreshLinks registered (later ++ earlier)) :
    Sharing registered (later ++ earlier) w₂ ∧
      ∀ {name link}, w₁.memory.get? name = some link → w₂.memory.get? name = some link := by
  induction hrun with
  | start => exact ⟨h, id⟩
  | dealing _ hd ih =>
    obtain ⟨hsharing, hkept⟩ := ih hfresh.tail
    refine ⟨hsharing.dealing hd hfresh, fun hget => ?_⟩
    exact (Dealing.effect hd hsharing.sound).1.kept (hkept hget)
  | other _ hsame ih =>
    obtain ⟨hsharing, hkept⟩ := ih hfresh
    refine ⟨hsharing.of_sameData hsame, fun hget => ?_⟩
    rw [hsame.memory]
    exact hkept hget

end Sharing

-- ════════════════════════════════════════════════════════════════════════════
-- Connections and shared databases
-- ════════════════════════════════════════════════════════════════════════════

namespace Script

theorem member_state {w : World} {h : Handle} {c : Connection} {name : Text}
    (hh : w.objects.get? h = some (.connection c)) (hname : Text.word name = "state") :
    member h name w = .done w (.text c.state) := by
  have hmember : w.objects.member h name = (w.objects, .text c.state) := by
    unfold Data.Store.member
    simp only [hh, hname]
  rw [member, bind_of_done (m := world) rfl, hmember]
  rfl

theorem requireOpen_of_link? {w : World} {h : Handle} {link : Nat}
    (hlink : w.objects.link? h = some link) (operation : Text) :
    requireOpen operation (.object h) w = .done w link := by
  obtain ⟨object, hh, hobject⟩ := Option.bind_eq_some_iff.1 hlink
  cases object with
  | connection c =>
    rw [requireOpen, bind_of_done (object?_apply h w), hh]
    simp only [show c.link = some link from hobject]
    rfl
  | _ => cases hobject

/-- From a world without open connections, let there be any sequence of dealings, in which
connections may be made, opened, also while they are open, fail to open, be closed, run commands,
and be given another connection string at any time. The state of a connection is `Open` exactly if
it is linked to a database, and exactly if it was opened and not closed since. The registry has lost
and replaced no entry at any time, and none of its databases was closed. And a connection that was
opened while its connection string named no file is linked to the database that is registered for
that string, on which its commands run; so connections that were opened for one such string share
their database. -/
theorem connections_share_memory {w₀ w₁ w₂ : World} {earlier later : List Dealing}
    (hsound : w₀.objects.Sound) (hclosed : ∀ h, w₀.objects.link? h = none)
    (h₁ : Dealings w₀ earlier w₁) (h₂ : Dealings w₁ later w₂)
    (hfresh : FreshLinks w₀.memory.values (later ++ earlier)) :
    (∀ {h c name}, w₂.objects.get? h = some (.connection c) → Text.word name = "state" →
      ∃ state, member h name w₂ = .done w₂ (.text state) ∧
        (state = "Open" ↔ c.link.isSome = true) ∧
        (state = "Open" ↔ (attached h (later ++ earlier)).isSome = true)) ∧
    (∀ {name link}, w₁.memory.get? name = some link → w₂.memory.get? name = some link) ∧
    (∀ {name link}, w₂.memory.get? name = some link → ¬ ClosedIn link (later ++ earlier)) ∧
    (∀ {h c}, attached h (later ++ earlier) = some c → Data.filePath? c = none →
      ∃ link, w₂.memory.get? c = some link ∧
        ∀ operation, requireOpen operation (.object h) w₂ = .done w₂ link) ∧
    (∀ {g h c}, attached g (later ++ earlier) = some c → attached h (later ++ earlier) = some c →
      Data.filePath? c = none → w₂.objects.link? g = w₂.objects.link? h) := by
  have hfirst := ((Sharing.start hsound hclosed).run h₁ (by simpa using hfresh.earlier)).1
  rw [List.append_nil] at hfirst
  obtain ⟨hsharing, hkept⟩ := hfirst.run h₂ hfresh
  have hlinked : ∀ {h c}, attached h (later ++ earlier) = some c → Data.filePath? c = none →
      ∃ link, w₂.objects.link? h = some link ∧ w₂.memory.get? c = some link := by
    intro h c hattached hpath
    obtain ⟨link, hlink⟩ := Option.isSome_iff_exists.1
      ((hsharing.linked_iff h).trans (congrArg Option.isSome hattached))
    exact ⟨link, hlink, hsharing.shared hattached hlink hpath⟩
  refine ⟨fun {h c name} hh hname => ?_, hkept, fun {name link} hget hclosedIn => ?_,
    fun {h c} hattached hpath => ?_, fun {g h c} hg hh hpath => ?_⟩
  · have hstate := hsharing.sound.agrees h c hh
    refine ⟨c.state, member_state hh hname, hstate, hstate.trans ?_⟩
    have hlinked := hsharing.linked_iff h
    rw [Data.Store.link?_of_get? hh] at hlinked
    rw [← hlinked]
    rfl
  · exact (hsharing.closed hclosedIn).2 (Table.mem_values_of_get? hget)
  · obtain ⟨link, hlink, hget⟩ := hlinked hattached hpath
    exact ⟨link, hget, requireOpen_of_link? hlink⟩
  · obtain ⟨link, hlink, hget⟩ := hlinked hg hpath
    obtain ⟨link', hlink', hget'⟩ := hlinked hh hpath
    rw [hlink, hlink', ← hget, hget']

/-- A world with two connections for the same database in memory. -/
def twoConnections (first second : Option Nat) (memory : Table Nat) : World where
  objects :=
    let connection : Option Nat → Connection
      | some link => Connection.opened { connectionString := "x" } link
      | none => { connectionString := "x" }
    ⟨#[.connection (connection first), .connection (connection second)]⟩
  memory := memory

/-- The registry with the database of both connections. -/
def registry : Table Nat := ⟨[("x", 1)]⟩

/-- The first connection is opened, which makes the database. -/
def opensFirst : Dealing where
  access := .call ⟨0⟩ "Open" []
  before := twoConnections none none .empty
  exchanges := [.asked (.connect Data.memoryPath) (twoConnections none none .empty)
    (twoConnections none none .empty) (.ok (.ok 1))]
  after := twoConnections (some 1) none registry
  result := .ok .nothing

/-- The second connection is opened. -/
def opensSecond : Dealing where
  access := .call ⟨1⟩ "Open" []
  before := twoConnections (some 1) none registry
  exchanges := []
  after := twoConnections (some 1) (some 1) registry
  result := .ok .nothing

/-- The first connection is closed. -/
def closesFirst : Dealing where
  access := .call ⟨0⟩ "Close" []
  before := twoConnections (some 1) (some 1) registry
  exchanges := [.asked (.commit 1) (twoConnections (some 1) (some 1) registry)
    (twoConnections (some 1) (some 1) registry) (.ok ())]
  after := twoConnections none (some 1) registry
  result := .ok .nothing

theorem happens_opensFirst : opensFirst.Happens where
  traces := .asking (.done _ _)
  direct := List.forall_mem_singleton.2 ⟨[], rfl⟩

theorem happens_opensSecond : opensSecond.Happens where
  traces := .done _ _
  direct := List.forall_mem_nil _

theorem happens_closesFirst : closesFirst.Happens where
  traces := .asking (.done _ _)
  direct := List.forall_mem_singleton.2 ⟨[], rfl⟩

/-- The first connection was closed, and the second one still runs its commands on the database that
was made for the first. -/
theorem connections_share_memory_firstClosed :
    (Dealings (twoConnections none none .empty) [opensSecond, opensFirst] opensSecond.after ∧
      Dealings opensSecond.after [closesFirst] closesFirst.after ∧
      FreshLinks [] [closesFirst, opensSecond, opensFirst]) ∧
    attached ⟨0⟩ [closesFirst, opensSecond, opensFirst] = none ∧
    attached ⟨1⟩ [closesFirst, opensSecond, opensFirst] = some "x" ∧
    closesFirst.after.memory.get? "x" = some 1 ∧
    ¬ ClosedIn 1 [closesFirst, opensSecond, opensFirst] ∧
    requireOpen "ExecuteScalar" (.object ⟨1⟩) closesFirst.after = .done closesFirst.after 1 := by
  have hsound : (twoConnections none none .empty).objects.Sound := by
    refine ⟨?_, ?_⟩
    · rintro ⟨_ | _ | i⟩ t hrows <;> cases hrows
    · rintro ⟨_ | _ | i⟩ c hconnection <;> cases hconnection
      all_goals exact ⟨fun h => absurd h (by decide), fun h => by cases h⟩
  have hclosed : ∀ h, (twoConnections none none .empty).objects.link? h = none := by
    rintro ⟨_ | _ | i⟩ <;> rfl
  have h₁ : Dealings (twoConnections none none .empty) [opensSecond, opensFirst]
      opensSecond.after :=
    .dealing (.dealing .start happens_opensFirst) happens_opensSecond
  have h₂ : Dealings opensSecond.after [closesFirst] closesFirst.after :=
    .dealing .start happens_closesFirst
  have hfresh : FreshLinks [] [closesFirst, opensSecond, opensFirst] :=
    ⟨List.nodup_singleton 1, fun _ _ => List.not_mem_nil⟩
  obtain ⟨-, hkept, hopen, hattached, -⟩ := connections_share_memory hsound hclosed h₁ h₂ hfresh
  have hsecond : attached ⟨1⟩ [closesFirst, opensSecond, opensFirst] = some "x" := by rfl
  have hget : closesFirst.after.memory.get? "x" = some 1 := @hkept "x" 1 rfl
  obtain ⟨link, hlink, hcommands⟩ := hattached hsecond (by decide)
  cases hget.symm.trans hlink
  exact ⟨⟨h₁, h₂, hfresh⟩, by rfl, hsecond, hget, hopen hget, hcommands _⟩

end Script

end FormBasic
