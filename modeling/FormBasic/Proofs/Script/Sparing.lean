import FormBasic.Proofs.Data.Links
import FormBasic.Proofs.Script.Manners

/-!
# Scripts that spare connections

Opening and closing are the only methods by which scripts link a connection to a database or unlink
it, and the only ones that open or close databases. Everything else that can be done to a data
access object leaves all links and the registry of the databases in memory as they are.

## Main definitions

* `World.Spares` - worlds with the same links and the same registry
* `Manner.sparing` - to change no link and to open and close no database
* `Script.Switches` - calls that open or close a connection

## Main statements

* `Script.sparing_construct?`, `Script.sparing_member`, `Script.sparing_setMember`,
  `Script.sparing_index` - new objects, members and items
* `Script.sparing_invoke` - all methods but those that open or close a connection
-/

namespace FormBasic

open Data (Object Command Reader)

/-- Whether nothing has happened between two worlds that changes a link or the registry of the
databases in memory. -/
structure World.Spares (w w' : World) : Prop where
  objects : w.objects.Spares w'.objects
  memory : w'.memory = w.memory

namespace World

theorem Spares.refl (w : World) : w.Spares w := ⟨.refl _, rfl⟩

theorem Spares.trans {w₁ w₂ w₃ : World} (h : w₁.Spares w₂) (h' : w₂.Spares w₃) : w₁.Spares w₃ :=
  ⟨h.objects.trans h'.objects, h'.memory.trans h.memory⟩

theorem spares_of_objects {w : World} {objects : Data.Store} (h : w.objects.Spares objects) :
    w.Spares { w with objects } :=
  ⟨h, rfl⟩

end World

/-- Whether a request opens or closes a database. -/
def Request.movesLink : Request → Prop
  | .connect _ | .disconnect _ => True
  | _ => False

/-- To change no link and to open and close no database. -/
def Manner.sparing : Manner where
  step := World.Spares
  refl := .refl
  trans := .trans
  asks request := ¬ request.movesLink
  calls := False

namespace Script

section HeedsFrom

variable {k : Manner} {α β : Type} {m : Script α} {w : World}

/-- Whether a script heeds a manner where it starts from one world. -/
def HeedsFrom (k : Manner) (w : World) (m : Script α) : Prop := (m w).Heeds k w

theorem Heeds.heedsFrom (h : m.Heeds k) (w : World) : m.HeedsFrom k w := h w

theorem HeedsFrom.bind (h : m.HeedsFrom k w) {f : α → Script β} (hf : ∀ a, (f a).Heeds k) :
    (m >>= f).HeedsFrom k w := by
  refine Outcome.Heeds.andThen h fun w' result => ?_
  cases result with
  | ok a => exact hf a w'
  | error fault => exact heeds_throw fault w'

theorem heedsFrom_bind_of_done {a : α} (h : m w = .done w a) {f : α → Script β}
    (hf : (f a).HeedsFrom k w) : (m >>= f).HeedsFrom k w := by
  rw [HeedsFrom, bind_of_done h]
  exact hf

end HeedsFrom

variable {w : World} {h : Handle}

-- ════════════════════════════════════════════════════════════════════════════
-- Objects, members and items
-- ════════════════════════════════════════════════════════════════════════════

theorem sparing_create {object : Object} (hlink : object.link? = none)
    (hrows : ∀ t, object ≠ .rows t) (hagrees : ∀ c, object = .connection c → c.Agrees) :
    (create object).Heeds .sparing :=
  heeds_look fun _ => World.spares_of_objects
    (Data.Store.spares_add hlink (fun t heq => absurd heq (hrows t)) hagrees)

theorem sparing_replace {old object : Object} (hh : w.objects.get? h = some old)
    (hreplaces : old.Replaces object) : (replace h object).HeedsFrom .sparing w :=
  World.spares_of_objects (Data.Store.spares_set hh hreplaces)

theorem sparing_member (h : Handle) (name : Text) : (member h name).Heeds .sparing :=
  heeds_look fun w => World.spares_of_objects (w.objects.spares_member h name)

theorem sparing_setMember (h : Handle) (name : Text) (value : Value) :
    (setMember h name value).Heeds .sparing := by
  refine heeds_look fun w => ?_
  cases hset : w.objects.setMember h name value with
  | error refusal => exact World.Spares.refl w
  | ok objects => exact World.spares_of_objects (Data.Store.spares_setMember hset)

theorem sparing_index (container key : Value) : (index container key).Heeds .sparing := by
  refine heeds_look fun w => ?_
  cases hindex : w.objects.index container key with
  | error fault => exact World.Spares.refl w
  | ok found => exact World.spares_of_objects (Data.Store.spares_index hindex)

theorem sparing_indexed (value : Value) (args : List Value) :
    (indexed value args).Heeds .sparing := by
  unfold indexed
  split
  · exact heeds_pure _
  · exact sparing_index _ _

theorem sparing_object? (value : Value) : (object? value).Heeds .sparing := by
  cases value with
  | object h => exact heeds_world.bind fun _ => heeds_pure _
  | _ => exact heeds_pure none

theorem sparing_invokeMember (h : Handle) (name : Text) (args : List Value) :
    (invokeMember h name args).Heeds .sparing :=
  (sparing_member h name).bind fun value => sparing_indexed value args

theorem sparing_construct? {typeName : String} {args : List Value} {script : Script Value}
    (hscript : construct? typeName args = some script) : script.Heeds .sparing := by
  unfold construct? at hscript
  split at hscript
  · cases hscript
    refine (heeds_compute _).bind fun _ => sparing_create rfl nofun fun c heq => ?_
    cases heq
    exact Data.Connection.agrees_closed { connectionString := _ }
  · cases hscript
    refine (heeds_compute _).bind fun _ => (sparing_object? _).bind fun _ => ?_
    split
    · exact sparing_create rfl nofun nofun
    · exact sparing_create rfl nofun nofun
    · exact heeds_throw _
  · cases hscript
    exact sparing_create rfl nofun nofun
  · cases hscript
    exact sparing_create rfl nofun nofun
  · cases hscript

-- ════════════════════════════════════════════════════════════════════════════
-- Commands
-- ════════════════════════════════════════════════════════════════════════════

theorem sparing_requireOpen (operation : Text) (connection : Value) :
    (requireOpen operation connection).Heeds .sparing := by
  refine (sparing_object? _).bind fun _ => ?_
  split
  · exact heeds_throw _
  · split
    · exact heeds_pure _
    · exact heeds_throw _
  · exact heeds_throw _

theorem sparing_execute (operation : Text) (c : Command) :
    (execute operation c).Heeds .sparing := by
  refine (sparing_requireOpen _ _).bind fun link => (heeds_compute _).bind fun _ =>
    (heeds_ask id).bind fun reply => ?_
  cases reply with
  | ok result => exact heeds_pure _
  | error reason => exact heeds_throw _

theorem sparing_executeReader (c : Command) : (executeReader c).Heeds .sparing :=
  (sparing_execute _ c).bind fun _ => heeds_pure _

theorem sparing_executeNonQuery (c : Command) : (executeNonQuery c).Heeds .sparing :=
  (sparing_execute _ c).bind fun _ => (heeds_ask id).bind fun _ => heeds_pure _

theorem sparing_executeScalar (c : Command) : (executeScalar c).Heeds .sparing :=
  (sparing_execute _ c).bind fun _ => (heeds_ask id).bind fun _ => heeds_pure _

theorem sparing_fill (command target : Value) : (fill command target).Heeds .sparing := by
  unfold fill
  split
  · exact heeds_throw _
  refine (sparing_object? target).bind fun found => ?_
  split
  · next h t =>
    refine (sparing_object? command).bind fun found => ?_
    split
    · refine (sparing_executeReader _).bind fun reader => ?_
      intro w
      -- the table is looked up again after the query
      refine heedsFrom_bind_of_done (object?_apply h w) ?_
      split
      · next hh => exact HeedsFrom.bind (sparing_replace hh (.table _ _)) fun _ => heeds_pure _
      · exact (heeds_pure _).heedsFrom w
    · exact heeds_throw _
  · exact heeds_throw _

theorem sparing_changeParameters (h : Handle) (f : Table Value → Table Value) :
    (changeParameters h f).Heeds .sparing := by
  intro w
  refine heedsFrom_bind_of_done (m := world) rfl ?_
  split
  · next hcommand =>
    have hh := Data.Store.get?_of_command? hcommand
    exact HeedsFrom.bind (sparing_replace hh (.command _ _)) fun _ => heeds_pure _
  · exact (heeds_pure _).heedsFrom w

theorem sparing_addParameter (command : Handle) (args : List Value) :
    (addParameter command args).Heeds .sparing := by
  cases args with
  | nil => exact heeds_throw _
  | cons name rest => exact (heeds_compute _).bind fun _ => sparing_changeParameters _ _

-- ════════════════════════════════════════════════════════════════════════════
-- Methods
-- ════════════════════════════════════════════════════════════════════════════

theorem sparing_invokeReader {r : Reader} (hh : w.objects.get? h = some (.reader r)) (name : Text)
    (args : List Value) : (invokeReader h r name args).HeedsFrom .sparing w := by
  have hcell : (compute (r.value (Library.arg args 0 .nothing))).Heeds .sparing := heeds_compute _
  unfold invokeReader
  simp only
  split
  · exact HeedsFrom.bind (sparing_replace hh (.reader _ _)) fun _ => heeds_pure _
  · exact HeedsFrom.bind (sparing_replace hh (.reader _ _)) fun _ => heeds_pure _
  · exact (hcell.bind fun _ => (heeds_compute _).bind fun _ => heeds_pure _).heedsFrom w
  · exact (hcell.bind fun _ => (heeds_compute _).bind fun _ => heeds_pure _).heedsFrom w
  · exact hcell.heedsFrom w
  · exact hcell.heedsFrom w
  · exact (hcell.bind fun _ => heeds_pure _).heedsFrom w
  · exact (sparing_invokeMember _ _ _).heedsFrom w

theorem sparing_clearTable (hh : w.objects.IsTable h) : (clearTable h).HeedsFrom .sparing w := by
  obtain ⟨t, ht⟩ := hh
  exact HeedsFrom.bind (sparing_replace ht (.table _ _)) fun _ => heeds_pure _

/-- Whether a call opens or closes a connection. -/
def Switches (w : World) (h : Handle) (name : Text) : Prop :=
  (∃ c, w.objects.get? h = some (.connection c)) ∧
    (Text.word name = "open" ∨ Text.word name = "close")

/-- In a world in which the collections of rows refer to tables, all methods but those that open or
close a connection spare connections. -/
theorem sparing_invoke (hsound : w.objects.Sound) {name : Text} (hswitches : ¬ Switches w h name)
    (args : List Value) : (invoke h name args).HeedsFrom .sparing w := by
  refine heedsFrom_bind_of_done (m := world) rfl ?_
  split
  · next c hh hname => exact absurd ⟨⟨c, hh⟩, .inl hname⟩ hswitches
  · next c hh hname => exact absurd ⟨⟨c, hh⟩, .inr hname⟩ hswitches
  · exact (sparing_create rfl (fun _ => Object.noConfusion) fun _ => Object.noConfusion).heedsFrom w
  · refine Heeds.heedsFrom ((sparing_executeReader _).bind fun reader => ?_) w
    exact sparing_create rfl nofun nofun
  · exact (sparing_executeNonQuery _).heedsFrom w
  · exact (sparing_executeScalar _).heedsFrom w
  · next r hh => exact sparing_invokeReader hh name args
  · split
    · exact (sparing_index _ _).heedsFrom w
    · exact (sparing_invokeMember _ _ _).heedsFrom w
  · next hh _ => exact sparing_clearTable (hsound.rows _ _ hh)
  · next hh _ => exact sparing_clearTable ⟨_, hh⟩
  · exact (sparing_addParameter _ _).heedsFrom w
  · exact (sparing_addParameter _ _).heedsFrom w
  · exact (sparing_changeParameters _ _).heedsFrom w
  · exact (sparing_fill _ _).heedsFrom w
  · exact (sparing_invokeMember _ _ _).heedsFrom w

end Script

end FormBasic
