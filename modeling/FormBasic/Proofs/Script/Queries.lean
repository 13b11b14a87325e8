import FormBasic.Proofs.Data.Rows
import FormBasic.Proofs.Script.Running
import FormBasic.Script.Database

/-!
# Queries

A command whose connection is open and whose parameters can be bound asks the engine once, for
exactly its statement; what comes back is read in whatever world the script then finds.

## Main definitions

* `World.Sends` - whether a command can be sent, and to which database with which parameters
* `World.adding` - the world with a new object

## Main statements

* `Data.Store.get?_set_self`, `Data.Store.get?_add_of_get?` - objects after a write
* `Script.execute_apply` - what the execution of a command comes to
* `Script.executeReader_apply` - what a query comes to
-/

namespace FormBasic

open Data (Command Object Reader)

namespace Data.Store

variable {s : Store} {h : Handle} {old : Object}

theorem lt_size_of_get? (hh : s.get? h = some old) : h.index < s.objects.size :=
  (Array.getElem?_eq_some_iff.1 hh).1

/-- A replaced object is the new one. -/
theorem get?_set_self (hh : s.get? h = some old) (object : Object) :
    (s.set h object).get? h = some object :=
  Array.getElem?_setIfInBounds_self_of_lt (lt_size_of_get? hh)

/-- A new object leaves the old ones as they are. -/
theorem get?_add_of_get? (hh : s.get? h = some old) (object : Object) :
    (s.add object).1.get? h = some old := by
  rw [get?_add_of_lt s object (lt_size_of_get? hh), hh]

end Data.Store

namespace World

/-- Whether the connection of a command is open, on a database of this number, and the parameters of
the command are bound in this form. -/
structure Sends (w : World) (c : Command) (link : Nat) (parameters : List (Text × Value)) :
    Prop where
  connected : ∃ g d, c.connection = .object g ∧ w.objects.get? g = some (.connection d) ∧
    d.link = some link
  bound : Script.boundParameters c = .ok parameters

/-- The world with a new object. -/
def adding (w : World) (object : Object) : World :=
  { w with objects := (w.objects.add object).1 }

theorem get?_adding_self (w : World) (object : Object) :
    (w.adding object).objects.get? (w.objects.add object).2 = some object :=
  Data.Store.get?_add_self w.objects object

theorem get?_adding_of_get? {w : World} {h : Handle} {old : Object}
    (hh : w.objects.get? h = some old) (object : Object) :
    (w.adding object).objects.get? h = some old :=
  Data.Store.get?_add_of_get? hh object

end World

namespace Script

variable {w : World} {c : Command} {link : Nat} {parameters : List (Text × Value)}

theorem object?_apply (h : Handle) (w : World) :
    object? (.object h) w = .done w (w.objects.get? h) :=
  bind_of_done (m := world) rfl _

/-- A command that can be sent asks the engine once, for its statement. -/
theorem execute_apply (h : w.Sends c link parameters) (operation : Text) :
    execute operation c w = .asking w (.execute link c.text parameters) fun w' reply =>
      match reply with
      | .ok (.ok result) => .done w' (link, result)
      | .ok (.error reason) => .failed w' (.database (.failed operation reason))
      | .error fault => .failed w' fault := by
  obtain ⟨g, d, hconnection, hg, hlink⟩ := h.connected
  have hopen : requireOpen operation c.connection w = .done w link := by
    rw [requireOpen, hconnection, bind_of_done (object?_apply g w), hg]
    simp only [hlink]
    rfl
  rw [execute, bind_of_done hopen, h.bound, bind_of_done (m := compute _) rfl]
  refine bind_of_asking rfl fun w' reply => ?_
  obtain fault | reason | result := reply
  · rfl
  · rfl
  · rfl

/-- A query that can be sent reads the result that the engine answers. -/
theorem executeReader_apply (h : w.Sends c link parameters) :
    executeReader c w = .asking w (.execute link c.text parameters) fun w' reply =>
      match reply with
      | .ok (.ok result) => .done w' (.ofResult (result.columns.getD []) result.rows)
      | .ok (.error reason) => .failed w' (.database (.failed "ExecuteReader" reason))
      | .error fault => .failed w' fault := by
  rw [executeReader]
  refine bind_of_asking (execute_apply h _) fun w' reply => ?_
  obtain fault | reason | result := reply
  · rfl
  · rfl
  · rfl

end Script

end FormBasic
