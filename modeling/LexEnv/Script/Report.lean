import LexEnv.Action
import LexEnv.Snapshot

/-!
# Reports

What a script gets to see: pictures of values, lists of bindings, and failures with their kind and
message. A report is taken at the moment of the answer; what happens to the objects later does not
change it.
-/

namespace LexEnv.Script

/-- The result of a step as it is shown. -/
inductive Report where
  | datum (d : Datum)
  /-- Names with the kinds and contents of their slots. -/
  | bindings (bs : List (Datum × SlotKind × Datum))
  | list (rs : List Report)
  | fields (fs : List (String × Report))

/-- An error as it is shown. -/
structure Failure where
  kind : ErrorKind
  message : Datum
  /-- The value that a constant slot refused to give up or to take. -/
  value : Option Datum

/-- The answer to a step. -/
inductive Answer where
  | value (r : Report)
  | failed (f : Failure)
  /-- The answers of the steps in a block, and the depth after it or the failure that it ended
  with. -/
  | block (inner : List Answer) (result : Except Failure Nat)

/-- Shows a value. -/
def showValue (v : Value) : Action Report := Action.inspect fun h => do return .datum (← h.look v)

/-- Shows names with their slots. -/
def showBindings (bs : List (Value × SlotId)) : Action Report :=
  Action.inspect fun h => do
    return .bindings (← bs.mapM fun (name, s) => do
      let slot := h.slot s
      return (← h.look name, slot.kind, ← h.look slot.value))

/-- An error as it is shown. A value that cannot be shown is left out. -/
def failureOf (h : Heap) (e : Error) : Failure where
  kind := e.kind
  message := (h.look e.message).toOption.getD .none
  value := match e with
    | .constantWrite v => (h.look v).toOption
    | _ => none

/-- Shows an error. -/
def showError (e : Error) : Action Failure := Action.read (failureOf · e)

end LexEnv.Script
