/-!
# Trace records

Stacks and slots leave a record of what they do: every entered and exited scope, every definition
made through a stack, and every write that a constant slot refused. Definitions carry the text of
their name and refused writes the written form of their value, since both may change later.
-/

namespace LexEnv

/-- One record of the trace. -/
inductive TraceRecord where
  | entered (depth : Nat)
  | exited (depth : Nat)
  | definedConstant (name : String) (depth : Nat)
  | definedVariable (name : String) (depth : Nat)
  | boundSlot (name : String) (depth : Nat)
  | rejectedWrite (shown : String)
  | rejectedUpdate (shown : String)
deriving DecidableEq, Repr

/-- The parts of the library that leave records. -/
inductive TraceSource where
  | scope | slot
deriving DecidableEq, Repr

namespace TraceRecord

/-- Who left a record. -/
def source : TraceRecord → TraceSource
  | .rejectedWrite _ | .rejectedUpdate _ => .slot
  | _ => .scope

/-- The wording of a record. -/
def text : TraceRecord → String
  | .entered depth => s!"Entered scope at depth {depth}"
  | .exited depth => s!"Exited scope, back to depth {depth}"
  | .definedConstant name depth => s!"Defining constant '{name}' at depth {depth}"
  | .definedVariable name depth => s!"Defining variable '{name}' at depth {depth}"
  | .boundSlot name depth => s!"Binding slot '{name}' at depth {depth}"
  | .rejectedWrite shown => s!"Rejected write of {shown} to constant slot"
  | .rejectedUpdate shown => s!"Rejected update of constant slot holding {shown}"

end TraceRecord

end LexEnv
