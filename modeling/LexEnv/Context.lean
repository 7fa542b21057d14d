import LexEnv.Access
import LexEnv.Elements

/-!
# Contexts

A context joins a stack of scopes with a style map and an output. The style map is a dictionary:
under the name of a class stand the defaults for its constructions, a dictionary again. The output
is a list of the texts that were printed. Both are objects of their own and may be shared between
contexts.

Nothing keeps a host from passing other values as styles or output. What a context does with them is
what those values do when they are asked like dictionaries (`Access.lean`, `Elements.lean`).
-/

namespace LexEnv.ContextId

/-- A new context. Without a style map or an output it gets empty ones of its own. -/
def create (stack : StackId) (styles output : Value) : Action ContextId := do
  let styles ← if styles = .none then Value.newDict .empty else pure styles
  let output ← if output = .none then Value.newList [] else pure output
  Action.allocate (·.addContext ⟨stack, styles, output⟩)

/-- The parts of a context. -/
def view (c : ContextId) : Action Context := Action.read (·.context c)

/-- The stack of a context. -/
def stack (c : ContextId) : Action StackId := do return (← c.view).stack

/-! ## Output -/

/-- The list that takes the output. -/
def output (c : ContextId) : Action SequenceId := do
  match (← c.view).output with
  | .sequence .list lines => return lines
  | v => v.lacking "append"

/-! ## Styles -/

/-- The entries of the defaults of a class; none when the class has no defaults. -/
def defaults (c : ContextId) (name : String) : Action (Table Value) := do
  match ← (← c.view).styles.entry? name with
  | some v => v.toEntries
  | none => return .empty

/-- One of the defaults of a class; `none` when it is not set. -/
def defaultOf (c : ContextId) (name key : String) : Action Value := do
  match ← (← c.view).styles.entry? name with
  | some v => v.entry key
  | none => return .none

/-- Puts something into the style map as the defaults of a class. -/
def setDefaults (c : ContextId) (name : String) (v : Value) : Action Unit := do
  (← c.view).styles.setEntry name v

/-- Puts named values over the defaults of a class; a class without defaults gets some. -/
def addDefaults (c : ContextId) (name : String) (named : List (String × Value)) :
    Action Unit := do
  (← (← c.view).styles.entryOrNew name).absorb named

end LexEnv.ContextId

namespace LexEnv.SequenceId

/-- Adds an item at the end of a list. -/
def append (c : SequenceId) (v : Value) : Action Unit :=
  Action.modifyHeap fun h => h.setSequence c (h.sequence c ++ [v])

end LexEnv.SequenceId
