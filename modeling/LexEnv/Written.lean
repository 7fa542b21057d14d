import LexEnv.Compare
import LexEnv.Number.Shortest
import LexEnv.Text.Joined
import LexEnv.Text.Quoted

/-!
# Written form of values

The text that stands for a value wherever one is shown: in scripts, in the trace, in the printing of
scopes. Text is quoted, containers are bracketed, a one-element tuple keeps its comma.

A container inside itself is cut off there and written as an ellipsis in its brackets. The two parts
of arguments, the positional and the named ones, are containers in this sense as well. Slots and
scopes are not; one that holds itself other than through a container has no written form, and
neither has an integer with too many digits.
-/

namespace LexEnv

/-! ## Brackets -/

/-- The written form of a sequence with items. -/
def SequenceKind.bracket (kind : SequenceKind) (items : List String) : String :=
  let inner := Text.joinWith ", " items
  match kind, items with
  | .list, _ => "[" ++ inner ++ "]"
  | .tuple, [_] => "(" ++ inner ++ ",)"
  | .tuple, _ => "(" ++ inner ++ ")"

/-- The written form of a sequence inside itself. -/
def SequenceKind.ellipsis : SequenceKind → String
  | .list => "[...]"
  | .tuple => "(...)"

/-- The written form of a set with elements. -/
def SetKind.bracket (kind : SetKind) (elements : List String) : String :=
  let inner := Text.joinWith ", " elements
  match kind, elements with
  | .changing, [] => "set()"
  | .changing, _ => "\x7b" ++ inner ++ "\x7d"
  | .frozen, [] => "frozenset()"
  | .frozen, _ => "frozenset(\x7b" ++ inner ++ "\x7d)"

/-- The written form of a set inside itself. -/
def SetKind.ellipsis (kind : SetKind) : String := kind.typeName ++ "(...)"

/-- The written form of a dictionary with entries. -/
def bracketEntries (entries : List String) : String :=
  "\x7b" ++ Text.joinWith ", " entries ++ "\x7d"

/-! ## Values -/

/-- The containers that a written form can be inside of. -/
inductive Enclosing where
  | sequence (c : SequenceId)
  | set (c : SetId)
  | dict (d : DictId)
  | positional (a : ArgumentsId)
  | named (a : ArgumentsId)
deriving DecidableEq

namespace Heap

/-- The written form of a value inside some containers, as far as that many steps reach. -/
def writeWithin (h : Heap) : (steps : Nat) → List Enclosing → Value → Except Error String
  | 0, _, _ => .error .endless
  | steps + 1, path, v =>
    let enclosed := fun (c : Enclosing) (ellipsis : String)
        (write : (Value → Except Error String) → Except Error String) =>
      if c ∈ path then .ok ellipsis else write (h.writeWithin steps (c :: path))
    match v with
    | .none => .ok "None"
    | .bool b => .ok (if b then "True" else "False")
    | .int n =>
      if Number.Writable n then .ok (String.ofList (Number.writeInt n)) else .error .digitLimit
    | .float x _ => .ok x.write
    | .text s => .ok (Text.quote s)
    | .bytes b => .ok (Text.quoteBytes b)
    | .sequence kind c =>
      enclosed (.sequence c) kind.ellipsis fun write => do
        return kind.bracket (← (h.sequence c).mapM write)
    | .set kind c =>
      enclosed (.set c) kind.ellipsis fun write => do
        return kind.bracket (← (h.set c).keyValues.mapM write)
    | .dict d =>
      enclosed (.dict d) "\x7b...\x7d" fun write => do
        return bracketEntries (← (h.dict d).entries.mapM fun e => do
          return (← write e.1.value) ++ ": " ++ (← write e.2))
    | .func f => .ok ("<function " ++ f.name ++ ">")
    | .cls c => .ok ("<class " ++ c.name ++ ">")
    | .slot s =>
      match (h.slot s).kind with
      | .bare => .ok ("<" ++ SlotKind.bare.typeName ++ " object>")
      | kind => do
        return kind.typeName ++ "(" ++ (← h.writeWithin steps path (h.slot s).value) ++ ")"
    | .scope c => do
      let bindings ← h.enumerate (h.scope c)
      let shown ← bindings.mapM fun e => do
        let name ← match e.1 with
          | .text s => pure s
          | v => h.writeWithin steps path v
        return name ++ ": " ++ (← h.writeWithin steps path (h.slot e.2).value)
      return "Scope " ++ bracketEntries shown
    | .arguments a => do
      let positional ← enclosed (.positional a) SequenceKind.list.ellipsis fun write => do
        return SequenceKind.list.bracket (← (h.args a).positional.mapM write)
      let named ← enclosed (.named a) "\x7b...\x7d" fun write => do
        return bracketEntries (← (h.args a).named.mapM fun e => do
          return Text.quote e.1 ++ ": " ++ (← write e.2))
      return "Args(" ++ positional ++ ", " ++ named ++ ")"
    | v => .ok ("<" ++ h.typeName v ++ " object>")

/-- The written form of a value. -/
def written (h : Heap) (v : Value) : Except Error String := h.writeWithin h.reach [] v

/-- The text of a value: text as it is, everything else as it is written. -/
def display (h : Heap) : Value → Except Error String
  | .text s => .ok s
  | v => h.written v

@[simp] theorem display_text (h : Heap) (s : String) : h.display (.text s) = .ok s := rfl

end Heap

end LexEnv
