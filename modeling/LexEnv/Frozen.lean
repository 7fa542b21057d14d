import LexEnv.Compare

/-!
# Frozen values

Scopes are hashed by a frozen form of their contents: lists become tuples, sets become frozen sets,
dictionaries become frozen sets of their entries, and everything else stays as it is. Scopes inside
a content stay scopes, since they are hashed in the same way when their turn comes. Freezing makes
new objects and leaves those that it goes through as they are.

The elements of a frozen set are keys, so freezing needs hashes, and the hash of a scope needs
freezing. `freezeWithin` takes the hash as a parameter; `Hash.lean` ties the two together.
-/

namespace LexEnv

/-- Making objects on a heap. -/
abbrev Building := StateT Heap (Except Error)

/-- A value as a key, with the hash that it has now. -/
def keyBy (hash : Value → Except Error HashCode) : Value → Except Error Key
  | .text s => .ok (.text s)
  | v => do return .other v (← hash v)

namespace Building

/-- A new tuple. -/
def tuple (items : List Value) : Building Value := do
  let (c, h) := (← get).addSequence items
  set h
  return .sequence .tuple c

/-- A new frozen set. -/
def frozenSet (elements : Table Unit) : Building Value := do
  let (c, h) := (← get).addSet elements
  set h
  return .set .frozen c

/-- Adds an element to those of a set. -/
def insert (hash : Heap → Value → Except Error HashCode) (elements : Table Unit) (v : Value) :
    Building (Table Unit) := do
  let h ← get
  elements.put h.equal (← keyBy (hash h) v) ()

theorem run_insert (hash : Heap → Value → Except Error HashCode) (elements : Table Unit) (v : Value)
    (h : Heap) : (insert hash elements v).run h =
      (keyBy (hash h) v >>= fun k => elements.put h.equal k ()) >>= fun t => .ok (t, h) := by
  show ((keyBy (hash h) v >>= fun k => .ok (k, h)) >>= fun p =>
    elements.put h.equal p.1 () >>= fun t => .ok (t, p.2)) = _
  cases keyBy (hash h) v <;> rfl

end Building

/-- The frozen form of a value, as far as that many steps reach. -/
def freezeWithin (hash : Heap → Value → Except Error HashCode) :
    (steps : Nat) → Value → Building Value
  | 0, _ => throw .endless
  | steps + 1, v => do
    let h ← get
    match v with
    | .sequence _ c => do
      Building.tuple (← (h.sequence c).mapM (freezeWithin hash steps))
    | .set _ c => do
      Building.frozenSet (← (h.set c).keyValues.foldlM (fun elements v => do
        Building.insert hash elements (← freezeWithin hash steps v)) .empty)
    | .dict d => do
      Building.frozenSet (← (h.dict d).entries.foldlM (fun elements e => do
        let content ← freezeWithin hash steps e.2
        Building.insert hash elements (← Building.tuple [e.1.value, content])) .empty)
    | v => return v

end LexEnv
