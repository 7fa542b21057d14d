import LexEnv.Compare
import LexEnv.Datum

/-!
# Snapshots

Takes the picture of a value off the heap. The walk keeps the objects it is inside of; one that
comes up inside itself is cut off. A scope has a picture only if its names have an order.
-/

namespace LexEnv.Heap

/-- The picture of a value inside some objects, as far as that many steps reach. -/
def lookWithin (h : Heap) : (steps : Nat) → (path : List Value) → Value → Except Error Datum
  | 0, _, _ => .error .endless
  | steps + 1, path, v =>
    if v ∈ path then .ok .again
    else
      let inside := h.lookWithin steps (v :: path)
      match v with
      | .none => .ok .none
      | .bool b => .ok (.bool b)
      | .int n => .ok (.int n)
      | .float x _ => .ok (.float x)
      | .text s => .ok (.text s)
      | .bytes b => .ok (.bytes b)
      | .sequence kind c => do return .sequence kind (← (h.sequence c).mapM inside)
      | .set kind c => do return .set kind (← (h.set c).keyValues.mapM inside)
      | .dict d => do
        return .dict (← (h.dict d).entries.mapM fun e => do
          return (← inside e.1.value, ← inside e.2))
      | .func f => .ok (.func f.name)
      | .cls c => .ok (.cls c.name)
      | .slot s => do return .slot (h.slot s).kind (← inside (h.slot s).value)
      | .scope c => do
        return .scope (← (← h.enumerate (h.scope c)).mapM fun e => do
          let slot := h.slot e.2
          return (← inside e.1, slot.kind, ← inside slot.value))
      | v => .ok (.object (h.typeName v))

/-- The picture of a value. -/
def look (h : Heap) (v : Value) : Except Error Datum := h.lookWithin h.reach [] v

end LexEnv.Heap
