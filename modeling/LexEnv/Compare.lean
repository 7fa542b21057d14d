import LexEnv.Ascending
import LexEnv.TypeName

/-!
# Comparison of values

When two values are equal, and which of two comes first. Numbers of all types compare by exact
value; a list never equals a tuple, but a set may equal a frozen one; functions and classes compare
by name and native or template; scopes by their names and contents, whatever the kinds of their
slots; all other objects only by identity. Numbers, texts, bytes, sequences and sets have an order,
and sets are ordered by inclusion.

The value that is no number equals nothing. Inside containers, however, one and the same object
always matches itself: `same` is equality as containers use it, `equal` the comparison of two values
on their own. Objects may hold themselves; a comparison that never meets a pair of identical objects
then goes on without end, which the number of steps cuts off (`reach`).
-/

namespace LexEnv

/-! ## Quantities -/

/-- What a number is compared by. -/
inductive Quantity where
  | exact (q : Dyadic)
  | infinite (negative : Bool)
  /-- No number; known by its serial number only. -/
  | undefined (serial : Nat)
deriving DecidableEq

namespace Quantity

/-- The quantity of a floating point number. -/
def ofFloat (x : Number.Binary64) (serial : Nat) : Quantity :=
  match x with
  | .finite .. => .exact (x.toDyadic?.getD 0)
  | .infinite negative => .infinite negative
  | .nan => .undefined serial

/-- Whether two quantities are equal as numbers. -/
def equal : Quantity → Quantity → Bool
  | .undefined _, _ => false
  | q, r => q == r

/-- Whether a quantity is less than another. -/
def less : Quantity → Quantity → Bool
  | .exact q, .exact r => q < r
  | .infinite true, .exact _ | .infinite true, .infinite false => true
  | .exact _, .infinite false => true
  | _, _ => false

end Quantity

/-- The quantity of a number; `true` counts as one and `false` as zero. -/
def Value.quantity? : Value → Option Quantity
  | .bool b => some (.exact (.ofInt (if b then 1 else 0)))
  | .int n => some (.exact (.ofInt n))
  | .float x serial => some (.ofFloat x serial)
  | _ => Option.none

/-! ## Containers -/

/-- Whether two lists have the same items in the same order. -/
def sameItems (same : Value → Value → Except Error Bool) :
    List Value → List Value → Except Error Bool
  | [], [] => .ok true
  | v :: vs, w :: ws => do if ← same v w then sameItems same vs ws else return false
  | _, _ => .ok false

/-- Whether the first list comes before the second: the first items that are not the same decide,
or the lengths if there are none. -/
def lessItems (same less : Value → Value → Except Error Bool) :
    List Value → List Value → Except Error Bool
  | _, [] => .ok false
  | [], _ :: _ => .ok true
  | v :: vs, w :: ws => do if ← same v w then lessItems same less vs ws else less v w

/-- Whether each key of a table is a key of another, with the same under it. -/
def Table.within {α : Type} (equal : Value → Value → Except Error Bool)
    (same : α → α → Except Error Bool) (t u : Table α) : Except Error Bool :=
  t.entries.allM fun (k, a) => do
    match ← u.find? equal k with
    | some b => same a b
    | none => return false

namespace Heap

/-- Enough steps to meet every pair of objects. -/
def reach (h : Heap) : Nat := (h.size + 2) * (h.size + 2)

mutual

/-- Whether two values are equal, as far as that many steps tell. -/
def equalWithin (h : Heap) : (steps : Nat) → Value → Value → Except Error Bool
  | 0, _, _ => .error .endless
  | steps + 1, v, w =>
    let equal := h.equalWithin steps
    let same := sameBy equal
    match v, w with
    | .sequence .list c, .sequence .list d =>
      if (h.sequence c).length = (h.sequence d).length then
        sameItems same (h.sequence c) (h.sequence d)
      else .ok false
    | .sequence .tuple c, .sequence .tuple d => sameItems same (h.sequence c) (h.sequence d)
    | .set _ c, .set _ d =>
      if (h.set c).size = (h.set d).size then
        (h.set c).within equal (fun _ _ => .ok true) (h.set d)
      else .ok false
    | .dict c, .dict d =>
      if (h.dict c).size = (h.dict d).size then (h.dict c).within equal same (h.dict d)
      else .ok false
    | .func f, .func g => .ok (f.name == g.name && f.native == g.native)
    | .cls c, .cls d => .ok (c.name == d.name && c.template == d.template)
    | .scope c, .scope d => do
      let less := h.lessWithin steps
      let left ← (h.scope c).ascending less
      let right ← (h.scope d).ascending less
      let parts := fun (bindings : List (Value × SlotId)) =>
        bindings.flatMap fun (name, s) => [name, (h.slot s).value]
      sameItems same (parts left) (parts right)
    | v, w =>
      match v.quantity?, w.quantity? with
      | some q, some r => .ok (q.equal r)
      | _, _ => .ok (v == w)

/-- Whether a value comes before another, as far as that many steps tell. -/
def lessWithin (h : Heap) : (steps : Nat) → Value → Value → Except Error Bool
  | 0, _, _ => .error .endless
  | steps + 1, v, w =>
    let equal := h.equalWithin steps
    let same := sameBy equal
    match v, w with
    | .text s, .text t => .ok (s < t)
    | .bytes b, .bytes c => .ok (b < c)
    | .sequence .list c, .sequence .list d
    | .sequence .tuple c, .sequence .tuple d =>
      lessItems same (h.lessWithin steps) (h.sequence c) (h.sequence d)
    | .set _ c, .set _ d =>
      if (h.set c).size < (h.set d).size then
        (h.set c).within equal (fun _ _ => .ok true) (h.set d)
      else .ok false
    | v, w =>
      match v.quantity?, w.quantity? with
      | some q, some r => .ok (q.less r)
      | _, _ => .error (.typing (.incomparable "<" (h.typeName v) (h.typeName w)))

end

/-- Whether two values are equal on their own. -/
def equal (h : Heap) (v w : Value) : Except Error Bool := h.equalWithin h.reach v w

/-- Whether two values match inside a container. -/
def same (h : Heap) (v w : Value) : Except Error Bool := sameBy h.equal v w

/-- Whether a value comes before another. -/
def less (h : Heap) (v w : Value) : Except Error Bool := h.lessWithin h.reach v w

/-- The names of a scope with their slots, in ascending order of names. -/
def enumerate (h : Heap) (bindings : Scope) : Except Error (List (Value × SlotId)) :=
  bindings.ascending h.less

end Heap

end LexEnv
