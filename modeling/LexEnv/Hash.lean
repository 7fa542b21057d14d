import LexEnv.Frozen

/-!
# Hashes

A hash is given as a word of integers; two values have the same hash exactly when their words are
equal. Equal values have the same hash, but not only they:

* numbers are hashed by their residue modulo a Mersenne prime,
* text and bytes by the units they are stored in, with one, two or four bytes for each character
  according to the widest one, and like zero when empty,
* tuples by the hashes of their items in order,
* frozen sets by their size and the hashes that their elements were stored with, in any order, of
  which equal ones cancel in pairs,
* scopes like tuples of their size and their names with frozen contents, functions and classes like
  pairs of a name and what stands behind it,
* other objects by identity.

Lists, sets that can change and dictionaries have no hash. Every word starts with a tag and shows
where it ends, so words can be strung together.
-/

namespace LexEnv

/-! ## Words -/

/-- The modulus of the hashes of numbers. -/
def hashModulus : Nat := Nat.pow 2 61 - 1

/-- The residue of a dyadic rational, with its sign; minus one is kept free and gives minus two. A
power of two goes by its exponent modulo 61. -/
def residue : Dyadic → Int
  | .zero => 0
  | .ofOdd n k _ =>
    let r : Int := ↑(n.natAbs % hashModulus * Nat.pow 2 ((-k) % 61).toNat % hashModulus)
    let r := if n < 0 then -r else r
    if r = -1 then -2 else r

/-- So many bytes of a number, least significant first. -/
def littleEndian : (width : Nat) → Nat → List Nat
  | 0, _ => []
  | width + 1, n => n % 256 :: littleEndian width (n / 256)

/-- The bytes that a text is stored in. -/
def storedBytes (s : List Char) : List Nat :=
  let width := if s.all (·.toNat < 0x100) then 1 else if s.all (·.toNat < 0x10000) then 2 else 4
  s.flatMap fun c => littleEndian width c.toNat

/-- Drops equal neighbours in pairs. -/
def cancelPairs : List (List Int) → List (List Int)
  | [] => []
  | [w] => [w]
  | w :: x :: ws => if w = x then cancelPairs ws else w :: cancelPairs (x :: ws)

namespace HashCode

/-- The hash of a quantity. -/
def ofQuantity : Quantity → HashCode
  | .exact q => ⟨[0, residue q]⟩
  | .infinite negative => ⟨[0, if negative then -314159 else 314159]⟩
  | .undefined serial => ⟨[1, serial]⟩

/-- The hash of a natural number. -/
def ofNat (n : Nat) : HashCode := ofQuantity (.exact (.ofInt n))

/-- The hash of stored bytes. -/
def ofStored (bytes : List Nat) : HashCode :=
  if bytes.isEmpty then ⟨[0, 0]⟩ else ⟨2 :: bytes.length :: bytes.map Int.ofNat⟩

/-- The hash of a text. -/
def ofText (s : String) : HashCode := ofStored (storedBytes s.toList)

/-- The hash of a tuple from those of its items. -/
def ofItems (items : List HashCode) : HashCode :=
  ⟨3 :: items.length :: (items.map word).flatten⟩

/-- Whether a word comes before another one, or is the same; the first difference decides. -/
def notAfter (v w : List Int) : Bool := !w.lex v fun m n => m < n

/-- The hash of a set from those of its elements. -/
def ofElements (elements : List HashCode) : HashCode :=
  let odd := cancelPairs ((elements.map word).mergeSort notAfter)
  ⟨4 :: elements.length :: odd.length :: odd.flatten⟩

end HashCode

/-- The hash that a key was stored with. -/
def Key.hash : Key → HashCode
  | .text s => .ofText s
  | .other _ hash => hash

namespace Heap

/-! ## Hashes of values -/

/-- The hash of a value, as far as that many steps reach. -/
def hashWithin : (steps : Nat) → Heap → Value → Except Error HashCode
  | 0, _, _ => .error .endless
  | steps + 1, h, v =>
    match v with
    | .none => .ok ⟨[5]⟩
    | .text s => .ok (.ofText s)
    | .bytes b => .ok (.ofStored (b.map UInt8.toNat))
    | .sequence .tuple c => do
      return .ofItems (← (h.sequence c).mapM (hashWithin steps h))
    | .set .frozen c => .ok (.ofElements ((h.set c).entries.map (·.1.hash)))
    | .func f => .ok (.ofItems [.ofText f.name, ⟨[6, f.native.code]⟩])
    | .cls c => .ok (.ofItems [.ofText c.name, ⟨[7, c.template.code]⟩])
    | .slot s => .ok ⟨[8, s.index]⟩
    | .stack s => .ok ⟨[9, s.index]⟩
    | .arguments a => .ok ⟨[10, a.index]⟩
    | .context c => .ok ⟨[11, c.index]⟩
    | .scope c => do
      let bindings ← h.enumerate (h.scope c)
      let (contents, h') ←
        (bindings.mapM fun e => freezeWithin (hashWithin steps) steps (h.slot e.2).value).run h
      let names ← bindings.mapM fun e => hashWithin steps h' e.1
      let contents ← contents.mapM (hashWithin steps h')
      let pairs := List.zipWith (fun n v => HashCode.ofItems [n, v]) names contents
      return .ofItems (.ofNat bindings.length :: pairs)
    | v =>
      match v.quantity? with
      | some q => .ok (.ofQuantity q)
      | Option.none => .error (.typing (.unhashable (h.typeName v)))

/-- The hash of a value. -/
def hash (h : Heap) (v : Value) : Except Error HashCode := hashWithin h.reach h v

/-- The frozen form of a value, and the heap with the objects that it consists of. -/
def freeze (h : Heap) (v : Value) : Except Error (Value × Heap) :=
  (freezeWithin (hashWithin h.reach) h.reach v).run h

/-! ## Tables -/

/-- A value as a key, with the hash that it has now. -/
def key (h : Heap) (v : Value) : Except Error Key := keyBy h.hash v

/-- What stands under a key of a table. -/
def find? {α : Type} (h : Heap) (key : Key) (t : Table α) : Except Error (Option α) :=
  t.find? h.equal key

/-- Puts something under a key of a table. -/
def put {α : Type} (h : Heap) (key : Key) (a : α) (t : Table α) : Except Error (Table α) :=
  t.put h.equal key a

@[simp] theorem key_text (h : Heap) (s : String) : h.key (.text s) = .ok (.text s) := rfl

@[simp] theorem find?_text {α : Type} (h : Heap) (name : String) (t : Table α) :
    h.find? (.text name) t = .ok (t.get? name) := Table.find?_text h.equal name t

@[simp] theorem put_text {α : Type} (h : Heap) (name : String) (a : α) (t : Table α) :
    h.put (.text name) a t = .ok (t.insert name a) := Table.put_text h.equal name a t

end Heap

end LexEnv
