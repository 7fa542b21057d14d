import LexEnv.Creation
import LexEnv.Number.Decimal

/-!
# Arithmetic and conversions

Sums and products of values. Numbers are added and multiplied as integers while both are whole and
as floating point numbers otherwise; sequences of one type can be joined, and repeated a whole
number of times. Conversions to integers and floating point numbers answer nothing for values that
have none.
-/

namespace LexEnv.Value

open Number

/-! ## Conversions -/

/-- The characters of a byte string that is ASCII text. -/
def asciiText? (bytes : List UInt8) : Option (List Char) :=
  if bytes.all (· < 0x80) then some (bytes.map fun b => Char.ofNat b.toNat) else Option.none

/-- The integer that a value converts to: numbers lose their fraction, text and bytes are read. -/
def toInteger? : Value → Option Int
  | .bool b => some (if b then 1 else 0)
  | .int n => some n
  | .float x _ => x.truncate?
  | .text s => readInt? s.toList
  | .bytes b => (asciiText? b).bind readInt?
  | _ => Option.none

/-- The nearest floating point number of an integer, unless it is beyond all of them. -/
def floatOfInt? (n : Int) : Option Binary64 :=
  let x := Binary64.ofInt n
  if x.isInfinite then Option.none else some x

/-- The floating point number that a value converts to: integers are rounded, text and bytes are
read. -/
def toFloat? : Value → Option Binary64
  | .bool b => floatOfInt? (if b then 1 else 0)
  | .int n => floatOfInt? n
  | .float x _ => some x
  | .text s => readFloat? s.toList
  | .bytes b => (asciiText? b).bind readFloat?
  | _ => Option.none

/-! ## Numbers -/

/-- A value as an operand of arithmetic on numbers. -/
inductive Operand where
  | whole (n : Int)
  | floating (x : Binary64)

/-- The number that a value is, for arithmetic. -/
def operand? : Value → Option Operand
  | .bool b => some (.whole (if b then 1 else 0))
  | .int n => some (.whole n)
  | .float x _ => some (.floating x)
  | _ => Option.none

/-- An operand as a floating point number. -/
def Operand.toFloat : Operand → Action Binary64
  | .whole n =>
    match floatOfInt? n with
    | some x => pure x
    | Option.none => Action.fail (.overflow .conversion)
  | .floating x => pure x

/-- Combines two numbers. -/
def combine (onInts : Int → Int → Int) (onFloats : Binary64 → Binary64 → Binary64)
    (x y : Operand) : Action Value :=
  match x, y with
  | .whole m, .whole n => pure (.int (onInts m n))
  | x, y => do
    let x ← x.toFloat
    let y ← y.toFloat
    newFloat (onFloats x y)

/-- Whether a number is zero or less; other values cannot be compared with zero. -/
def atMostZero (v : Value) : Action Bool := do
  match v.operand? with
  | some (.whole n) => return n ≤ 0
  | some (.floating .nan) => return false
  | some (.floating x) => return !x.exceeds 0
  | Option.none =>
    Action.fail (.typing (.incomparable "<=" (← Action.read (·.typeName v)) (typeOfZero)))
where
  /-- The type of the zero that numbers are compared with. -/
  typeOfZero : String := "int"

/-! ## Sequences -/

/-- The largest count of items that has a meaning. -/
def largestCount : Nat := Nat.pow 2 63 - 1

/-- The most items that fit into memory. -/
def memorySize : Nat := Nat.pow 2 32

/-- An integer as a count of repetitions; none or fewer are none. -/
def repetitions (n : Int) : Except Error Nat :=
  if -(largestCount : Int) - 1 ≤ n ∧ n ≤ largestCount then .ok n.toNat
  else .error (.overflow .count)

/-- A list repeated a number of times. -/
def repeated {α : Type} (n : Nat) (items : List α) : List α :=
  (List.replicate n items).flatten

/-- A list repeated a number of times, if the result fits into memory; `uncountable` is the error of
one that cannot even be counted. -/
def repeatIn {α : Type} (uncountable : Error) (n : Nat) (items : List α) :
    Except Error (List α) :=
  if items.isEmpty ∨ n = 0 then .ok []
  else if largestCount / n < items.length then .error uncountable
  else if memorySize < n * items.length then .error .exhausted
  else .ok (repeated n items)

/-- The repetition of a sequence, if the value is one. -/
def repeat? (v : Value) (n : Int) : Option (Action Value) :=
  match v with
  | .text s => some do
    let cs ← Action.ofOutcome do
      repeatIn (.overflow .repeatedText) (← repetitions n) s.toList
    return .text (String.ofList cs)
  | .bytes b => some do
    let bs ← Action.ofOutcome do repeatIn (.overflow .repeatedBytes) (← repetitions n) b
    return .bytes bs
  | .sequence kind c => some do
    let items ← Action.inspect fun h => do
      repeatIn .exhausted (← repetitions n) (h.sequence c)
    newSequence kind items
  | _ => Option.none

/-- Whether a value is a sequence. -/
def isSequence : Value → Bool
  | .text _ | .bytes _ | .sequence _ _ => true
  | _ => false

/-! ## Sums and products -/

/-- The sum of two values. -/
def add (v w : Value) : Action Value := do
  let left ← Action.read (·.typeName v)
  let right ← Action.read (·.typeName w)
  match v, w with
  | .text s, .text t => return .text (s ++ t)
  | .bytes s, .bytes t => return .bytes (s ++ t)
  | .bytes _, _ => Action.fail (.typing (.bytesConcatenation right))
  | .sequence kind c, .sequence kind' d =>
    if kind = kind' then
      newSequence kind (← Action.read fun h => h.sequence c ++ h.sequence d)
    else Action.fail (.typing (.concatenation left right))
  | .text _, _ | .sequence _ _, _ => Action.fail (.typing (.concatenation left right))
  | v, w =>
    match v.operand?, w.operand? with
    | some x, some y => combine (· + ·) Binary64.add x y
    | _, _ => Action.fail (.typing (.operands "+" left right))

/-- The product of two values. -/
def mul (v w : Value) : Action Value := do
  let left ← Action.read (·.typeName v)
  let right ← Action.read (·.typeName w)
  match v.operand?, w.operand? with
  | some x, some y => combine (· * ·) Binary64.mul x y
  | _, some (.whole n) => (v.repeat? n).getD (Action.fail (.typing (.operands "*" left right)))
  | some (.whole n), _ => (w.repeat? n).getD (Action.fail (.typing (.operands "*" left right)))
  | _, _ =>
    if v.isSequence then Action.fail (.typing (.repetition right))
    else if w.isSequence then Action.fail (.typing (.repetition left))
    else Action.fail (.typing (.operands "*" left right))

end LexEnv.Value
