import LexEnv.Value
import LexEnv.Number.Numeral

/-!
# Errors

Everything that can go wrong, by its cause. `EvalFault` are the errors of an evaluated script, which
natives and the calling convention raise; the other causes come from slots, scopes, stacks and from
operations on values of the wrong kind.

`Error.text?` is the one place where causes are put into words. The message of an `EvalFault` may be
any value, since a failed assertion carries the message it was given. An error that names an integer
holds one that can be written.
-/

namespace LexEnv

/-- What a script did wrong. -/
inductive EvalFault where
  /-- A required argument is missing. -/
  | missingArgument (what : String)
  /-- A positional argument was not read. -/
  | unexpectedPositional
  /-- A named argument was not read. -/
  | unexpectedNamed (name : String)
  /-- A length was asked of a value without one. -/
  | notCountable (found : String)
  /-- A value has no conversion to the kind asked for. -/
  | notConvertible (found kind : String)
  /-- An assertion without a message failed. -/
  | assertion
  /-- A message given by the script: that of a failed assertion or of an explicit failure. -/
  | given (message : Value)
deriving DecidableEq, Repr

/-- The message of a fault of a script. -/
def EvalFault.message : EvalFault → Value
  | .missingArgument what => .text s!"missing argument: {what}"
  | .unexpectedPositional => .text "unexpected argument"
  | .unexpectedNamed name => .text s!"unexpected argument: {name}"
  | .notCountable found => .text s!"expected string, array or dictionary, found {found}"
  | .notConvertible found kind => .text s!"cannot convert {found} to {kind}"
  | .assertion => .text "assertion failed"
  | .given message => message

/-- The ways in which an operation is applied to values of the wrong type. -/
inductive TypeFault where
  /-- A class needs a type that can both be constructed and set. -/
  | incompleteClass (name : String)
  /-- A key or element cannot be hashed. -/
  | unhashable (type : String)
  /-- An operator has no meaning for its operands. -/
  | operands (operator left right : String)
  /-- A sequence can be joined only with one of its own type. -/
  | concatenation (left right : String)
  /-- A byte string can be joined only with a byte string. -/
  | bytesConcatenation (right : String)
  /-- A sequence can be repeated only a whole number of times. -/
  | repetition (right : String)
  /-- Two values have no order. -/
  | incomparable (operator left right : String)
  /-- Text cannot be joined by bytes. -/
  | joinedByBytes
  /-- A value has no elements. -/
  | notIterable (type : String)
  /-- A message that is to be shown is no text. -/
  | messageNotText (type : String)
  /-- An operation was given more operands than it takes; the receiver counts as one. -/
  | tooManyOperands (operation : String) (takes given : Nat)
  /-- An operation was not given an operand that it needs. -/
  | missingOperand (operation operand : String)
  /-- A look-up was not given what to look for. -/
  | nothingToFind
  /-- A value cannot be called. -/
  | notCallable (type : String)
  /-- A value has no items that could be replaced. -/
  | fixedItems (type : String)
  /-- The items of a list are counted and have no names. -/
  | namedListItem
  /-- A value has no length. -/
  | noLength (type : String)
  /-- A value cannot be searched. -/
  | notSearchable (type : String)
  /-- Something else than bytes was sought in bytes. -/
  | bytesNeeded (found : String)
  /-- An element that should be an entry of a dictionary has no parts. -/
  | notEntry (index : Nat)
  /-- A message has a gap and nothing to put there. -/
  | unfilledGap
  /-- A message has one gap and more than one thing to put there. -/
  | overfilledGap
deriving DecidableEq, Repr

/-- The message of a type fault. -/
def TypeFault.message : TypeFault → String
  | .incompleteClass name => s!"Class '{name}' must implement both Construct and Set"
  | .unhashable type => s!"unhashable type: '{type}'"
  | .operands operator left right =>
    s!"unsupported operand type(s) for {operator}: '{left}' and '{right}'"
  | .concatenation left right => s!"can only concatenate {left} (not \"{right}\") to {left}"
  | .bytesConcatenation right => s!"can't concat {right} to bytes"
  | .repetition right => s!"can't multiply sequence by non-int of type '{right}'"
  | .incomparable operator left right =>
    s!"'{operator}' not supported between instances of '{left}' and '{right}'"
  | .joinedByBytes => "sequence item 0: expected a bytes-like object, str found"
  | .notIterable type => s!"'{type}' object is not iterable"
  | .messageNotText type => s!"__str__ returned non-string (type {type})"
  | .tooManyOperands operation takes given =>
    let operands := if takes = 1 then "argument" else "arguments"
    s!"{operation}() takes {takes} positional {operands} but {given} were given"
  | .missingOperand operation operand =>
    s!"{operation}() missing 1 required positional argument: '{operand}'"
  | .nothingToFind => "get expected at least 1 argument, got 0"
  | .notCallable type => s!"'{type}' object is not callable"
  | .fixedItems type => s!"'{type}' object does not support item assignment"
  | .namedListItem => "list indices must be integers or slices, not str"
  | .noLength type => s!"object of type '{type}' has no len()"
  | .notSearchable type => s!"argument of type '{type}' is not iterable"
  | .bytesNeeded found => s!"a bytes-like object is required, not '{found}'"
  | .notEntry index => s!"cannot convert dictionary update sequence element #{index} to a sequence"
  | .unfilledGap => "not enough arguments for format string"
  | .overfilledGap => "not all arguments converted during string formatting"

/-- The ways in which a number is too large. -/
inductive OverflowFault where
  /-- An integer is beyond every floating point number. -/
  | conversion
  /-- A quotient of integers is beyond every floating point number. -/
  | quotient
  /-- An integer is beyond every count of items. -/
  | count
  /-- A repeated text has more characters than can be counted. -/
  | repeatedText
  /-- A repeated byte string has more bytes than can be counted. -/
  | repeatedBytes
deriving DecidableEq, Repr

/-- The message of an overflow. -/
def OverflowFault.message : OverflowFault → String
  | .conversion => "int too large to convert to float"
  | .quotient => "integer division result too large for a float"
  | .count => "cannot fit 'int' into an index-sized integer"
  | .repeatedText => "repeated string is too long"
  | .repeatedBytes => "repeated bytes are too long"

/-- An error of an operation. -/
inductive Error where
  /-- A constant slot was written; carries the value that was refused or held. -/
  | constantWrite (value : Value)
  /-- A stack was left more often than it was entered. -/
  | underflow
  /-- A script failed. -/
  | eval (fault : EvalFault)
  /-- A name is not bound in any scope of a stack; carries the text of the name. -/
  | undefinedName (shown : String)
  /-- A stack is as deep as it may get. -/
  | depthLimit (maxDepth : Number.WritableInt)
  /-- The memory in use is beyond the limit of a stack. -/
  | memoryLimit (megabytes : Number.WritableInt)
  /-- An object has no such attribute. -/
  | missingAttribute (type name : String)
  /-- The question has no answer for this kind of object. -/
  | undecided
  /-- An operation does not fit the types of its operands. -/
  | typing (fault : TypeFault)
  /-- An integer has too many digits to be written. -/
  | digitLimit
  /-- An element that should be an entry of a dictionary has not two parts. -/
  | entryLength (index length : Nat)
  /-- A number is too large. -/
  | overflow (fault : OverflowFault)
  /-- A value is too large to be made. -/
  | exhausted
  /-- An object holds itself, or calls go on, without end. -/
  | endless
  /-- A failure that the host asked for. -/
  | raised (message : String)
  /-- A handle was used before anything was kept under its name. -/
  | unknownHandle (name : String)
deriving DecidableEq, Repr

/-- The message of an error, where it is a text: of all but the faults of scripts. -/
def Error.text? : Error → Option String
  | .constantWrite _ => "Cannot assign to a constant binding"
  | .underflow => "no pushed scope"
  | .eval _ => none
  | .undefinedName shown => s!"Name '{shown}' is not defined."
  | .depthLimit maxDepth => s!"Maximum scope depth exceeded ({maxDepth.val})"
  | .memoryLimit megabytes => s!"Memory usage exceeded limit ({megabytes.val} MB)"
  | .missingAttribute type name => s!"'{type}' object has no attribute '{name}'"
  | .undecided => ""
  | .typing fault => fault.message
  | .digitLimit =>
    s!"Exceeds the limit ({Number.digitLimit} digits) for integer string conversion; "
      ++ "use sys.set_int_max_str_digits() to increase the limit"
  | .entryLength index length =>
    s!"dictionary update sequence element #{index} has length {length}; 2 is required"
  | .overflow fault => fault.message
  | .exhausted => ""
  | .endless => "maximum recursion depth exceeded"
  | .raised message => message
  | .unknownHandle name => s!"'{name}'"

/-- The kinds that errors are reported under. -/
inductive ErrorKind where
  | constantWrite | underflow | eval | undefinedName | recursion | memory | missingAttribute
  | notImplemented | typing | value | overflow | raised | handle
deriving DecidableEq, Repr

/-- The kind of an error. -/
def Error.kind : Error → ErrorKind
  | .constantWrite _ => .constantWrite
  | .underflow => .underflow
  | .eval _ => .eval
  | .undefinedName _ => .undefinedName
  | .depthLimit _ | .endless => .recursion
  | .memoryLimit _ | .exhausted => .memory
  | .missingAttribute _ _ => .missingAttribute
  | .undecided => .notImplemented
  | .typing _ => .typing
  | .digitLimit | .entryLength _ _ => .value
  | .overflow _ => .overflow
  | .raised _ => .raised
  | .unknownHandle _ => .handle

/-- Families of errors that a handler may ask for. -/
inductive ErrorFamily where
  | typing | runtime | undefinedName | recursion | any
deriving DecidableEq, Repr

/-- The families that a kind of error belongs to. A refused write to a constant is an error of
types, and leaving a stack too often is one of the running evaluator. -/
def ErrorKind.families : ErrorKind → List ErrorFamily
  | .constantWrite | .typing => [.typing, .any]
  | .underflow | .notImplemented => [.runtime, .any]
  | .undefinedName => [.undefinedName, .any]
  | .recursion => [.runtime, .recursion, .any]
  | _ => [.any]

/-- The message of an error as a value. -/
def Error.message (e : Error) : Value :=
  match e with
  | .eval fault => fault.message
  | e => .text (e.text?.getD "")

end LexEnv
