/-!
# Native functions and templates

The functions and classes that exist outside of scripts, by name. `Builtin` are those of the
standard library; `Guest` are those that a host program brings along to drive evaluations. What each
of them does is a program over the operations of the library (`Library.lean`, `Guest.lean`); here
they are only told apart, since two functions are equal when they have the same name and the same
native.
-/

namespace LexEnv

/-- The functions of the standard library. -/
inductive Builtin where
  | repr | type | len | str | int | float | print | assert
deriving DecidableEq, Repr

/-- The functions of the host. -/
inductive Guest where
  | answer | first | echo | eatTwo | optional | lookup | assign | define | enter | exit
  | apply | scoped | countdown | fail
deriving DecidableEq, Repr

/-- A native function. -/
inductive Native where
  | builtin (f : Builtin)
  | guest (f : Guest)
deriving DecidableEq, Repr

/-- What stands behind a class: how it is constructed and how its defaults are set. -/
inductive Template where
  | record | point | box | blank
deriving DecidableEq, Repr

/-- The types a class may be asked to be built from. Only those that can both be constructed and
set have a template. -/
inductive HostType where
  | templated (t : Template)
  | onlyConstructed
  | onlySet
  | number
  | object
  | nothing
deriving DecidableEq, Repr

/-- The template of a type that can both be constructed and set. -/
def HostType.template? : HostType → Option Template
  | .templated t => some t
  | _ => none

/-- The library function of a name. -/
def Builtin.name : Builtin → String
  | .repr => "repr" | .type => "type" | .len => "len" | .str => "str"
  | .int => "int" | .float => "float" | .print => "print" | .assert => "assert"

/-- The functions of the standard library in the order of their definition. -/
def Builtin.all : List Builtin :=
  [.repr, .type, .len, .str, .int, .float, .print, .assert]

/-- The functions of the host. -/
def Guest.all : List Guest :=
  [.answer, .first, .echo, .eatTwo, .optional, .lookup, .assign, .define, .enter, .exit,
    .apply, .scoped, .countdown, .fail]

/-- The templates of classes. -/
def Template.all : List Template := [.record, .point, .box, .blank]

/-- A number for each native function. -/
def Native.code : Native → Nat
  | .builtin f => Builtin.all.idxOf f
  | .guest f => Builtin.all.length + Guest.all.idxOf f

/-- A number for each template. -/
def Template.code (t : Template) : Nat := all.idxOf t

/-- Different native functions have different numbers. -/
theorem Native.code_injective {f g : Native} (h : f.code = g.code) : f = g := by
  cases f with
  | builtin f => cases g with
    | builtin g => cases f <;> cases g <;> first | rfl | exact absurd h (by decide)
    | guest g => cases f <;> cases g <;> exact absurd h (by decide)
  | guest f => cases g with
    | builtin g => cases f <;> cases g <;> exact absurd h (by decide)
    | guest g => cases f <;> cases g <;> first | rfl | exact absurd h (by decide)

/-- Different templates have different numbers. -/
theorem Template.code_injective {t u : Template} (h : t.code = u.code) : t = u := by
  cases t <;> cases u <;> first | rfl | exact absurd h (by decide)

/-- Every library function is listed. -/
theorem Builtin.mem_all (f : Builtin) : f ∈ all := by cases f <;> decide

end LexEnv
