import LexEnv.Proofs.NewLibrary

/-!
# Conversions

Three functions of the library convert a value to a text, an integer or a floating point number. A
conversion answers a value of its type, or it fails as a script does, with the name of the type that
it cannot convert. There is one exception: the text of an integer with too many digits is refused by
an error of another kind (`Conversion.text_of_overlong_integer`), since nothing turns this error into
one of the script as the other two conversions do with theirs.

Main statement: `Conversion.converts_or_refuses`.
-/

namespace LexEnv

open LexEnv.Action LexEnv.Program

/-- The conversions of the library. -/
inductive Conversion where
  | toText | toInteger | toFloat
deriving DecidableEq, Repr

namespace Conversion

/-- The function of a conversion. -/
def builtin : Conversion → Builtin
  | .toText => .str
  | .toInteger => .int
  | .toFloat => .float

/-- The type that a conversion leads to, as scripts call it. -/
def kind : Conversion → String
  | .toText => "string"
  | .toInteger => "integer"
  | .toFloat => "float"

/-- What a conversion makes of a value. -/
def convert : Conversion → Value → Program Value
  | .toText => Builtin.toText
  | .toInteger => Builtin.toInteger
  | .toFloat => Builtin.toFloat

/-- How a conversion ends: with a value of its type, or with the refusal of a script. -/
inductive Ends (c : Conversion) (h : Heap) (v : Value) : Except Error Value → Prop where
  | converted (w : Value) (typed : h.scriptType w = c.kind) : Ends c h v (.ok w)
  | refused : Ends c h v (.error (.eval (.notConvertible (h.scriptType v) c.kind)))

/-- The text that is asked for would have too many digits. -/
def Overlong (c : Conversion) (v : Value) : Prop :=
  c = .toText ∧ ∃ n, v = .int n ∧ Number.digitLimit < (Nat.toDigits 10 n.natAbs).length

variable {v : Value} {invoke : Invocation} {st : State}

/-! ## What is made of a value -/

theorem run_refuse (v : Value) (kind : String) (st : State) :
    ((Builtin.refuse v kind).run invoke).run st =
      (.error (.eval (.notConvertible (st.heap.scriptType v) kind)), st) := by
  have looked : (Command.scriptType v).run.run st = (.ok (st.heap.scriptType v), st) := rfl
  rw [Builtin.refuse, run_exec_of_ok looked]
  rfl

theorem run_toInteger (v : Value) (st : State) :
    ((Builtin.toInteger v).run invoke).run st =
      (match v.toInteger? with
        | some n => .ok (.int n)
        | none => .error (.eval (.notConvertible (st.heap.scriptType v) "integer")), st) := by
  rw [Builtin.toInteger]
  cases v.toInteger? with
  | some n => rfl
  | none => exact run_refuse v "integer" st

/-- The text of an integer has the digits of its numeral, unless these are too many. -/
theorem run_toText_int (n : Int) (st : State) :
    ((Builtin.toText (.int n)).run invoke).run st =
      (if Number.Writable n then .ok (.text (String.ofList (Number.writeInt n)))
        else .error .digitLimit, st) := by
  have written : (Command.written (.int n)).run.run st =
      (if Number.Writable n then .ok (String.ofList (Number.writeInt n)) else .error .digitLimit,
        st) := by
    obtain ⟨k, reach⟩ := st.heap.exists_reach
    rw [Command.run, run_inspect, Heap.written, reach]
    rfl
  rw [Builtin.toText, run_exec_andThen, run_bind, written]
  by_cases writable : Number.Writable n
  · rw [if_pos writable, if_pos writable]
    rfl
  · rw [if_neg writable, if_neg writable]

theorem overlong_int_iff (n : Int) : Overlong .toText (.int n) ↔ ¬Number.Writable n := by
  rw [Number.writable_iff, Nat.not_le]
  constructor
  · rintro ⟨-, m, eq, long⟩
    cases eq
    exact long
  · exact fun long => ⟨rfl, n, rfl, long⟩

theorem ends_toText (v : Value) (fits : ¬Overlong .toText v) (st : State) :
    Ends .toText st.heap v (((Builtin.toText v).run invoke).run st).1 := by
  cases v with
  | text s => exact .converted (.text s) rfl
  | int n =>
    rw [run_toText_int, if_pos (not_not.mp fun long => fits ((overlong_int_iff n).mpr long))]
    exact .converted (.text _) rfl
  | float x serial =>
    obtain ⟨k, reach⟩ := st.heap.exists_reach
    have written : (Command.written (.float x serial)).run.run st = (.ok x.write, st) := by
      rw [Command.run, run_inspect, Heap.written, reach]
      rfl
    rw [Builtin.toText, run_exec_of_ok written]
    exact .converted (.text _) rfl
  -- Everything else is refused by its type alone, without a look at what it holds.
  | _ =>
    show Ends _ _ _ (((Builtin.refuse _ "string").run invoke).run st).1
    rw [run_refuse]
    exact .refused

theorem ends_toInteger (v : Value) (st : State) :
    Ends .toInteger st.heap v (((Builtin.toInteger v).run invoke).run st).1 := by
  rw [run_toInteger]
  cases v.toInteger? with
  | some n => exact .converted (.int n) rfl
  | none => exact .refused

theorem ends_toFloat (v : Value) (st : State) :
    Ends .toFloat st.heap v (((Builtin.toFloat v).run invoke).run st).1 := by
  unfold Builtin.toFloat
  split
  · next x serial => exact .converted (.float x serial) rfl
  · split
    · next x _ =>
      rw [run_exec]
      cases x <;> exact .converted (.float _ _) rfl
    · rw [run_refuse]
      exact .refused

/-- Each conversion ends with a value of its type or as a script fails, unless the text of an integer
has too many digits. -/
theorem ends_convert (c : Conversion) (v : Value) (fits : ¬c.Overlong v) (st : State) :
    c.Ends st.heap v (((c.convert v).run invoke).run st).1 := by
  cases c with
  | toText => exact ends_toText v fits st
  | toInteger => exact ends_toInteger v st
  | toFloat => exact ends_toFloat v st

theorem run_convert_overlong {c : Conversion} (long : c.Overlong v) (st : State) :
    (((c.convert v).run invoke).run st).1 = .error .digitLimit := by
  obtain ⟨rfl, n, rfl, digits⟩ := long
  have unwritable := (overlong_int_iff n).mp ⟨rfl, n, rfl, digits⟩
  rw [convert, run_toText_int, if_neg unwritable]

/-! ## Calls -/

/-- Calling a conversion on a value comes to what it makes of the value. -/
theorem exists_run_call (c : Conversion) (serial : Nat) (context : ContextId) (v : Value)
    (st : State) : ∃ invoke, (c.builtin.callOn serial context v).run st =
      ((c.convert v).run invoke).run st.afterReading := by
  cases c with
  | toText =>
    obtain ⟨nesting, ran⟩ := Builtin.exists_run_callOn (f := .str) (fun _ _ => rfl)
      (fun _ => (Builtin.built_toText v).confined) serial context st
    exact ⟨_, ran⟩
  | toInteger =>
    obtain ⟨nesting, ran⟩ := Builtin.exists_run_callOn (f := .int) (fun _ _ => rfl)
      (fun _ => (Builtin.built_toInteger v).confined) serial context st
    exact ⟨_, ran⟩
  | toFloat =>
    obtain ⟨nesting, ran⟩ := Builtin.exists_run_callOn (f := .float) (fun _ _ => rfl)
      (fun _ => (Builtin.built_toFloat v).confined) serial context st
    exact ⟨_, ran⟩

/-- Arguments that have been read do not matter to the names of types. -/
theorem Ends.of_afterReading {c : Conversion} {outcome : Except Error Value}
    (ends : c.Ends st.afterReading.heap v outcome) : c.Ends st.heap v outcome := by
  have same : ∀ w, st.afterReading.heap.scriptType w = st.heap.scriptType w := fun w => by
    cases w <;> rfl
  cases ends with
  | converted w typed => exact .converted w ((same w).symm.trans typed)
  | refused =>
    rw [same v]
    exact .refused

/-- A new library binds the conversions. Wherever one is called on a value of whatever kind and size,
it answers a value of its type or fails as a script does, and the text of an integer with too many
digits is the one thing that is refused otherwise. -/
theorem converts_or_refuses (c : Conversion) :
    (∀ st, ∃ library st', ScopeId.newLibrary.run st = (.ok library, st') ∧
      st'.heap.BindsBuiltin library c.builtin) ∧
    ∀ (serial : Nat) (context : ContextId) (v : Value) (st : State),
      (c.Overlong v → ((c.builtin.callOn serial context v).run st).1 = .error .digitLimit) ∧
      (¬c.Overlong v → c.Ends st.heap v ((c.builtin.callOn serial context v).run st).1) := by
  refine ⟨fun st => ?_, fun serial context v st => ?_⟩
  · obtain ⟨library, st', made, binds⟩ := ScopeId.newLibrary_binds st
    exact ⟨library, st', made, binds c.builtin⟩
  · obtain ⟨invoke, ran⟩ := c.exists_run_call serial context v st
    rw [ran]
    exact ⟨fun long => run_convert_overlong long _, fun fits => (c.ends_convert v fits _).of_afterReading⟩

/-- The greatest integer that has a text is converted to it, and the next one is refused. -/
theorem converts_or_refuses_longest : ∃ n : Int, n = (Nat.pow 10 Number.digitLimit : Nat) - 1 ∧
    ¬Overlong .toText (.int n) ∧
    Ends .toText State.initial.heap (.int n) ((Builtin.str.callOn 0 ⟨0⟩ (.int n)).run .initial).1 ∧
    ((Builtin.str.callOn 0 ⟨0⟩ (.int n)).run .initial).1 =
      .ok (.text (String.ofList (Number.writeInt n))) ∧
    Overlong .toText (.int (n + 1)) ∧
    ((Builtin.str.callOn 0 ⟨0⟩ (.int (n + 1))).run .initial).1 = .error .digitLimit := by
  -- The power stays a power: nothing here needs its digits.
  obtain ⟨p, power, positive⟩ : ∃ p : Nat, p = Nat.pow 10 Number.digitLimit ∧ 0 < p := by
    generalize Number.digitLimit = digits
    exact ⟨_, rfl, Nat.pow_pos (by decide)⟩
  have writable : Number.Writable (p - 1 : Int) := by
    rw [Number.Writable, ← power]
    omega
  have unwritable : ¬Number.Writable (p - 1 + 1 : Int) := by
    rw [Number.Writable, ← power]
    omega
  have fits : ¬Overlong .toText (.int (p - 1)) := fun long => (overlong_int_iff _).mp long writable
  have long : Overlong .toText (.int (p - 1 + 1)) := (overlong_int_iff _).mpr unwritable
  obtain ⟨-, ends⟩ := converts_or_refuses .toText
  obtain ⟨invoke, ran⟩ := exists_run_call .toText 0 ⟨0⟩ (.int (p - 1)) .initial
  refine ⟨p - 1, by rw [power], fits, (ends 0 ⟨0⟩ _ .initial).2 fits, ?_, long,
    (ends 0 ⟨0⟩ _ .initial).1 long⟩
  rw [show Builtin.str = toText.builtin from rfl, ran, convert, run_toText_int, if_pos writable]

/-- The text of the smallest integer with too many digits is refused by an error of another kind than
scripts fail with. -/
theorem text_of_overlong_integer : ∃ n : Int, n = (Nat.pow 10 Number.digitLimit : Nat) ∧
    ((Builtin.str.callOn 0 ⟨0⟩ (.int n)).run .initial).1 = .error .digitLimit ∧
    Error.digitLimit.kind = .value ∧ ∀ fault, (Error.eval fault).kind = .eval := by
  -- The power stays a power: nothing here needs its digits.
  obtain ⟨n, power⟩ : ∃ n : Int, n = (Nat.pow 10 Number.digitLimit : Nat) := ⟨_, rfl⟩
  have long : Overlong .toText (.int n) := by
    rw [overlong_int_iff, Number.Writable, power, Int.natAbs_natCast]
    exact Nat.lt_irrefl _
  obtain ⟨invoke, ran⟩ := exists_run_call .toText 0 ⟨0⟩ (.int n) .initial
  refine ⟨n, power, ?_, rfl, fun _ => rfl⟩
  rw [show Builtin.str = toText.builtin from rfl, ran]
  exact run_convert_overlong long _

end Conversion

end LexEnv
