import LexEnv.Proofs.NewLibrary
import LexEnv.Script.Probe

/-!
# Messages of faults

An error shows itself by its message, and cannot show itself when the message is no text
(`Error.shown_iff`). Operations word their errors (`Powers.wording`), and so do the functions and
classes of the library. There is one exception: an assertion that does not hold passes on the message
that it was given, whatever that is (`Misworded`).

Main statement: `library_faults_shown`.
-/

namespace LexEnv

open LexEnv.Action LexEnv.Program

/-! ## Errors that can be shown -/

namespace Error

/-- The message of an error is a text, and in every state the error shows itself by it. -/
def Shown (e : Error) : Prop :=
  ∃ s, e.message = .text s ∧ ∀ st, (Script.textOf e).run st = (.ok s, st)

/-- It takes no more than a text to show an error. -/
theorem shown_iff {e : Error} : e.Shown ↔ e.Worded := by
  constructor
  · rintro ⟨s, is, -⟩
    exact ⟨s, is⟩
  · rintro ⟨s, is⟩
    refine ⟨s, is, fun st => ?_⟩
    rw [Script.textOf, is]
    rfl

/-- Showing an error without a text fails itself. -/
theorem run_textOf_of_not_worded {e : Error} (without : ¬e.Worded) (st : State) :
    (Script.textOf e).run st =
      (.error (.typing (.messageNotText (st.heap.typeName e.message))), st) := by
  rw [Script.textOf]
  split
  · next s is => exact absurd ⟨s, is⟩ without
  · rfl

end Error

/-! ## Actions that word their errors -/

/-- Powers to do anything but fail with an error that has no text for a message. -/
def Powers.wording : Powers := { all with fails := Error.Worded }

instance : Powers.wording.Failing := ⟨Error.Ordinary.worded⟩

instance : Powers.wording.Faulting := ⟨id⟩

instance : Powers.wording.Refusing := ⟨fun _ => ⟨_, rfl⟩, trivial⟩

instance : Powers.wording.Making := ⟨fun _ => trivial⟩

/-- What is left over is reported in words too. -/
theorem Program.fails_judged {a : ArgumentsId} {ended : Except Error Value × State}
    (fails : FailsAs Error.Worded ended.1) : FailsAs Error.Worded (judged a ended).1 := by
  obtain ⟨e | v, st⟩ := ended
  · exact fails
  · rw [judged]
    split
    · next left => exact .error (Arguments.worded_leftover left)
    · exact .ok v

/-! ## Assertions -/

/-- Taking positional arguments leaves the named ones. -/
theorem ArgumentsId.named_setArguments_positional (h : Heap) (a : ArgumentsId) (vs : List Value) :
    ((h.setArguments a { h.args a with positional := vs }).args a).named = (h.args a).named := by
  by_cases there : h.Has (.arguments a)
  · rw [args_setArguments there]
  · have out : h.arguments.size ≤ a.index := Nat.not_lt.mp there
    have same : h.setArguments a { h.args a with positional := vs } = h := by
      rw [Heap.setArguments, Array.setIfInBounds_eq_of_size_le out]
    rw [same]

namespace Builtin

variable {invoke : Invocation} {a : ArgumentsId} {st : State}

/-- An assertion that was given a condition. -/
theorem run_require {condition : Value} {rest : List Value}
    (next : (st.heap.args a).positional = condition :: rest) :
    (((require a).run invoke).run st).1 =
      let message := (Entries.find? "message" (st.heap.args a).named).getD .none
      if st.heap.truth condition then .ok .none
      else if st.heap.truth message then .error (.eval (.given message))
      else .error (.eval .assertion) := by
  let expected : State := { st with
    heap := st.heap.setArguments a { st.heap.args a with positional := rest } }
  have named : (expected.heap.args a).named = (st.heap.args a).named :=
    ArgumentsId.named_setArguments_positional st.heap a rest
  -- Reading arguments changes nothing about what counts as true.
  have truth : ∀ x y v, ((st.heap.setArguments a x).setArguments a y).truth v = st.heap.truth v :=
    fun _ _ v => by cases v <;> rfl
  rw [require, run_exec_of_ok (c := .expect a "condition") (ArgumentsId.run_expect_cons next _),
    run_exec_of_ok (c := .named a "message" .none) (ArgumentsId.run_named a "message" .none expected),
    named]
  generalize (Entries.find? "message" (st.heap.args a).named).getD .none = message
  rw [run_exec_andThen, Command.run, run_read_bind, truth]
  cases st.heap.truth condition with
  | true => rfl
  | false =>
    simp only [Bool.false_eq_true, if_false]
    rw [run_exec_andThen, Command.run, run_read_bind, truth]
    cases st.heap.truth message <;> rfl

end Builtin

/-- A call of `assert` whose condition does not hold, with a message that counts as true and is no
text. -/
structure Misworded (use : Use) (target : Value) (a : ArgumentsId) (h : Heap) (message : Value) :
    Prop where
  asserting : use = .call ∧ ∃ name serial, target = .func ⟨name, .builtin .assert, serial⟩
  fails : ∃ condition rest, (h.args a).positional = condition :: rest ∧ h.truth condition = false
  given : Entries.find? "message" (h.args a).named = some message
  counts : h.truth message = true
  noText : ∀ s, message ≠ .text s

section

variable {use : Use} {target : Value} {context : ContextId} {a : ArgumentsId} {st : State}

theorem Misworded.not_worded {message : Value} (mis : Misworded use target a st.heap message) :
    ¬(Error.eval (.given message)).Worded := fun ⟨s, is⟩ => mis.noText s is

/-- A misworded assertion passes its message on. -/
theorem run_invoke_misworded {message : Value} (mis : Misworded use target a st.heap message) :
    ((invoke use target context a).run st).1 = .error (.eval (.given message)) := by
  obtain ⟨⟨rfl, name, serial, rfl⟩, ⟨condition, rest, next, fails⟩, given, counts, -⟩ := mis
  have is : (Value.func ⟨name, .builtin .assert, serial⟩).body? .call =
      some (Builtin.program .assert) := rfl
  obtain ⟨nesting, ran⟩ := exists_run_invoke is context a st
  have body : (((Builtin.require a).run (invokeWithin nesting)).run st).1 = _ :=
    Builtin.run_require next
  simp only [given, fails, Option.getD_some, counts, if_true, Bool.false_eq_true, if_false] at body
  rw [ran]
  rcases required : ((Builtin.require a).run (invokeWithin nesting)).run st with ⟨r, st'⟩
  rw [required] at body
  cases body
  show (judged a (((Builtin.require a).run (invokeWithin nesting)).run st)).1 = _
  rw [required]
  rfl

/-- All other assertions word their faults. -/
theorem Builtin.fails_require {invoke : Invocation} {name : String} {serial : Nat}
    (fits : ∀ message,
      ¬Misworded .call (.func ⟨name, .builtin .assert, serial⟩) a st.heap message) :
    FailsAs Error.Worded (((require a).run invoke).run st).1 := by
  cases next : (st.heap.args a).positional with
  -- An assertion without a condition says that this is missing.
  | nil =>
    rw [require, run_exec_andThen, Command.run, run_bind, ArgumentsId.run_expect_nil next]
    exact .error ⟨_, rfl⟩
  | cons condition rest =>
    rw [run_require next]
    cases fails : st.heap.truth condition with
    | true => exact .ok _
    | false =>
      cases given : Entries.find? "message" (st.heap.args a).named with
      | none => exact .error ⟨_, rfl⟩
      | some message =>
        cases counts : st.heap.truth message with
        | false =>
          simp only [Option.getD_some, counts, Bool.false_eq_true, if_false]
          exact .error ⟨_, rfl⟩
        -- Here the message is passed on, and it is a text: it would be misworded otherwise.
        | true =>
          simp only [Option.getD_some, counts, Bool.false_eq_true, if_false, if_true]
          refine .error (Classical.not_not.mp fun unworded => fits message ?_)
          exact ⟨⟨rfl, name, serial, rfl⟩, ⟨condition, rest, next, fails⟩, given, counts,
            fun s is => unworded ⟨s, is⟩⟩

/-- What runs a body that words its errors does so too. -/
theorem fails_invoke_of_body {body : ContextId → ArgumentsId → Program Value}
    (is : target.body? use = some body)
    (worded : ∀ invoke, ((body context a).run invoke).Built .wording) :
    FailsAs Error.Worded ((invoke use target context a).run st).1 := by
  obtain ⟨nesting, ran⟩ := exists_run_invoke is context a st
  rw [ran]
  exact fails_judged ((worded _).failsAs st)

/-- What a library defines words its faults, whatever it is used for, unless it is an assertion with
a message that is no text. -/
theorem fails_invoke (standard : target.isStandard = true)
    (fits : ∀ message, ¬Misworded use target a st.heap message) :
    FailsAs Error.Worded ((invoke use target context a).run st).1 := by
  cases target.libraryUse standard use with
  | refused without =>
    rw [run_invoke_of_none without]
    exact (Value.built_refuse (P := .wording) use target).failsAs st
  | call name f serial =>
    by_cases asserting : f = .assert
    · subst asserting
      -- The body itself need not be worded: whether it is depends on the arguments it reads.
      have is : (Value.func ⟨name, .builtin .assert, serial⟩).body? .call =
          some (Builtin.program .assert) := rfl
      obtain ⟨nesting, ran⟩ := exists_run_invoke is context a st
      rw [ran]
      exact fails_judged (Builtin.fails_require fits)
    · exact fails_invoke_of_body rfl fun _ =>
        Builtin.built_program trivial f (fun _ _ => trivial) (absurd · asserting) context
  | construct name serial =>
    exact fails_invoke_of_body rfl fun _ => Template.built_constructRecord trivial context
  | set name serial =>
    exact fails_invoke_of_body rfl fun _ =>
      Template.built_setRecord trivial (fun _ _ => trivial) context

end

/-! ## Everything that may fail -/

/-- Whatever functions and classes a new library binds are those of the library. An argument that is
missing and arguments that are left over are reported by errors that can be shown, and whatever a
function or class of the library is used for, in whatever context and on whatever arguments, it fails
by errors that can be shown. There is one exception: a misworded assertion passes its message on, and
the error cannot be shown in any state. -/
theorem library_faults_shown (use : Use) {target : Value} (standard : target.isStandard = true)
    (context : ContextId) (a : ArgumentsId) (st : State) :
    (∃ library st', ScopeId.newLibrary.run st = (.ok library, st') ∧
      st'.heap.BindsStandard library) ∧
    (∀ what, FailsAs Error.Shown ((a.expect what).run st).1) ∧
    FailsAs Error.Shown (a.finish.run st).1 ∧
    ((∀ message, ¬Misworded use target a st.heap message) →
      FailsAs Error.Shown ((invoke use target context a).run st).1) ∧
    ∀ message, Misworded use target a st.heap message →
      ((invoke use target context a).run st).1 = .error (.eval (.given message)) ∧
      ∀ st', (Script.textOf (.eval (.given message))).run st' =
        (.error (.typing (.messageNotText (st'.heap.typeName message))), st') := by
  have shown : ∀ {α : Type} {r : Except Error α}, FailsAs Error.Worded r → FailsAs Error.Shown r :=
    fun fails => fails.mono fun _ => Error.shown_iff.mpr
  have expected : ∀ what, (a.expect what).Built .wording := a.built_expect trivial
  have finished : a.finish.Built .wording := a.built_finish
  refine ⟨ScopeId.newLibrary_standard st, fun what => shown ((expected what).failsAs st),
    shown (finished.failsAs st), fun fits => shown (fails_invoke standard fits),
    fun message mis => ?_⟩
  exact ⟨run_invoke_misworded mis, Error.run_textOf_of_not_worded mis.not_worded⟩

/-- The length of a number is asked for, which fails in words, and an assertion that does not hold is
given a truth value as its message. -/
theorem library_faults_shown_len_assert :
    (let st := ((ArgumentsId.create [.int 5] []).run .initial).2
      let len := Value.func ⟨"len", .builtin .len, 0⟩
      len.isStandard = true ∧ (∀ message, ¬Misworded .call len ⟨0⟩ st.heap message) ∧
        ((invoke .call len ⟨0⟩ ⟨0⟩).run st).1 = .error (.eval (.notCountable "integer")) ∧
        (Error.eval (.notCountable "integer")).Shown) ∧
    (let st := ((ArgumentsId.create [.none] [("message", .bool true)]).run .initial).2
      let assertion := Value.func ⟨"assert", .builtin .assert, 0⟩
      assertion.isStandard = true ∧ Misworded .call assertion ⟨0⟩ st.heap (.bool true) ∧
        ((invoke .call assertion ⟨0⟩ ⟨0⟩).run st).1 = .error (.eval (.given (.bool true)))) := by
  constructor
  · intro st len
    have fits : ∀ message, ¬Misworded .call len ⟨0⟩ st.heap message := by
      rintro message ⟨⟨-, name, serial, is⟩, -, -, -, -⟩
      exact absurd is (by simp [len])
    have fails : ((invoke .call len ⟨0⟩ ⟨0⟩).run st).1 =
        .error (.eval (.notCountable "integer")) := by
      decide +kernel
    have law := library_faults_shown .call (rfl : len.isStandard = true) ⟨0⟩ ⟨0⟩ st
    exact ⟨rfl, fits, fails, law.2.2.2.1 fits _ fails⟩
  · intro st assertion
    have mis : Misworded .call assertion ⟨0⟩ st.heap (.bool true) :=
      ⟨⟨rfl, "assert", 0, rfl⟩, ⟨.none, [], by decide +kernel, rfl⟩, by decide +kernel, rfl, nofun⟩
    have law := library_faults_shown .call (rfl : assertion.isStandard = true) ⟨0⟩ ⟨0⟩ st
    exact ⟨rfl, mis, (law.2.2.2.2 _ mis).1⟩

/-- An assertion that was given a number as its message fails by an error that cannot be shown. -/
theorem assertion_with_number :
    let st := ((ArgumentsId.create [.bool false] [("message", .int 42)]).run .initial).2
    let assertion := Value.func ⟨"assert", .builtin .assert, 0⟩
    assertion.isStandard = true ∧
      ((invoke .call assertion ⟨0⟩ ⟨0⟩).run st).1 = .error (.eval (.given (.int 42))) ∧
      ¬(Error.eval (.given (.int 42))).Shown ∧
      ((Script.textOf (.eval (.given (.int 42)))).run st).1 =
        .error (.typing (.messageNotText "int")) := by
  intro st assertion
  refine ⟨rfl, by decide +kernel, ?_, rfl⟩
  rintro ⟨s, is, -⟩
  cases is

end LexEnv
