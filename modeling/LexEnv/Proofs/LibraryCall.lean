import LexEnv.Proofs.Defaults

/-!
# Footprints of library calls

What a call of a standard function or class may change, whether it returns or raises. Each call takes
one of three courses (`LibraryCall.Course`): it reads its arguments and does no more, it prints a
line, or it sets defaults for records. Printing is followed argument by argument, since each one is
shown in the heap in which it has been read (`Builtin.run_displayed`).

Main statement: `library_calls_footprint`. No slot, scope or stack changes, the output has the printed
line added at most, and the style map keeps all entries but that of the defaults for records. Over a
run, the output grows by one line for each printing that returns.

The style map must not hold itself as these defaults. If it does, setting them adds to the style map
(`defaults_become_styles`).
-/

namespace LexEnv

open LexEnv.Action LexEnv.Program

/-! ## What printing shows -/

namespace Heap

/-- The text of a value in printing: text as it is, everything else as it is written. -/
inductive Shows (h : Heap) : Value → String → Prop where
  | text (s : String) : Shows h (.text s) s
  | written {v : Value} {s : String} (other : ∀ t, v ≠ .text t) (is : h.written v = .ok s) :
      Shows h v s

/-- The heap when a printing has read its separator and so many positional arguments. -/
def reading (h : Heap) (a : ArgumentsId) (n : Nat) : Heap :=
  h.setArguments a ⟨(h.args a).positional.drop n, Entries.erase "sep" (h.args a).named⟩

variable {h : Heap} {a : ArgumentsId} {n : Nat}

theorem shows_of_display {v : Value} {s : String} (shown : h.display v = .ok s) : h.Shows v s := by
  cases v with
  | text =>
    cases shown
    exact .text _
  | _ => exact .written nofun shown

theorem args_reading (there : h.Has (.arguments a)) :
    (h.reading a n).args a =
      ⟨(h.args a).positional.drop n, Entries.erase "sep" (h.args a).named⟩ :=
  ArgumentsId.args_setArguments there _

/-- Reading one more argument. -/
theorem reading_succ (there : h.Has (.arguments a)) {v : Value} {vs : List Value}
    (next : (h.args a).positional.drop n = v :: vs) :
    (h.reading a n).setArguments a { (h.reading a n).args a with positional := vs } =
      h.reading a (n + 1) := by
  have rest : (h.args a).positional.drop (n + 1) = vs := by
    rw [← List.tail_drop, next, List.tail_cons]
  rw [args_reading there, reading, reading, rest]
  simp [setArguments]

end Heap

/-- Texts joined by a separator; bytes join no texts. -/
inductive Joins : Value → List String → Value → Prop where
  | text (s : String) (parts : List String) : Joins (.text s) parts (.text (Text.joinWith s parts))
  | bytes (b : List UInt8) : Joins (.bytes b) [] (.bytes [])

/-- The line that arguments print: each positional one is shown when it and those before it have been
read, and the texts are joined by the argument `sep`, or by a space. -/
def Heap.Prints (h : Heap) (a : ArgumentsId) (line : Value) : Prop :=
  ∃ parts,
    List.Forall₂ (fun e part => (h.reading a (e.2 + 1)).Shows e.1 part)
      (h.args a).positional.zipIdx parts ∧
    Joins ((Entries.find? "sep" (h.args a).named).getD (.text " ")) parts line

namespace Builtin

variable {invoke : Invocation} {a : ArgumentsId} {h : Heap}

theorem joins_of_run {sep line : Value} {parts : List String} {st st' : State}
    (ran : ((join sep parts).run invoke).run st = (.ok line, st')) :
    Joins sep parts line ∧ st' = st := by
  unfold join at ran
  split at ran
  · cases ran
    exact ⟨.text _ _, rfl⟩
  · split at ran
    · next empty =>
      rw [List.isEmpty_iff] at empty
      subst empty
      cases ran
      exact ⟨.bytes _, rfl⟩
    · cases ran
  · obtain ⟨_, _, -, failed⟩ := exists_run_exec ran
    cases failed

/-- Showing what is left of the positional arguments, where so many have been read. -/
theorem run_displayed (there : h.Has (.arguments a)) {n k : Nat}
    (left : ((h.args a).positional.drop k).length = n) {st st' : State} {parts : List String}
    (is : st.heap = h.reading a k)
    (ran : ((displayed a n).run invoke).run st = (.ok parts, st')) :
    List.Forall₂ (fun e part => (h.reading a (e.2 + 1)).Shows e.1 part)
      (((h.args a).positional.drop k).zipIdx k) parts ∧
    st' = { st with heap := h.reading a (k + n) } := by
  induction n generalizing k st parts with
  | zero =>
    rw [List.length_eq_zero_iff.mp left]
    cases ran
    exact ⟨.nil, by rw [Nat.add_zero, ← is]⟩
  | succ n ih =>
    obtain ⟨v, vs, next⟩ := List.exists_cons_of_length_eq_add_one left
    obtain ⟨w, st₁, eaten, ran⟩ := exists_run_exec ran
    obtain ⟨part, st₂, shown, ran⟩ := exists_run_exec ran
    obtain ⟨rest, st₃, later, ran⟩ := exists_run_andThen ran
    cases ran
    have first : (st.heap.args a).positional = v :: vs := by
      rw [is, Heap.args_reading there, next]
    have one : (Command.eat a).run.run st = (.ok v, { st with heap := h.reading a (k + 1) }) := by
      refine (ArgumentsId.run_eat_cons first).trans ?_
      rw [is, Heap.reading_succ there next]
    rw [one] at eaten
    cases eaten
    have more : (h.args a).positional.drop (k + 1) = vs := by
      rw [← List.tail_drop, next, List.tail_cons]
    obtain ⟨showing, rfl⟩ := Prod.mk.inj shown
    obtain ⟨others, rfl⟩ := ih (by rw [more]; simpa [next] using left) rfl later
    rw [next, List.zipIdx_cons]
    refine ⟨.cons (Heap.shows_of_display showing) (by rw [← more]; exact others), ?_⟩
    rw [Nat.add_right_comm, Nat.add_assoc]

/-- The list that an output is, which asking for it leaves as it is. -/
theorem output_of_run {context : ContextId} {st st' : State} {lines : SequenceId}
    (ran : context.output.run st = (.ok lines, st')) :
    (st.heap.context context).output = .sequence .list lines ∧ st' = st := by
  rw [ContextId.output, ContextId.view, run_read_bind] at ran
  split at ran
  · next found same =>
    cases ran
    exact ⟨same, rfl⟩
  · cases ran

/-- Printing that succeeds adds the line that its arguments print, and reads them. -/
theorem printed_of_run {context : ContextId} {st st' : State} {v : Value}
    (there : st.heap.Has (.arguments a))
    (ran : ((printAll context a).run invoke).run st = (.ok v, st')) :
    ∃ lines line, (st.heap.context context).output = .sequence .list lines ∧
      st.heap.Prints a line ∧
      st'.heap = (st.heap.reading a (st.heap.args a).positional.length).setSequence lines
        (st.heap.sequence lines ++ [line]) := by
  obtain ⟨sep, st₁, named, ran⟩ := exists_run_exec ran
  obtain ⟨sep', start⟩ := Prod.mk.inj ((a.run_named "sep" (.text " ") st).symm.trans named)
  cases sep'
  obtain ⟨unread, st₂, looked, ran⟩ := exists_run_exec ran
  cases looked
  obtain ⟨parts, st₃, shown, ran⟩ := exists_run_andThen ran
  obtain ⟨lines, st₄, found, ran⟩ := exists_run_exec ran
  obtain ⟨line, st₅, joined, ran⟩ := exists_run_andThen ran
  cases ran
  have read : st₁.heap = st.heap.reading a 0 := by
    rw [← start]
    rfl
  have count : (st₁.heap.args a).positional.length = (st.heap.args a).positional.length := by
    rw [read, Heap.args_reading there]
    rfl
  rw [count] at shown
  obtain ⟨showing, rfl⟩ := run_displayed there rfl read shown
  obtain ⟨output, rfl⟩ := output_of_run found
  obtain ⟨is, rfl⟩ := joins_of_run joined
  rw [Nat.zero_add] at output ⊢
  exact ⟨lines, line, output, ⟨parts, showing, is⟩, rfl⟩

end Builtin

/-! ## How a call can go -/

namespace Program

variable {a : ArgumentsId} {v : Value}

/-- The verdict of a call changes nothing. -/
theorem judged_snd (a : ArgumentsId) (r : Except Error Value × State) : (judged a r).2 = r.2 := by
  obtain ⟨e | v, st⟩ := r
  · rfl
  · rw [judged]
    split <;> rfl

/-- If the body of a call returned, the call fails for arguments that are left over only. -/
theorem leftover_of_judged {r : Except Error Value × State} {e : Error} (returned : r.1 = .ok v)
    (failed : (judged a r).1 = .error e) :
    ∃ fault, (r.2.heap.args a).leftover? = some fault ∧ e = .eval fault := by
  obtain ⟨_ | w, st⟩ := r
  · cases returned
  · rw [judged] at failed
    split at failed
    · next fault left =>
      cases failed
      exact ⟨fault, left, rfl⟩
    · cases failed

end Program

/-- Powers to do anything but fail as a script. -/
def Powers.unscripted : Powers := { all with fails := Error.Unscripted }

instance : Powers.unscripted.Failing := ⟨Error.Ordinary.unscripted⟩

instance : Powers.unscripted.Refusing := ⟨fun _ => nofun, trivial⟩

instance : Powers.unscripted.Making := ⟨fun _ => trivial⟩

/-- A value put to a use with some arguments. -/
structure LibraryCall where
  use : Use
  target : Value
  context : ContextId
  args : ArgumentsId
  before : State

namespace LibraryCall

variable (x : LibraryCall)

/-- What a call returns or raises. -/
def outcome : Except Error Value := ((invoke x.use x.target x.context x.args).run x.before).1

/-- The state after a call. -/
def after : State := ((invoke x.use x.target x.context x.args).run x.before).2

/-- Whether `print` is called. -/
def Printing : Prop :=
  x.use = .call ∧ ∃ name serial, x.target = .func ⟨name, .builtin .print, serial⟩

/-- Whether defaults for records are set. -/
def Setting : Prop := x.use = .set ∧ ∃ name serial, x.target = .cls ⟨name, .record, serial⟩

/-- Whether `print` is called on a context whose output is a list. -/
def PrintingTo (lines : SequenceId) : Prop :=
  x.Printing ∧ (x.before.heap.context x.context).output = .sequence .list lines

/-- Whether an error of a call is that of arguments that it left over. -/
def LeftOver (e : Error) : Prop :=
  ∃ fault, (x.after.heap.args x.args).leftover? = some fault ∧ e = .eval fault

/-- How a call of a standard function or class can go. After printing or setting, it fails for
arguments that are left over only. -/
inductive Course : Prop where
  /-- It reads arguments. A printing or a setting that does no more fails, and not as a script. -/
  | reads (confined : x.before.heap.Confined (· = .arguments x.args) x.after.heap)
      (fails : x.Printing ∨ x.Setting → ∃ e, x.outcome = .error e ∧ e.Unscripted)
  | prints {lines : SequenceId} {line : Value} (printing : x.PrintingTo lines)
      (prints : x.before.heap.Prints x.args line)
      (confined : x.before.heap.Confined (fun o => o = .arguments x.args ∨ o = .sequence lines)
        x.after.heap)
      (added : x.before.heap.Has (.sequence lines) →
        x.after.heap.sequence lines = x.before.heap.sequence lines ++ [line])
      (left : ∀ e, x.outcome = .error e → x.LeftOver e)
  | sets {middle : State} (setting : x.Setting)
      (added : (x.context.addDefaults "record" (x.before.heap.args x.args).named).run x.before =
        (.ok (), middle))
      (confined : middle.heap.Confined (· = .arguments x.args) x.after.heap)
      (left : ∀ e, x.outcome = .error e → x.LeftOver e)

variable {x : LibraryCall}

/-- A call that only reads arguments, and is neither a printing nor a setting. -/
theorem Course.of_body {body : ContextId → ArgumentsId → Program Value}
    (is : x.target.body? x.use = some body) (other : ¬x.Printing ∧ ¬x.Setting)
    (reads : ∀ invoke, ((body x.context x.args).run invoke).Built (.inside (· = .arguments x.args))) :
    x.Course := by
  obtain ⟨nesting, ran⟩ := exists_run_invoke is x.context x.args x.before
  refine .reads ?_ fun either => (either.elim other.1 other.2).elim
  rw [after, ran, judged_snd]
  exact (reads _).confined x.before

/-- A call whose body fails, and not as a script, before it has changed anything else than
arguments. -/
theorem Course.of_failure {body : Program Value} {invoke : Invocation} {e : Error}
    (ran : (LexEnv.invoke x.use x.target x.context x.args).run x.before =
      judged x.args ((body.run invoke).run x.before))
    (failed : ((body.run invoke).run x.before).1 = .error e)
    (within : (body.run invoke).FailsWithin (· = .arguments x.args)) (unscripted : e.Unscripted) :
    x.Course := by
  have error : x.outcome = .error e := by
    rw [outcome, ran]
    rcases ended : (body.run invoke).run x.before with ⟨_ | v, st⟩
    · rw [ended] at failed
      exact failed
    · rw [ended] at failed
      cases failed
  refine .reads ?_ fun _ => ⟨e, error, unscripted⟩
  rw [after, ran, judged_snd]
  exact within x.before e failed

theorem course_print (printing : x.Printing) (there : x.before.heap.Has (.arguments x.args)) :
    x.Course := by
  have is : x.target.body? x.use = some Builtin.printAll := by
    obtain ⟨use, name, serial, target⟩ := printing
    rw [use, target]
    rfl
  obtain ⟨nesting, ran⟩ := exists_run_invoke is x.context x.args x.before
  have built : ((Builtin.printAll x.context x.args).run (invokeWithin nesting)).Built .unscripted :=
    Builtin.built_printAll trivial (fun _ => trivial) x.context
  have fails := built.failsAs x.before
  rcases body : ((Builtin.printAll x.context x.args).run (invokeWithin nesting)).run x.before with
    ⟨e | v, st⟩
  · rw [body] at fails
    exact .of_failure ran (congrArg Prod.fst body) (Builtin.failsWithin_printAll x.context)
      (fails e rfl)
  · obtain ⟨lines, line, output, prints, heap⟩ := Builtin.printed_of_run there body
    have read := x.before.heap.changes_setArguments x.args
      ⟨(x.before.heap.args x.args).positional.drop (x.before.heap.args x.args).positional.length,
        Entries.erase "sep" (x.before.heap.args x.args).named⟩
    have ended : x.after = st := by rw [after, ran, judged_snd, body]
    refine .prints ⟨printing, output⟩ prints ?_ (fun exist => ?_) fun e failed => ?_
    · rw [ended, heap]
      exact .trans (.of_changes read (.inl rfl))
        (.of_changes (Heap.changes_setSequence _ lines _) (.inr rfl))
    · rw [ended, heap]
      exact Cell.sequence.inj (Heap.cell_setSequence ((read.has _).mpr exist) _)
    · rw [LeftOver, ended]
      rw [outcome, ran, body] at failed
      exact leftover_of_judged rfl failed

theorem course_set (setting : x.Setting) : x.Course := by
  have is : x.target.body? x.use = some Template.setRecord := by
    obtain ⟨use, name, serial, target⟩ := setting
    rw [use, target]
    rfl
  obtain ⟨nesting, ran⟩ := exists_run_invoke is x.context x.args x.before
  have built :
      ((Template.setRecord x.context x.args).run (invokeWithin nesting)).Built .unscripted :=
    Template.built_setRecord trivial (fun _ _ => trivial) x.context
  have fails := built.failsAs x.before
  rcases body : ((Template.setRecord x.context x.args).run (invokeWithin nesting)).run x.before with
    ⟨e | v, st⟩
  · rw [body] at fails
    exact .of_failure ran (congrArg Prod.fst body) (Template.failsWithin_setRecord x.context)
      (fails e rfl)
  · obtain ⟨middle, added, confined⟩ := Template.run_setRecord body
    have ended : x.after = st := by rw [after, ran, judged_snd, body]
    refine .sets setting added ?_ fun e failed => ?_
    · rw [ended]
      exact confined
    · rw [LeftOver, ended]
      rw [outcome, ran, body] at failed
      exact leftover_of_judged rfl failed

theorem course_refuse (without : x.target.body? x.use = none) : x.Course := by
  refine .reads ?_ fun either => ?_
  · rw [after, run_invoke_of_none without]
    exact (Value.built_refuse x.use x.target).confined x.before
  · rcases either with ⟨use, name, serial, target⟩ | ⟨use, name, serial, target⟩ <;>
      rw [use, target] at without <;> cases without

theorem course (x : LibraryCall) (standard : x.target.isStandard = true)
    (there : x.before.heap.Has (.arguments x.args)) : x.Course := by
  obtain ⟨use, target, context, a, st⟩ := x
  cases target.libraryUse standard use with
  | refused without => exact course_refuse without
  | call name f serial =>
    by_cases print : f = .print
    · subst print
      exact course_print ⟨rfl, name, serial, rfl⟩ there
    · refine .of_body rfl ⟨fun printing => ?_, nofun⟩ fun _ =>
        Builtin.built_program rfl f (absurd · print) (fun _ _ => trivial) context
      obtain ⟨-, _, _, is⟩ := printing
      cases is
      exact print rfl
  | construct name serial =>
    exact .of_body rfl ⟨nofun, nofun⟩ fun _ => Template.built_constructRecord rfl context
  | set name serial => exact course_set ⟨rfl, name, serial, rfl⟩

/-! ## Lines that a call adds -/

/-- Entries that a call adds to a list: at most one, the line that its arguments print, if it prints
to this list; exactly one if such a call returns; otherwise none. -/
structure Adds (x : LibraryCall) (lines : SequenceId) (added : List Value) : Prop where
  atMostOne : added.length ≤ 1
  shown : ∀ line ∈ added, x.PrintingTo lines ∧ x.before.heap.Prints x.args line
  returned : x.PrintingTo lines → ∀ v, x.outcome = .ok v → added.length = 1

/-- What a call adds to a list stands behind what was there. -/
theorem Course.adds (course : x.Course) {lines : SequenceId}
    (there : x.before.heap.Has (.sequence lines)) :
    ∃ added, x.Adds lines added ∧
      x.after.heap.sequence lines = x.before.heap.sequence lines ++ added := by
  cases course with
  | reads confined fails =>
    refine ⟨[], ⟨Nat.zero_le 1, nofun, fun printing v returned => ?_⟩, ?_⟩
    · obtain ⟨e, failed, -⟩ := fails (.inl printing.1)
      rw [failed] at returned
      cases returned
    · rw [List.append_nil]
      exact Cell.sequence.inj (confined.cell (.sequence lines) there nofun)
  | @prints list line printing prints confined added left =>
    by_cases same : lines = list
    · subst same
      refine ⟨[line], ⟨Nat.le_refl 1, fun l mem => ?_, fun _ _ _ => rfl⟩, ?_⟩
      · rw [List.mem_singleton.mp mem]
        exact ⟨printing, prints⟩
      · exact added there
    · refine ⟨[], ⟨Nat.zero_le 1, nofun, fun other v _ => ?_⟩, ?_⟩
      · have is := printing.2.symm.trans other.2
        cases is
        exact absurd rfl same
      · rw [List.append_nil]
        exact Cell.sequence.inj (confined.cell (.sequence lines) there (by simp [same]))
  | sets setting added confined left =>
    refine ⟨[], ⟨Nat.zero_le 1, nofun, fun printing => ?_⟩, ?_⟩
    · have is := setting.1.symm.trans printing.1.1
      cases is
    · have first := ContextId.confined_of_added added
      rw [List.append_nil]
      exact (Cell.sequence.inj (confined.cell (.sequence lines) (first.has _ there) nofun)).trans
        (Cell.sequence.inj (first.cell (.sequence lines) there (by simp [Value.Absorbing])))

/-! ## The footprint of a call -/

/-- The objects that a call may change, where a style map stands in the context: the arguments, the
list that it prints to, and in a setting the defaults for records or, where there are none, the style
map. -/
inductive MayChange (x : LibraryCall) (d : DictId) : Object → Prop where
  | arguments : MayChange x d (.arguments x.args)
  | lines {lines : SequenceId} (printing : x.PrintingTo lines) : MayChange x d (.sequence lines)
  | defaults {r : DictId} (setting : x.Setting) (there : x.before.heap.recordDict? d = some r) :
      MayChange x d (.dict r)
  | styles (setting : x.Setting) (absent : (x.before.heap.dict d).get? "record" = none) :
      MayChange x d (.dict d)

/-- What a call leaves behind. -/
structure Footprint (x : LibraryCall) (d : DictId) : Prop where
  confined : x.before.heap.Confined (x.MayChange d) x.after.heap
  /-- No slot, scope or stack changes, and the context keeps its style map and its output. -/
  slot : ∀ t, x.before.heap.Has (.slot t) → x.after.heap.slot t = x.before.heap.slot t
  scope : ∀ c, x.before.heap.Has (.scope c) → x.after.heap.scope c = x.before.heap.scope c
  stack : ∀ s, x.before.heap.Has (.stack s) → x.after.heap.stack s = x.before.heap.stack s
  context : x.after.heap.context x.context = x.before.heap.context x.context
  /-- Lists have lines added at most. -/
  output : ∀ lines, x.before.heap.Has (.sequence lines) → ∃ added, x.Adds lines added ∧
    x.after.heap.sequence lines = x.before.heap.sequence lines ++ added
  /-- The style map keeps its entries, unless it holds itself as the defaults for records. It gets a
  new dictionary as these defaults when they are set for the first time. -/
  styles : x.before.heap.recordDict? d ≠ some d → x.after.heap.dict d = x.before.heap.dict d ∨
    x.Setting ∧ (x.before.heap.dict d).get? "record" = none ∧ ∃ r, ¬x.before.heap.Has (.dict r) ∧
      x.after.heap.dict d = (x.before.heap.dict d).insert "record" (.dict r)

theorem Course.confined (course : x.Course) {d : DictId}
    (styles : x.before.heap.styleMap? x.context = some d) (there : x.before.heap.Has (.dict d))
    (entry : ∀ v, (x.before.heap.dict d).get? "record" = some v → ∃ r, v = .dict r) :
    x.before.heap.Confined (x.MayChange d) x.after.heap := by
  cases course with
  | reads confined fails => exact confined.mono fun o is => is ▸ .arguments
  | @prints list line printing prints confined added left =>
    refine confined.mono fun o is => ?_
    rcases is with rfl | rfl
    · exact .arguments
    · exact .lines printing
  | sets setting added confined left =>
    obtain ⟨h, ran, adds⟩ := ContextId.addDefaults_adds styles there entry
      (x.before.heap.args x.args).named
    obtain ⟨-, rfl⟩ := Prod.mk.inj (ran.symm.trans added)
    refine Heap.Confined.trans ?_ (confined.mono fun o is => is ▸ .arguments)
    cases adds with
    | present r found confined content =>
      exact confined.mono fun o is => is ▸ .defaults setting (Heap.recordDict?_eq_some_iff.mpr found)
    | anew r absent fresh made confined entry content =>
      exact confined.mono fun o is => is ▸ .styles setting absent

/-- What a setting makes of the style map. -/
theorem Course.styles (course : x.Course) {d : DictId}
    (styles : x.before.heap.styleMap? x.context = some d) (there : x.before.heap.Has (.dict d))
    (entry : ∀ v, (x.before.heap.dict d).get? "record" = some v → ∃ r, v = .dict r)
    (other : x.before.heap.recordDict? d ≠ some d) :
    x.after.heap.dict d = x.before.heap.dict d ∨
      x.Setting ∧ (x.before.heap.dict d).get? "record" = none ∧ ∃ r, ¬x.before.heap.Has (.dict r) ∧
        x.after.heap.dict d = (x.before.heap.dict d).insert "record" (.dict r) := by
  cases course with
  | reads confined fails => exact .inl (Cell.dict.inj (confined.cell (.dict d) there nofun))
  | prints printing prints confined added left =>
    exact .inl (Cell.dict.inj (confined.cell (.dict d) there (by simp)))
  | sets setting added confined left =>
    obtain ⟨h, ran, adds⟩ := ContextId.addDefaults_adds styles there entry
      (x.before.heap.args x.args).named
    obtain ⟨-, rfl⟩ := Prod.mk.inj (ran.symm.trans added)
    cases adds with
    | present r found first content =>
      have apart : d ≠ r := fun same =>
        other (same ▸ Heap.recordDict?_eq_some_iff.mpr (same ▸ found))
      have kept := Cell.dict.inj (first.cell (.dict d) there (by simpa using apart))
      exact .inl ((Cell.dict.inj (confined.cell (.dict d) (first.has _ there) nofun)).trans kept)
    | anew r absent fresh made first entry content =>
      exact .inr ⟨setting, absent, r, fresh,
        (Cell.dict.inj (confined.cell (.dict d) (first.has _ there) nofun)).trans entry⟩

/-- A call of a standard function or class with a dictionary as style map, in which a dictionary, if
anything, stands as the defaults for records. -/
structure Fit (x : LibraryCall) (d : DictId) : Prop where
  standard : x.target.isStandard = true
  args : x.before.heap.Has (.arguments x.args)
  styles : x.before.heap.styleMap? x.context = some d
  exist : x.before.heap.Has (.dict d)
  entry : ∀ v, (x.before.heap.dict d).get? "record" = some v → ∃ r, v = .dict r

theorem Fit.footprint {d : DictId} (fit : x.Fit d) : x.Footprint d := by
  have course := x.course fit.standard fit.args
  have confined := course.confined fit.styles fit.exist fit.entry
  exact
    { confined
      slot := fun t there => Cell.slot.inj (confined.cell (.slot t) there nofun)
      scope := fun c there => Cell.scope.inj (confined.cell (.scope c) there nofun)
      stack := fun s there => Cell.stack.inj (confined.cell (.stack s) there nofun)
      context := Cell.context.inj
        (confined.cell (.context x.context) (Heap.has_of_styleMap? fit.styles) nofun)
      output := fun lines there => course.adds there
      styles := course.styles fit.styles fit.exist fit.entry }

theorem Course.has (course : x.Course) {o : Object} (there : x.before.heap.Has o) :
    x.after.heap.Has o := by
  cases course with
  | reads confined fails => exact confined.has o there
  | prints printing prints confined added left => exact confined.has o there
  | sets setting added confined left =>
    have first := ContextId.confined_of_added added
    exact confined.has o (first.has o there)

end LibraryCall

/-! ## Runs of library calls -/

/-- Runs of calls of standard functions and classes. Between two calls anything may be made or looked
at. -/
inductive LibraryRun : State → List LibraryCall → State → Prop where
  | none (st : State) : LibraryRun st [] st
  | look {α : Type} {st st' : State} {calls : List LibraryCall} (c : Command α)
      (looks : ∀ o, ¬c.footprint o) (rest : LibraryRun (c.run.run st).2 calls st') :
      LibraryRun st calls st'
  | call {st' : State} {calls : List LibraryCall} (x : LibraryCall)
      (standard : x.target.isStandard = true) (args : x.before.heap.Has (.arguments x.args))
      (rest : LibraryRun x.after calls st') : LibraryRun x.before (x :: calls) st'

/-- What the calls of a run add to a list stands behind what was there, in the order of the calls. -/
theorem LibraryRun.adds {st st' : State} {calls : List LibraryCall} (run : LibraryRun st calls st')
    {lines : SequenceId} (there : st.heap.Has (.sequence lines)) :
    ∃ added, List.Forall₂ (fun x entries => x.Adds lines entries) calls added ∧
      st'.heap.sequence lines = st.heap.sequence lines ++ added.flatten := by
  induction run with
  | none st => exact ⟨[], .nil, (List.append_nil _).symm⟩
  | @look _ st st' calls c looks rest ih =>
    have confined := c.confined st
    obtain ⟨added, adds, is⟩ := ih (confined.has _ there)
    refine ⟨added, adds, ?_⟩
    rw [is, Cell.sequence.inj (confined.cell (.sequence lines) there (looks _))]
  | @call st' calls x standard args rest ih =>
    have course := x.course standard args
    obtain ⟨entries, first, is⟩ := course.adds there
    obtain ⟨added, adds, is'⟩ := ih (course.has there)
    refine ⟨entries :: added, .cons first adds, ?_⟩
    rw [is', is, List.append_assoc, List.flatten_cons]

/-- Everything that a new library binds is standard. A call of a standard function or class leaves the
environment as it is, whether it returns or raises: it reads its arguments, `print` adds at most one
line to the output, and one if it returns, and only a setting of defaults for records comes into the
style map, under their name. Over a run of such calls, lists have these lines added in order. -/
theorem library_calls_footprint :
    (∀ st : State, ∃ c st', ScopeId.newLibrary.run st = (.ok c, st') ∧ st'.heap.BindsStandard c) ∧
    (∀ {x : LibraryCall} {d : DictId}, x.Fit d → x.Footprint d) ∧
    ∀ {st st' : State} {calls : List LibraryCall}, LibraryRun st calls st' →
      ∀ {lines : SequenceId}, st.heap.Has (.sequence lines) →
        ∃ added, List.Forall₂ (fun x entries => x.Adds lines entries) calls added ∧
          st'.heap.sequence lines = st.heap.sequence lines ++ added.flatten :=
  ⟨ScopeId.newLibrary_standard, LibraryCall.Fit.footprint, LibraryRun.adds⟩

theorem library_calls_footprint_printing :
    ∃ (st : State) (print record : Value) (x y : LibraryCall), st = overNewLibrary ∧
      print = libraryValue "print" ∧ record = libraryValue "record" ∧
      x = ⟨.call, print, ⟨0⟩, ⟨0⟩, st⟩ ∧ y = ⟨.set, record, ⟨0⟩, ⟨0⟩, x.after⟩ ∧
      x.Footprint ⟨0⟩ ∧ y.Footprint ⟨0⟩ ∧ LibraryRun st [x, y] y.after ∧
      ∃ added, List.Forall₂ (fun x entries => x.Adds ⟨0⟩ entries) [x, y] added ∧
        y.after.heap.sequence ⟨0⟩ = st.heap.sequence ⟨0⟩ ++ added.flatten := by
  obtain ⟨-, footprint, adds⟩ := library_calls_footprint
  obtain ⟨st, hst⟩ : ∃ st, st = overNewLibrary := ⟨_, rfl⟩
  obtain ⟨print, hprint⟩ : ∃ v, v = libraryValue "print" := ⟨_, rfl⟩
  obtain ⟨record, hrecord⟩ : ∃ v, v = libraryValue "record" := ⟨_, rfl⟩
  let x : LibraryCall := ⟨.call, print, ⟨0⟩, ⟨0⟩, st⟩
  obtain ⟨st₁, hst₁⟩ : ∃ st₁, st₁ = LibraryCall.after ⟨.call, print, ⟨0⟩, ⟨0⟩, st⟩ := ⟨_, rfl⟩
  let y : LibraryCall := ⟨.set, record, ⟨0⟩, ⟨0⟩, st₁⟩
  have standard : print.isStandard = true ∧ record.isStandard = true := by
    rw [hprint, hrecord]
    decide +kernel
  have first : st.heap.Has (.arguments ⟨0⟩) ∧ st.heap.styleMap? ⟨0⟩ = some ⟨0⟩ ∧
      st.heap.Has (.dict ⟨0⟩) ∧ (st.heap.dict ⟨0⟩).get? "record" = none ∧
      st.heap.Has (.sequence ⟨0⟩) := by
    rw [hst]
    decide +kernel
  have second : st₁.heap.Has (.arguments ⟨0⟩) ∧ st₁.heap.styleMap? ⟨0⟩ = some ⟨0⟩ ∧
      st₁.heap.Has (.dict ⟨0⟩) ∧ (st₁.heap.dict ⟨0⟩).get? "record" = none := by
    rw [hst₁, hst, hprint]
    decide +kernel
  have printing : x.Fit ⟨0⟩ :=
    ⟨standard.1, first.1, first.2.1, first.2.2.1, fun v found =>
      absurd (first.2.2.2.1.symm.trans found) nofun⟩
  have setting : y.Fit ⟨0⟩ :=
    ⟨standard.2, second.1, second.2.1, second.2.2.1, fun v found =>
      absurd (second.2.2.2.symm.trans found) nofun⟩
  have run : LibraryRun st [x, y] y.after := by
    refine .call x printing.standard printing.args ?_
    show LibraryRun (LibraryCall.after ⟨.call, print, ⟨0⟩, ⟨0⟩, st⟩) [y] y.after
    rw [← hst₁]
    exact .call y setting.standard setting.args (.none _)
  exact ⟨st, print, record, x, y, hst, hprint, hrecord, rfl,
    congrArg (LibraryCall.mk .set record ⟨0⟩ ⟨0⟩) hst₁, footprint printing, footprint setting, run,
    adds run first.2.2.2.2⟩

/-- A setting in a style map that holds itself adds the defaults to the style map. -/
theorem defaults_become_styles :
    ∃ (st : State) (x : LibraryCall),
      st = ((stylingItself >>= fun _ => exec (.createArguments [] [("a", .int 1)])).toAction.run
        .initial).2 ∧
      x = ⟨.set, .cls ⟨"record", .record, 0⟩, ⟨0⟩, ⟨0⟩, st⟩ ∧ x.Fit ⟨0⟩ ∧
      (x.before.heap.dict ⟨0⟩).entries = [(.text "record", .dict ⟨0⟩)] ∧
      (x.after.heap.dict ⟨0⟩).entries = [(.text "record", .dict ⟨0⟩), (.text "a", .int 1)] := by
  obtain ⟨st, hst⟩ : ∃ st, st = ((stylingItself >>= fun _ =>
    exec (.createArguments [] [("a", .int 1)])).toAction.run .initial).2 := ⟨_, rfl⟩
  have given : st.heap.Has (.arguments ⟨0⟩) ∧ st.heap.styleMap? ⟨0⟩ = some ⟨0⟩ ∧
      st.heap.Has (.dict ⟨0⟩) ∧ (st.heap.dict ⟨0⟩).get? "record" = some (.dict ⟨0⟩) ∧
      (st.heap.dict ⟨0⟩).entries = [(.text "record", .dict ⟨0⟩)] := by
    rw [hst]
    decide +kernel
  refine ⟨st, _, hst, rfl, ⟨rfl, given.1, given.2.1, given.2.2.1, fun v found => ⟨⟨0⟩, ?_⟩⟩,
    given.2.2.2.2, ?_⟩
  · exact (Option.some.inj (given.2.2.2.1.symm.trans found)).symm
  · show ((LibraryCall.after ⟨_, _, _, _, st⟩).heap.dict ⟨0⟩).entries = _
    rw [hst]
    decide +kernel

end LexEnv
