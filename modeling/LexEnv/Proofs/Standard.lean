import LexEnv.Proofs.Consumption
import LexEnv.Proofs.ContextInStep

/-!
# The functions and classes of the library

What the programs of the standard library are built of: reading arguments, looking at values and
making new ones; `print` appends to a list, and setting defaults puts entries into the style map. The
powers that each of them takes are said once (`Builtin.built_program`, `Template.built_setRecord`), so
that what a call may change and what it may fail with need no walk of their own.

Whatever functions and classes a new library binds are these (`ScopeId.newLibrary_standard`).
-/

namespace LexEnv

open LexEnv.Action LexEnv.Powers

/-! ## Compositions of programs -/

namespace Program

variable {α β : Type} {invoke : Invocation}

/-- A program that starts with a command. -/
theorem run_exec_andThen (c : Command α) (f : α → Program β) :
    (exec c >>= f).run invoke = (c.run >>= fun a => (f a).run invoke) := by
  show ((exec c).andThen f).run invoke = _
  rw [run_andThen, run_exec]

/-- A composition that succeeds does so in two parts. -/
theorem exists_run_andThen {p : Program α} {f : α → Program β} {st st' : State} {b : β}
    (ran : ((p >>= f).run invoke).run st = (.ok b, st')) :
    ∃ a middle, (p.run invoke).run st = (.ok a, middle) ∧
      ((f a).run invoke).run middle = (.ok b, st') := by
  have parts : ((p >>= f).run invoke) = (p.run invoke >>= fun a => (f a).run invoke) :=
    run_andThen invoke p f
  rw [parts, run_bind] at ran
  rcases hp : (p.run invoke).run st with ⟨_ | a, middle⟩
  · rw [hp] at ran
    cases ran
  · rw [hp] at ran
    exact ⟨a, middle, rfl, ran⟩

theorem exists_run_exec {c : Command α} {f : α → Program β} {st st' : State} {b : β}
    (ran : ((exec c >>= f).run invoke).run st = (.ok b, st')) :
    ∃ a middle, c.run.run st = (.ok a, middle) ∧ ((f a).run invoke).run middle = (.ok b, st') := by
  obtain ⟨a, middle, first, rest⟩ := exists_run_andThen ran
  rw [run_exec] at first
  exact ⟨a, middle, first, rest⟩

section

variable {P : Powers}

/-- A program that starts with a command. -/
theorem built_command {c : Command α} {f : α → Program β} (first : c.run.Built P)
    (rest : ∀ a, ((f a).run invoke).Built P) : ((exec c >>= f).run invoke).Built P :=
  built_andThen (built_exec first) rest

end

theorem failsWithin_andThen {T : Object → Prop} {p : Program α} {f : α → Program β}
    (first : (p.run invoke).Built (.inside T)) (rest : ∀ a, ((f a).run invoke).FailsWithin T) :
    ((p >>= f).run invoke).FailsWithin T := by
  show ((p.andThen f).run invoke).FailsWithin T
  rw [run_andThen]
  exact failsWithin_bind first.confined rest

end Program

open LexEnv.Program

/-! ## Functions -/

namespace Builtin

variable {P : Powers} {invoke : Invocation} {a : ArgumentsId}

section

variable [P.Faulting]

theorem built_refuse (v : Value) (kind : String) : ((refuse v kind).run invoke).Built P :=
  built_command (.read (·.scriptType v)) fun _ => built_fault ⟨_, rfl⟩

theorem built_toInteger (v : Value) : ((toInteger v).run invoke).Built P := by
  unfold toInteger
  split
  · exact .pure _
  · exact built_refuse _ _

theorem built_toFloat [P.Making] (v : Value) : ((toFloat v).run invoke).Built P := by
  unfold toFloat
  split
  · exact .pure _
  · split
    · exact built_exec (Value.built_newFloat _)
    · exact built_refuse _ _

theorem built_length (v : Value) : ((length v).run invoke).Built P := by
  refine built_command (.read (·.scriptSize? v)) fun size => ?_
  cases size with
  | some n => exact .pure _
  | none => exact built_command (.read (·.scriptType v)) fun _ => built_fault ⟨_, rfl⟩

theorem built_toText [P.Failing] (v : Value) : ((toText v).run invoke).Built P := by
  unfold toText
  split
  · exact .pure _
  · exact built_command (built_looking fun h => h.looks_written _) fun _ => .pure _
  · exact built_command (built_looking fun h => h.looks_written _) fun _ => .pure _
  · exact built_refuse _ _

end

theorem built_join [P.Failing] (sep : Value) (parts : List String) :
    ((join sep parts).run invoke).Built P := by
  unfold join
  split
  · exact .pure _
  · split
    · exact .pure _
    · exact built_fail ⟨nofun, nofun, _, rfl⟩
  · exact built_command (.read (·.typeName sep)) fun _ => built_fail ⟨nofun, nofun, _, rfl⟩

variable (own : P.changes (.arguments a))

include own

theorem built_displayed [P.Failing] (n : Nat) : ((displayed a n).run invoke).Built P := by
  induction n with
  | zero => exact .pure _
  | succ n ih =>
    refine built_command (a.built_eat own) fun v => ?_
    exact built_command (built_looking fun h => h.looks_display v) fun _ =>
      built_andThen ih fun _ => .pure _

/-- Printing does not fail as a script. -/
theorem built_printAll [P.Failing] (lines : ∀ c, P.changes (.sequence c)) (context : ContextId) :
    ((printAll context a).run invoke).Built P := by
  refine built_command (a.built_named own _ _) fun sep => ?_
  refine built_command (.read (·.args a)) fun unread => ?_
  refine built_andThen (built_displayed own _) fun parts => ?_
  refine built_command context.built_output fun list => built_andThen (built_join sep parts) ?_
  exact fun line => built_command (list.built_append (lines list) line) fun _ => .pure _

/-- An assertion passes on the message that it is given. -/
theorem built_require [P.Faulting] (given : ∀ message, P.fails (.eval (.given message))) :
    ((require a).run invoke).Built P := by
  refine built_command (a.built_expect own _) fun condition => ?_
  refine built_command (a.built_named own _ _) fun message => ?_
  refine built_command (.read (·.truth condition)) fun holds => ?_
  cases holds with
  | true => exact .pure _
  | false =>
    refine built_command (.read (·.truth message)) fun counts => ?_
    cases counts with
    | true => exact .fail (given message)
    | false => exact built_fault ⟨_, rfl⟩

/-- The functions of the library read their arguments and look at values; `print` appends to a list
besides, and an assertion fails with the message that it is given. -/
theorem built_program [P.Failing] [P.Faulting] [P.Making] (f : Builtin)
    (lines : f = .print → ∀ c, P.changes (.sequence c))
    (given : f = .assert → ∀ message, P.fails (.eval (.given message))) (context : ContextId) :
    ((f.program context a).run invoke).Built P := by
  cases f with
  | repr =>
    exact built_command (a.built_expect own _) fun _ =>
      built_command (built_looking fun h => h.looks_written _) fun _ => .pure _
  | type =>
    exact built_command (a.built_expect own _) fun v =>
      built_command (.read (·.scriptType v)) fun _ => .pure _
  | len => exact built_command (a.built_expect own _) built_length
  | str => exact built_command (a.built_expect own _) built_toText
  | int => exact built_command (a.built_expect own _) built_toInteger
  | float => exact built_command (a.built_expect own _) built_toFloat
  | print => exact built_printAll own (lines rfl) context
  | assert => exact built_require own (given rfl)

omit own in
/-- Printing that fails has changed nothing but its arguments: the line is added last. -/
theorem failsWithin_printAll (context : ContextId) :
    ((printAll context a).run invoke).FailsWithin (· = .arguments a) := by
  refine failsWithin_andThen (built_exec (a.built_named rfl _ _)) fun sep => ?_
  refine failsWithin_andThen (built_exec (.read (·.args a))) fun unread => ?_
  refine failsWithin_andThen (built_displayed rfl _) fun parts => ?_
  refine failsWithin_andThen (built_exec context.built_output) fun lines => ?_
  refine failsWithin_andThen (built_join sep parts) fun line => ?_
  intro st e failed
  cases failed

end Builtin

/-! ## Records -/

/-- Adding defaults changes dictionaries and sets only. -/
theorem ContextId.confined_of_added {c : ContextId} {name : String}
    {named : List (String × Value)} {st st' : State}
    (added : (c.addDefaults name named).run st = (.ok (), st')) :
    st.heap.Confined Value.Absorbing st'.heap :=
  (Command.addDefaults c name named).confined.of_run added

/-- Named entries that cannot be put into a value change nothing. -/
theorem Value.failsWithin_absorb {T : Object → Prop} (v : Value)
    (entries : List (String × Value)) : (v.absorb entries).FailsWithin T := by
  unfold absorb
  split
  · intro st e failed
    cases failed
  · intro st e failed
    cases failed
  · refine Confined.failsWithin (Built.confined ?_)
    exact .bind (SlotId.built_update_fail _ ⟨nofun, nofun, _, rfl⟩) fun _ => .pure _
  · exact (built_lacking _ _).confined.failsWithin

/-- Defaults that cannot be added change nothing: new ones are added to without fail. -/
theorem ContextId.failsWithin_addDefaults {T : Object → Prop} (c : ContextId) (name : String)
    (entries : List (String × Value)) : (c.addDefaults name entries).FailsWithin T := by
  refine failsWithin_bind (Built.read _).confined fun x => ?_
  cases x.styles with
  | dict d =>
    unfold Value.entryOrNew
    rw [bind_assoc]
    refine failsWithin_bind (Built.read _).confined fun found => ?_
    cases found with
    | some content => exact Value.failsWithin_absorb content entries
    | none =>
      intro st e failed
      cases failed
  | _ =>
    exact failsWithin_bind (Value.built_lacking _ _).confined fun v =>
      Value.failsWithin_absorb v entries

namespace Template

variable {P : Powers} {invoke : Invocation} {a : ArgumentsId}

theorem built_constructRecord [P.Failing] [P.Making] (own : P.changes (.arguments a))
    (context : ContextId) : ((constructRecord context a).run invoke).Built P :=
  built_command (context.built_defaults _) fun _ =>
    built_command (a.built_takeAllNamed own) fun _ => built_exec (Value.built_newDict _)

/-- Setting defaults does not fail as a script. -/
theorem built_setRecord [P.Failing] [P.Refusing] [P.Making] (own : P.changes (.arguments a))
    (absorbing : ∀ o, Value.Absorbing o → P.changes o) (context : ContextId) :
    ((setRecord context a).run invoke).Built P :=
  built_command (.read (·.args a)) fun _ =>
    built_command (context.built_addDefaults absorbing _ _) fun _ =>
      built_command (a.built_takeAllNamed own) fun _ => .pure _

/-- Setting defaults that fails has changed nothing. -/
theorem failsWithin_setRecord {T : Object → Prop} (context : ContextId) :
    ((setRecord context a).run invoke).FailsWithin T := by
  refine failsWithin_andThen (built_exec (.read (·.args a))) fun unread => ?_
  rw [run_exec_andThen]
  exact failsWithin_bind_ok (ContextId.failsWithin_addDefaults context "record" unread.named)
    fun _ _ => ⟨_, rfl⟩

/-- Setting defaults that succeeds puts the named arguments over the defaults for records, and
changes nothing else but its arguments. -/
theorem run_setRecord {context : ContextId} {st st' : State} {v : Value}
    (ran : ((setRecord context a).run invoke).run st = (.ok v, st')) :
    ∃ middle, (context.addDefaults "record" (st.heap.args a).named).run st = (.ok (), middle) ∧
      middle.heap.Confined (· = .arguments a) st'.heap := by
  obtain ⟨unread, st₁, looked, ran⟩ := exists_run_exec ran
  cases looked
  obtain ⟨⟨⟩, middle, added, ran⟩ := exists_run_exec ran
  obtain ⟨named, st₃, taken, ran⟩ := exists_run_exec ran
  cases ran
  exact ⟨middle, added, (Command.confined _).of_run taken⟩

end Template

/-! ## Uses of standard values -/

/-- How a function or class of the library can be put to a use. -/
inductive LibraryUse : Use → Value → Prop where
  | refused {use : Use} {target : Value} (without : target.body? use = none) : LibraryUse use target
  | call (name : String) (f : Builtin) (serial : Nat) :
    LibraryUse .call (.func ⟨name, .builtin f, serial⟩)
  | construct (name : String) (serial : Nat) : LibraryUse .construct (.cls ⟨name, .record, serial⟩)
  | set (name : String) (serial : Nat) : LibraryUse .set (.cls ⟨name, .record, serial⟩)

theorem Value.libraryUse {target : Value} (standard : target.isStandard = true) (use : Use) :
    LibraryUse use target := by
  cases target with
  | func f =>
    obtain ⟨name, native, serial⟩ := f
    cases native with
    | guest f => cases standard
    | builtin f =>
      cases use with
      | call => exact .call name f serial
      | construct | set => exact .refused rfl
  | cls c =>
    obtain ⟨name, template, serial⟩ := c
    obtain rfl : template = .record := of_decide_eq_true standard
    cases use with
    | call => exact .refused rfl
    | construct => exact .construct name serial
    | set => exact .set name serial
  | _ => cases use <;> exact .refused rfl

/-- What has no body for a use refuses it. -/
theorem run_invoke_of_none {use : Use} {target : Value} (without : target.body? use = none)
    (context : ContextId) (a : ArgumentsId) (st : State) :
    (invoke use target context a).run st = (target.refuse use).run st := by
  obtain ⟨n, bound⟩ : ∃ n, st.heap.nestingBound context a = n + 1 := ⟨_, rfl⟩
  show (invokeWithin (st.heap.nestingBound context a) use target context a).run st = _
  rw [bound]
  simp only [invokeWithin, without]

/-! ## What a new library binds -/

/-- A scope whose slots all hold what the library defines, or what is no function or class. -/
def Heap.BindsStandard (h : Heap) (c : ScopeId) : Prop :=
  h.Has (.scope c) ∧
    ∀ e ∈ (h.scope c).entries, h.Has (.slot e.2) ∧ (h.slot e.2).value.isStandard = true

namespace ScopeId

variable {c : ScopeId} {v : Value}

/-- An action that succeeds and leaves only standard values in a scope that has no other ones. -/
def KeepsStandard (c : ScopeId) (x : Action Unit) : Prop :=
  ∀ st : State, st.heap.BindsStandard c →
    ∃ st', x.run st = (.ok (), st') ∧ st'.heap.BindsStandard c

theorem KeepsStandard.bind {x : Action Unit} {f : Unit → Action Unit} (hx : c.KeepsStandard x)
    (hf : c.KeepsStandard (f ())) : c.KeepsStandard (x >>= f) := by
  intro st binds
  obtain ⟨st', first, binds⟩ := hx st binds
  obtain ⟨st'', second, binds⟩ := hf st' binds
  refine ⟨st'', ?_, binds⟩
  rw [run_bind, first]
  exact second

theorem keepsStandard_forM {α : Type} {f : α → Action Unit} (keeps : ∀ a, c.KeepsStandard (f a))
    (as : List α) : c.KeepsStandard (as.forM f) := by
  induction as with
  | nil => exact fun st binds => ⟨st, rfl, binds⟩
  | cons a as ih => exact (keeps a).bind ih

theorem keepsStandard_defineConst (name : String) (standard : v.isStandard = true) :
    c.KeepsStandard (c.defineConst (.text name) v) := by
  intro st ⟨there, binds⟩
  let made := (st.heap.addSlot ⟨.constant, v⟩).2
  let t : SlotId := ⟨st.heap.slots.size⟩
  have defined : (c.defineConst (.text name) v).run st = (.ok (), { st with
      heap := made.setScope c ((made.scope c).insert name t) }) :=
    c.run_define_text st name .constant v
  have add := st.heap.adds_addSlot ⟨.constant, v⟩
  have change := made.changes_setScope c ((made.scope c).insert name t)
  refine ⟨_, defined, (change.has _).mpr ((add.has _).mpr (.inl there)), ?_⟩
  intro e mem
  have content : (made.setScope c ((made.scope c).insert name t)).scope c =
      (made.scope c).insert name t :=
    Cell.scope.inj (Heap.cell_setScope ((add.has _).mpr (.inl there)) _)
  rw [content] at mem
  rcases Table.mem_put (made.put_text name t (made.scope c)) mem with new | ⟨k, old⟩
  · rw [new]
    refine ⟨(change.has _).mpr ((add.has _).mpr (.inr rfl)), ?_⟩
    rw [Heap.slot_setScope, show made.slot t = ⟨.constant, v⟩ from st.heap.slot_addSlot_new _ rfl]
    exact standard
  · obtain ⟨exist, was⟩ := binds _ old
    refine ⟨(change.has _).mpr ((add.has _).mpr (.inl exist)), ?_⟩
    rw [Heap.slot_setScope, show made.slot e.2 = st.heap.slot e.2 from
      st.heap.slot_addSlot_of_lt _ exist]
    exact was

/-- Making a value of its own identity first changes nothing about that. -/
theorem keepsStandard_defineMade (name : String) {made : Action Value} (value : Nat → Value)
    (makes : ∀ st : State,
      made.run st = (.ok (value st.heap.serial), { st with heap := st.heap.addSerial.2 }))
    (standard : ∀ n, (value n).isStandard = true) :
    c.KeepsStandard (made >>= c.defineConst (.text name)) := by
  intro st binds
  have still : st.heap.addSerial.2.BindsStandard c := binds
  obtain ⟨st', defined, binds⟩ := keepsStandard_defineConst name (standard st.heap.serial)
    { st with heap := st.heap.addSerial.2 } still
  refine ⟨st', ?_, binds⟩
  rw [run_bind, makes]
  exact defined

theorem keepsStandard_defineFunc (f : Builtin) :
    c.KeepsStandard (c.defineFunc f.name (.builtin f)) :=
  keepsStandard_defineMade f.name (fun n => .func ⟨f.name, .builtin f, n⟩)
    (fun _ => rfl) fun _ => rfl

theorem keepsStandard_defineRecord (name : String) :
    c.KeepsStandard (c.defineClass name (.templated .record)) :=
  keepsStandard_defineMade name (fun n => .cls ⟨name, .record, n⟩)
    (fun _ => rfl) fun _ => rfl

/-- The standard definitions, made in a scope. -/
def defineStandard (c : ScopeId) : Action Unit := do
  Builtin.all.forM fun f => c.defineFunc f.name (.builtin f)
  c.defineClass "record" (.templated .record)
  c.defineConst (.text "none") .none
  c.defineConst (.text "true") (.bool true)
  c.defineConst (.text "false") (.bool false)

/-- A new library is a new scope with the standard definitions. -/
theorem run_newLibrary (st : State) :
    newLibrary.run st = (defineStandard ⟨st.heap.scopes.size⟩ >>= fun _ =>
      pure ⟨st.heap.scopes.size⟩).run { st with heap := (st.heap.addScope .empty).2 } := by
  rw [defineStandard]
  simp only [bind_assoc]
  rfl

/-- Whatever functions and classes a new library binds are those of the library. -/
theorem newLibrary_standard (st : State) :
    ∃ c st', newLibrary.run st = (.ok c, st') ∧ st'.heap.BindsStandard c := by
  let c : ScopeId := ⟨st.heap.scopes.size⟩
  have start : (st.heap.addScope .empty).2.BindsStandard c := by
    have empty := st.heap.scope_addScope_new .empty (c := c) rfl
    refine ⟨((st.heap.adds_addScope .empty).has _).mpr (.inr rfl), fun e mem => ?_⟩
    rw [empty] at mem
    cases mem
  have rest : c.KeepsStandard c.defineStandard :=
    (keepsStandard_forM keepsStandard_defineFunc _).bind <|
      (keepsStandard_defineRecord _).bind <| (keepsStandard_defineConst _ rfl).bind <|
        (keepsStandard_defineConst _ rfl).bind (keepsStandard_defineConst _ rfl)
  obtain ⟨st', ran, binds⟩ := rest { st with heap := (st.heap.addScope .empty).2 } start
  refine ⟨c, st', ?_, binds⟩
  rw [run_newLibrary, run_bind, ran]
  rfl

end ScopeId

/-- A new library as the base of a stack, a context on it, and arguments with one text and one name
that neither `print` nor a record asks for by itself. -/
def overNewLibrary : State :=
  let build : Action Unit := do
    let base ← ScopeId.newLibrary
    let _ ← ContextId.create (← StackId.create (some base) 1000 none) .none .none
    let _ ← ArgumentsId.create [.text "x"] [("extra", .int 1)]
  (build.run .initial).2

/-- The value of a name over a new library. -/
def libraryValue (name : String) : Value :=
  match ((StackId.get ⟨0⟩ (.text name)).run overNewLibrary).1 with
  | .ok v => v
  | .error _ => .none

end LexEnv
