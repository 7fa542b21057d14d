import LexEnv.Proofs.Defaults

/-!
# Functions of a new library

A new library binds each of its functions under its name, constant (`ScopeId.newLibrary_binds`). A
function called on a single value finds no other argument and leaves none, so the call comes to what
the function makes of the value (`Builtin.exists_run_callOn`).
-/

namespace LexEnv

open LexEnv.Action LexEnv.Program

/-! ## What is bound -/

/-- A scope binds a function of the library under its name, by a constant slot. -/
def Heap.BindsBuiltin (h : Heap) (c : ScopeId) (f : Builtin) : Prop :=
  ∃ t serial, h.Has (.slot t) ∧ (h.scope c).get? f.name = some t ∧
    h.slot t = ⟨.constant, .func ⟨f.name, .builtin f, serial⟩⟩

theorem Builtin.name_injective {f g : Builtin} (same : f.name = g.name) : f = g := by
  cases f <;> cases g <;> first | rfl | exact absurd same (by decide)

namespace ScopeId

variable {c : ScopeId} {fs gs : List Builtin}

/-- An action that succeeds and leaves the functions of the library bound that a scope bound before,
and some more. -/
def BindsMore (c : ScopeId) (fs : List Builtin) (x : Action Unit) : Prop :=
  ∀ st : State, st.heap.Has (.scope c) → ∃ st', x.run st = (.ok (), st') ∧ st'.heap.Has (.scope c) ∧
    ∀ f, f ∈ fs ∨ st.heap.BindsBuiltin c f → st'.heap.BindsBuiltin c f

theorem BindsMore.bind {x : Action Unit} {f : Unit → Action Unit} (hx : c.BindsMore fs x)
    (hf : c.BindsMore gs (f ())) : c.BindsMore (fs ++ gs) (x >>= f) := by
  intro st there
  obtain ⟨st', first, there, binds⟩ := hx st there
  obtain ⟨st'', second, there, binds'⟩ := hf st' there
  refine ⟨st'', ?_, there, fun g bound => binds' g ?_⟩
  · rw [run_bind, first]
    exact second
  · rw [List.mem_append] at bound
    rcases bound with (mem | mem) | old
    · exact .inr (binds g (.inl mem))
    · exact .inl mem
    · exact .inr (binds g (.inr old))

/-- A definition binds its name to a new slot and leaves functions of other names bound. -/
theorem exists_run_defineConst (name : String) (v : Value) (st : State)
    (there : st.heap.Has (.scope c)) : ∃ st' t, (c.defineConst (.text name) v).run st = (.ok (), st') ∧
      st'.heap.Has (.scope c) ∧ st'.heap.Has (.slot t) ∧ (st'.heap.scope c).get? name = some t ∧
      st'.heap.slot t = ⟨.constant, v⟩ ∧
      ∀ f : Builtin, f.name ≠ name → st.heap.BindsBuiltin c f → st'.heap.BindsBuiltin c f := by
  have add := st.heap.adds_addSlot ⟨.constant, v⟩
  have change := (st.heap.addSlot ⟨.constant, v⟩).2.changes_setScope c
    ((st.heap.scope c).insert name ⟨st.heap.slots.size⟩)
  have has : ∀ o, st.heap.Has o ∨ o = .slot ⟨st.heap.slots.size⟩ → _ := fun o old =>
    (change.has o).mpr ((add.has o).mpr old)
  have looked := Heap.get?_setScope_insert (h := (st.heap.addSlot ⟨.constant, v⟩).2) there
    (st.heap.scope c) name (t := ⟨st.heap.slots.size⟩)
  refine ⟨_, ⟨st.heap.slots.size⟩, c.run_define_text st name .constant v, has _ (.inl there),
    has _ (.inr rfl), (looked name).trans (if_pos rfl), st.heap.slot_addSlot_new _ rfl, ?_⟩
  rintro f other ⟨t, serial, exist, bound, holds⟩
  refine ⟨t, serial, has _ (.inl exist), ((looked f.name).trans (if_neg other)).trans bound, ?_⟩
  rw [Heap.slot_setScope, st.heap.slot_addSlot_of_lt _ exist, holds]

theorem bindsMore_defineConst {name : String} (v : Value) (other : ∀ f : Builtin, f.name ≠ name) :
    c.BindsMore [] (c.defineConst (.text name) v) := by
  intro st there
  obtain ⟨st', t, ran, there, -, -, -, kept⟩ := exists_run_defineConst name v st there
  exact ⟨st', ran, there, fun f bound => kept f (other f) (bound.resolve_left List.not_mem_nil)⟩

theorem bindsMore_defineRecord : c.BindsMore [] (c.defineClass "record" (.templated .record)) := by
  intro st there
  exact bindsMore_defineConst (.cls ⟨"record", .record, st.heap.serial⟩)
    (fun f => by cases f <;> decide) { st with heap := st.heap.addSerial.2 } there

theorem bindsMore_defineFunc (f : Builtin) :
    c.BindsMore [f] (c.defineFunc f.name (.builtin f)) := by
  intro st there
  obtain ⟨st', t, ran, there, exist, bound, holds, kept⟩ :=
    exists_run_defineConst f.name (.func ⟨f.name, .builtin f, st.heap.serial⟩)
      { st with heap := st.heap.addSerial.2 } there
  refine ⟨st', ran, there, fun g before => ?_⟩
  -- Two functions of one name are the same, so nothing that was bound before is hidden.
  by_cases same : g.name = f.name
  · cases Builtin.name_injective same
    exact ⟨t, st.heap.serial, exist, bound, holds⟩
  · refine kept g same (before.resolve_left fun mem => same ?_)
    rw [List.mem_singleton.mp mem]

theorem bindsMore_forM (fs : List Builtin) :
    c.BindsMore fs (fs.forM fun f => c.defineFunc f.name (.builtin f)) := by
  induction fs with
  | nil => exact fun st there => ⟨st, rfl, there, fun f bound => bound.resolve_left List.not_mem_nil⟩
  | cons f fs ih => exact (bindsMore_defineFunc f).bind ih

/-- A new library binds each of its functions under its name. -/
theorem newLibrary_binds (st : State) :
    ∃ c st', newLibrary.run st = (.ok c, st') ∧ ∀ f : Builtin, st'.heap.BindsBuiltin c f := by
  let c : ScopeId := ⟨st.heap.scopes.size⟩
  have rest : c.BindsMore (Builtin.all ++ ([] ++ ([] ++ ([] ++ [])))) c.defineStandard :=
    (bindsMore_forM _).bind <| bindsMore_defineRecord.bind <|
      (bindsMore_defineConst _ fun f => by cases f <;> decide).bind <|
        (bindsMore_defineConst _ fun f => by cases f <;> decide).bind
          (bindsMore_defineConst _ fun f => by cases f <;> decide)
  obtain ⟨st', ran, -, binds⟩ := rest { st with heap := (st.heap.addScope .empty).2 }
    (((st.heap.adds_addScope .empty).has _).mpr (.inr rfl))
  refine ⟨c, st', ?_, fun f => binds f (.inl (List.mem_append_left _ f.mem_all))⟩
  rw [run_newLibrary, run_bind, ran]
  rfl

end ScopeId

/-! ## Calls on one value -/

/-- A state with arguments that have been read, as the last ones that were made. -/
def State.afterReading (st : State) : State :=
  { st with heap := (st.heap.addArguments ⟨[], []⟩).2 }

theorem Heap.setArguments_addArguments (h : Heap) (x y : Arguments) :
    (h.addArguments x).2.setArguments ⟨h.arguments.size⟩ y = (h.addArguments y).2 := by
  have read : (h.arguments.push x).setIfInBounds h.arguments.size y = h.arguments.push y := by
    refine Array.ext' ?_
    simp
  simp only [addArguments, setArguments, read]

/-- Reading the only argument of a new call. -/
theorem ArgumentsId.run_expect_created (v : Value) (what : String) (st : State) :
    (expect ⟨st.heap.arguments.size⟩ what).run
      { st with heap := (st.heap.addArguments ⟨[v], []⟩).2 } = (.ok v, st.afterReading) := by
  have args := Cell.arguments.inj (st.heap.cell_addArguments ⟨[v], []⟩)
  have next := congrArg Arguments.positional args
  rw [run_expect_cons next, args, Heap.setArguments_addArguments, State.afterReading]

/-- A call that has read all its arguments ends as its body did, whether it succeeded or not. -/
theorem Program.judged_of_confined {a : ArgumentsId} {x : Action Value} {st : State}
    (confined : x.Confined fun _ => False) (there : st.heap.Has (.arguments a))
    (read : st.heap.args a = ⟨[], []⟩) : judged a (x.run st) = x.run st := by
  rcases ran : x.run st with ⟨e | v, st'⟩
  · rfl
  · refine judged_of_read ?_
    have kept := (confined.of_run ran).cell (.arguments a) there id
    rw [Cell.arguments.inj kept, read]

namespace Builtin

/-- Calls a function of the library on one value. -/
def callOn (f : Builtin) (serial : Nat) (context : ContextId) (v : Value) : Action Value := do
  invoke .call (.func ⟨f.name, .builtin f, serial⟩) context (← ArgumentsId.create [v] [])

/-- A function that reads one argument and changes nothing after that comes to what it makes of the
argument. -/
theorem exists_run_callOn {f : Builtin} {what : String} {g : Value → Program Value}
    (body : ∀ context a, f.program context a = (exec (.expect a what) >>= g)) {v : Value}
    (confined : ∀ invoke, ((g v).run invoke).Confined fun _ => False)
    (serial : Nat) (context : ContextId) (st : State) : ∃ nesting,
      (f.callOn serial context v).run st = ((g v).run (invokeWithin nesting)).run st.afterReading := by
  let a : ArgumentsId := ⟨st.heap.arguments.size⟩
  let created : State := { st with heap := (st.heap.addArguments ⟨[v], []⟩).2 }
  have is : (Value.func ⟨f.name, .builtin f, serial⟩).body? .call = some f.program := rfl
  obtain ⟨nesting, invoked⟩ := exists_run_invoke is context a created
  have read : ((f.program context a).run (invokeWithin nesting)).run created =
      ((g v).run (invokeWithin nesting)).run st.afterReading := by
    rw [body, run_exec_of_ok (c := .expect a what) (ArgumentsId.run_expect_created v what st)]
  refine ⟨nesting, ?_⟩
  -- Nothing is left over after the value, so the verdict on the call is that of its body.
  show (invoke .call (.func ⟨f.name, .builtin f, serial⟩) context a).run created = _
  rw [invoked, read]
  exact judged_of_confined (confined _) (((st.heap.adds_addArguments _).has _).mpr (.inr rfl))
    (Cell.arguments.inj (st.heap.cell_addArguments ⟨[], []⟩))

end Builtin

end LexEnv
