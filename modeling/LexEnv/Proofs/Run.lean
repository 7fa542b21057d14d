import LexEnv.Proofs.Effect

/-!
# Runs

The events of a whole program: those of its commands in order, of the functions that revise a slot,
of the bodies of its blocks and of what it invokes. `Program.events` follows the program through the
states that it really visits, so the events depend on the outcomes that the program gets to see.

A program is taken apart in one place: a relation that is `Compositional` holds of every program
(`Compositional.program`), and to be so it has to hold of commands and to survive sequences,
updates and blocks. The first such relation is the evolution by events (`Program.evolves`).

A run is any number of programs, one after the other (`State.Run`); a state is reachable if a run
leads to it from nothing in which nothing is named before it exists.
-/

namespace LexEnv

open LexEnv.Action

/-! ## Events of programs -/

/-- The events of an update: those of the function that revises the value, if it gets to run, and
the write of its result. -/
def SlotId.updateEvents (t : SlotId) (revise : Value → Action Value)
    (during : Value → State → List Event) (st : State) : List Event :=
  match (st.heap.slot t).kind with
  | .mutable =>
    let old := (st.heap.slot t).value
    during old st ++
      match ((revise old).run st).1 with
      | .ok new => [.wrote t new]
      | .error _ => []
  | _ => []

/-- The events of a block: the entering, the events of the body and the leaving, as far as they
come about. -/
def StackId.blockEvents {α : Type} (s : StackId) (body : ScopeId → Action α)
    (during : ScopeId → State → List Event) (st : State) : List Event :=
  match s.enter.run st with
  | (.error _, _) => []
  | (.ok _, st') =>
    let top := (st'.heap.stack s).active
    .entered .block s :: (during top st' ++
      Event.ifDone (s.exit.run ((body top).run st').2).1 (.exited .block s))

/-- The events of invocations. -/
abbrev InvocationEvents := Use → Value → ContextId → ArgumentsId → State → List Event

/-- The events of a program, for a meaning of invocations and their events. -/
def Program.eventsBy (invoke : Invocation) (calls : InvocationEvents) :
    {α : Type} → Program α → State → List Event
  | _, .done _, _ => []
  | _, .fail _, _ => []
  | _, .perform c next, st =>
    let ended := c.run.run st
    c.events st ++ (next ended.1).eventsBy invoke calls ended.2
  | _, .update t revise next, st =>
    let revised := fun v => (revise v).run invoke
    let ended := (t.update revised).run st
    t.updateEvents revised (fun v => (revise v).eventsBy invoke calls) st
      ++ (next ended.1).eventsBy invoke calls ended.2
  | _, .block s body next, st =>
    let inside := fun top => (body top).run invoke
    let ended := (s.block inside).run st
    s.blockEvents inside (fun top => (body top).eventsBy invoke calls) st
      ++ (next ended.1).eventsBy invoke calls ended.2
  | _, .invoke use target context args next, st =>
    let ended := (invoke use target context args).run st
    calls use target context args st ++ (next ended.1).eventsBy invoke calls ended.2

/-- The events of an invocation with at most so many invocations inside each other. -/
def eventsWithin : (nesting : Nat) → InvocationEvents
  | 0 => fun _ _ _ _ _ => []
  | nesting + 1 => fun use target context args =>
    match target.body? use with
    | some body => (body context args).eventsBy (invokeWithin nesting) (eventsWithin nesting)
    | none => fun _ => []

/-- The events of an invocation. -/
def invokeEvents : InvocationEvents := fun use target context args st =>
  eventsWithin (st.heap.nestingBound context args) use target context args st

/-- What a program does to slots, scopes and stacks. -/
def Program.events {α : Type} (p : Program α) (st : State) : List Event :=
  p.eventsBy LexEnv.invoke invokeEvents st

/-! ## Blocks -/

namespace StackId

variable {α : Type} {s : StackId} {body : ScopeId → Action α} {st st' : State}

/-- A block that cannot be entered does nothing. -/
theorem run_block_of_error {e : Error} (h : s.enter.run st = (.error e, st')) :
    (s.block body).run st = (.error e, st') := by
  rw [block, run_bind, enclose, run_bind, h]

/-- A block that was entered runs its body in the new scope and leaves again; it ends as the body
did, unless it cannot leave. -/
theorem run_block_of_ok (h : s.enter.run st = (.ok (), st')) :
    (s.block body).run st =
      (let ended := (body (st'.heap.stack s).active).run st'
       let left := s.exit.run ended.2
       (match left.1 with
        | .ok _ => ended.1
        | .error e => .error e, left.2)) := by
  rw [block, run_bind, enclose, run_bind, h]
  simp only
  rw [run_bind, run_attempt, active]
  rw [show ((do body (← (do return (← s.view).active : Action ScopeId)) : Action α).run st')
    = (body (st'.heap.stack s).active).run st' from rfl]
  simp only
  rw [run_bind, run_attempt]
  simp only [run_pure]
  rw [run_bind, run_ofOutcome]
  cases (s.exit.run ((body (st'.heap.stack s).active).run st').2).1 with
  | error e => rfl
  | ok u => exact run_ofOutcome _ _

end StackId

/-! ## From commands to programs -/

/-- A relation between a state, some events and the state they lead to. It is compositional if it
holds of programs as soon as it holds of what they are made of. -/
structure Compositional (Q : State → List Event → State → Prop) : Prop where
  silent : ∀ {st st' : State}, st'.heap.environment = st.heap.environment → Q st [] st'
  append : ∀ {st st' st'' : State} {es fs : List Event},
    Q st es st' → Q st' fs st'' → Q st (es ++ fs) st''
  command : ∀ {α : Type} (c : Command α) (st : State), Q st (c.events st) (c.run.run st).2
  write : ∀ {t : SlotId} {st st' : State} {es : List Event}, (st.heap.slot t).kind = .mutable →
    Q st es st' → ∀ v, Q st (es ++ [.wrote t v]) ((t.store v).run st').2
  block : ∀ {s : StackId} {st inside ended : State} {es : List Event},
    s.enter.run st = (.ok (), inside) → Q inside es ended →
    Q st (.entered .block s :: (es ++ Event.ifDone (s.exit.run ended).1 (.exited .block s)))
      (s.exit.run ended).2

namespace Compositional

variable {Q : State → List Event → State → Prop}

theorem update (comp : Compositional Q) (t : SlotId) {revise : Value → Action Value}
    {during : Value → State → List Event}
    (inner : ∀ v st, Q st (during v st) ((revise v).run st).2) (st : State) :
    Q st (t.updateEvents revise during st) ((t.update revise).run st).2 := by
  unfold SlotId.updateEvents
  cases hk : (st.heap.slot t).kind with
  | mutable =>
    simp only
    rw [SlotId.run_update_mutable hk, run_bind]
    have revised := inner (st.heap.slot t).value st
    rcases hr : (revise (st.heap.slot t).value).run st with ⟨outcome, st'⟩
    rw [hr] at revised
    cases outcome with
    | error e =>
      simp only [List.append_nil]
      exact revised
    | ok new => exact comp.write hk revised new
  | constant =>
    rw [SlotId.run_update_constant hk]
    exact comp.silent ((Built.recordShown trivial _ _).silent st)
  | bare =>
    rw [SlotId.run_update_bare hk]
    exact comp.silent rfl

theorem enclosed (comp : Compositional Q) {α : Type} (s : StackId) {body : ScopeId → Action α}
    {during : ScopeId → State → List Event}
    (inner : ∀ c st, Q st (during c st) ((body c).run st).2) (st : State) :
    Q st (s.blockEvents body during st) ((s.block body).run st).2 := by
  unfold StackId.blockEvents
  rcases he : s.enter.run st with ⟨_ | _, st'⟩
  · rw [StackId.run_block_of_error he, StackId.eq_of_enter_error he]
    exact comp.silent rfl
  · rw [StackId.run_block_of_ok he]
    exact comp.block he (inner _ st')

theorem programBy (comp : Compositional Q) {invoke : Invocation} {calls : InvocationEvents}
    (inner : ∀ use target context args st,
      Q st (calls use target context args st) ((invoke use target context args).run st).2)
    {α : Type} (p : Program α) (st : State) :
    Q st (p.eventsBy invoke calls st) ((p.run invoke).run st).2 := by
  induction p generalizing st with
  | done a => exact comp.silent rfl
  | fail e => exact comp.silent rfl
  | perform c next ih => exact comp.append (comp.command c st) (ih _ _)
  | update t revise next ihr ih => exact comp.append (comp.update t ihr st) (ih _ _)
  | block s body next ihb ih => exact comp.append (comp.enclosed s ihb st) (ih _ _)
  | invoke use target context args next ih =>
    exact comp.append (inner use target context args st) (ih _ _)

theorem invokeWithin (comp : Compositional Q) (nesting : Nat) (use : Use) (target : Value)
    (context : ContextId) (args : ArgumentsId) (st : State) :
    Q st (eventsWithin nesting use target context args st)
      ((LexEnv.invokeWithin nesting use target context args).run st).2 := by
  induction nesting generalizing use target context args st with
  | zero => exact comp.silent rfl
  | succ nesting ih =>
    simp only [eventsWithin, LexEnv.invokeWithin]
    cases target.body? use with
    | none => exact comp.silent ((Value.built_refuse use target).silent st)
    | some body =>
      have inner := comp.programBy ih (body context args) st
      have finish : ∀ v, (do args.finish; return v : Action Value).Silent :=
        fun v => (Built.bind args.built_finish fun _ => .pure v).silent
      simp only
      rw [Program.finishing, run_bind]
      rcases hr : ((body context args).run (LexEnv.invokeWithin nesting)).run st
        with ⟨outcome, st'⟩
      rw [hr] at inner
      cases outcome with
      | error e => exact inner
      | ok v =>
        have both := comp.append inner (comp.silent (finish v st'))
        rwa [List.append_nil] at both

/-- What holds of the parts of programs holds of programs. -/
theorem program (comp : Compositional Q) {α : Type} (p : Program α) (st : State) :
    Q st (p.events st) (p.toAction.run st).2 :=
  comp.programBy (fun use target context args st =>
    comp.invokeWithin (st.heap.nestingBound context args) use target context args st) p st

end Compositional

/-! ## Programs evolve the heap -/

/-- The kind of a slot never changes. -/
theorem Heap.Evolves.kind_slot {h h' : Heap} {es : List Event} (run : h.Evolves es h')
    {t : SlotId} (ht : t.index < h.slots.size) : (h'.slot t).kind = (h.slot t).kind := by
  rw [run.slot ht]

theorem compositional_evolves :
    Compositional fun st es st' => st.heap.Evolves es st'.heap where
  silent same := .none same
  append first second := first.append second
  command c st := c.evolves st
  write hk run v :=
    run.append (SlotId.evolves_store ((run.kind_slot (Heap.exists_of_mutable hk)).trans hk) v)
  block entered inner :=
    (StackId.evolves_entered .block entered).append
      (inner.append (StackId.evolves_exit _ _ .block))

/-- Running a program evolves the heap by its events. -/
theorem Program.evolves {α : Type} (p : Program α) (st : State) :
    st.heap.Evolves (p.events st) (p.toAction.run st).2.heap :=
  compositional_evolves.program p st

/-! ## Runs -/

/-- Programs performed one after the other, however each of them ends, lead from one state to
another; the list holds their events. -/
inductive State.Run (st : State) : List Event → State → Prop where
  | refl : st.Run [] st
  | next {es : List Event} {st' : State} (past : st.Run es st') {α : Type} (p : Program α) :
      st.Run (es ++ p.events st') (p.toAction.run st').2

namespace State.Run

variable {st st' st'' : State} {es fs : List Event}

/-- A single program is a run. -/
theorem one (st : State) {α : Type} (p : Program α) :
    st.Run (p.events st) (p.toAction.run st).2 := refl.next p

theorem append (first : st.Run es st') (second : st'.Run fs st'') : st.Run (es ++ fs) st'' := by
  induction second with
  | refl => rwa [List.append_nil]
  | next past p ih =>
    rw [← List.append_assoc]
    exact ih.next p

/-- A run evolves the heap by its events. -/
theorem evolves (run : st.Run es st') : st.heap.Evolves es st'.heap := by
  induction run with
  | refl => exact .none rfl
  | next past p ih => exact ih.append (p.evolves _)

end State.Run

namespace Event

/-- An event names no object that does not exist yet: what is bound is a slot, a definition goes
through a stack, and a stack is made over a base. -/
def Grounded (h : Heap) : Event → Prop
  | .opened _ bindings => ∀ e ∈ bindings.entries, e.2.index < h.slots.size
  | .bound via _ _ t _ => t.index < h.slots.size ∧ ∀ s ∈ via, s.index < h.scopeStacks.size
  | .founded _ base _ _ => ∀ c ∈ base, c.index < h.scopes.size
  | _ => True

instance (h : Heap) : (e : Event) → Decidable (e.Grounded h)
  | .opened _ bindings =>
    inferInstanceAs (Decidable (∀ e ∈ bindings.entries, e.2.index < h.slots.size))
  | .bound via _ _ t _ =>
    inferInstanceAs (Decidable (t.index < h.slots.size ∧ ∀ s ∈ via, s.index < h.scopeStacks.size))
  | .founded _ base _ _ => inferInstanceAs (Decidable (∀ c ∈ base, c.index < h.scopes.size))
  | .created .. | .wrote .. | .copied .. | .entered .. | .exited .. => .isTrue trivial

theorem grounded_environment (e : Event) (h : Heap) :
    e.Grounded h.environment ↔ e.Grounded h := by
  cases e <;> rfl

end Event

/-- Nothing is named in a list of events before it exists. -/
def Heap.Grounded (h : Heap) (es : List Event) : Prop := h.Along (fun h e => e.Grounded h) es

instance (h : Heap) (es : List Event) : Decidable (h.Grounded es) :=
  inferInstanceAs (Decidable (h.Along (fun h e => e.Grounded h) es))

/-- A state that some grounded run leads to from the state in which nothing exists. -/
def State.Reachable (st : State) : Prop :=
  ∃ es, State.initial.Run es st ∧ Heap.empty.Grounded es

/-- Grounded runs lead from reachable states to reachable ones. -/
theorem State.Reachable.run {st st' : State} {es : List Event} (reach : st.Reachable)
    (run : st.Run es st') (grounded : st.heap.Grounded es) : st'.Reachable := by
  obtain ⟨before, past, known⟩ := reach
  refine ⟨before ++ es, past.append run, ?_⟩
  exact Heap.along_append.mpr ⟨known,
    (Heap.along_congr (fun h e => e.grounded_environment h) past.evolves.reached).mpr grounded⟩

end LexEnv
