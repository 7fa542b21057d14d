import LexEnv.Proofs.Run

/-!
# Runs as lists of commands

The steps of a program: every command that it performs, wherever it does so, together with the state
in which it does. Those of the functions that revise a slot, of the bodies of blocks and of all that
is invoked are among them; the write of an update is the command that sets a slot directly, and a
block enters and leaves by the commands for that.

Events (`Run.lean`) say what became of slots, scopes and stacks, and forget by which operation. Laws
that depend on the operation, on its operands or on what it answered are laws about steps. Each step
starts in the heap that the one before it left, and the last one leaves the heap of the whole run
(`Program.chain`), so such a law is checked for single commands and carried along the chain.
-/

namespace LexEnv

open LexEnv.Action

/-! ## Steps -/

/-- A command and the state in which it is performed. -/
structure Step where
  {Answer : Type}
  command : Command Answer
  before : State

namespace Step

/-- What a step answers. -/
def answer (s : Step) : Except Error s.Answer := (s.command.run.run s.before).1

/-- The state that a step leaves. -/
def after (s : Step) : State := (s.command.run.run s.before).2

/-- What a step does to slots, scopes and stacks. -/
def events (s : Step) : List Event := s.command.events s.before

theorem evolves (s : Step) : s.before.heap.Evolves s.events s.after.heap :=
  s.command.evolves s.before

end Step

/-! ## Chains of steps -/

namespace Steps

/-- Steps from one heap to another: each starts in the heap that the one before it left. -/
def Chain : Heap → List Step → Heap → Prop
  | h, [], h' => h' = h
  | h, s :: ss, h' => s.before.heap = h ∧ Chain s.after.heap ss h'

variable {h h' h'' : Heap} {ss ts : List Step} {s : Step}

theorem chain_nil : Chain h [] h' ↔ h' = h := Iff.rfl

theorem chain_cons : Chain h (s :: ss) h' ↔ s.before.heap = h ∧ Chain s.after.heap ss h' := Iff.rfl

theorem chain_append : Chain h (ss ++ ts) h'' ↔ ∃ h', Chain h ss h' ∧ Chain h' ts h'' := by
  induction ss generalizing h with
  | nil =>
    constructor
    · intro chain
      exact ⟨h, rfl, chain⟩
    · rintro ⟨h', rfl, chain⟩
      exact chain
  | cons s ss ih =>
    rw [List.cons_append, chain_cons, ih]
    constructor
    · rintro ⟨start, h', first, second⟩
      exact ⟨h', ⟨start, first⟩, second⟩
    · rintro ⟨h', ⟨start, first⟩, second⟩
      exact ⟨start, h', first, second⟩

theorem Chain.append (first : Chain h ss h') (second : Chain h' ts h'') :
    Chain h (ss ++ ts) h'' := chain_append.mpr ⟨h', first, second⟩

/-- A single step. -/
theorem Chain.one (s : Step) : Chain s.before.heap [s] s.after.heap := ⟨rfl, rfl⟩

/-- Steps evolve the heap by their events. -/
theorem Chain.evolves (chain : Chain h ss h') : h.Evolves (ss.flatMap Step.events) h' := by
  induction ss generalizing h with
  | nil =>
    rw [chain_nil.mp chain]
    exact .none rfl
  | cons s ss ih =>
    obtain ⟨rfl, rest⟩ := chain
    exact s.evolves.append (ih rest)

/-- A slot that can be written can be written after any steps. -/
theorem Chain.mutable {t : SlotId} (chain : Chain h ss h') (hk : (h.slot t).kind = .mutable) :
    (h'.slot t).kind = .mutable :=
  (chain.evolves.kind_slot (Heap.exists_of_mutable hk)).trans hk

end Steps

open Steps

/-! ## Steps of programs -/

/-- The steps of an update: those of the function that revises the value, and the write of its
result. An update that is refused has none. -/
def SlotId.updateSteps (t : SlotId) (revise : Value → Action Value)
    (during : Value → State → List Step) (st : State) : List Step :=
  match (st.heap.slot t).kind with
  | .mutable =>
    let old := (st.heap.slot t).value
    let ended := (revise old).run st
    during old st ++
      match ended.1 with
      | .ok new => [⟨.setSlotDirectly t new, ended.2⟩]
      | .error _ => []
  | _ => []

/-- The steps of a block: the entering, and if that succeeds, those of the body and the leaving. -/
def StackId.blockSteps {α : Type} (s : StackId) (body : ScopeId → Action α)
    (during : ScopeId → State → List Step) (st : State) : List Step :=
  ⟨.enter s, st⟩ ::
    match s.enter.run st with
    | (.error _, _) => []
    | (.ok _, st') =>
      let top := (st'.heap.stack s).active
      during top st' ++ [⟨.exit s, ((body top).run st').2⟩]

/-- The steps of invocations. -/
abbrev InvocationSteps := Use → Value → ContextId → ArgumentsId → State → List Step

/-- The steps of a program, for a meaning of invocations and their steps. -/
def Program.stepsBy (invoke : Invocation) (calls : InvocationSteps) :
    {α : Type} → Program α → State → List Step
  | _, .done _, _ => []
  | _, .fail _, _ => []
  | _, .perform c next, st =>
    let ended := c.run.run st
    ⟨c, st⟩ :: (next ended.1).stepsBy invoke calls ended.2
  | _, .update t revise next, st =>
    let revised := fun v => (revise v).run invoke
    let ended := (t.update revised).run st
    t.updateSteps revised (fun v => (revise v).stepsBy invoke calls) st
      ++ (next ended.1).stepsBy invoke calls ended.2
  | _, .block s body next, st =>
    let inside := fun top => (body top).run invoke
    let ended := (s.block inside).run st
    s.blockSteps inside (fun top => (body top).stepsBy invoke calls) st
      ++ (next ended.1).stepsBy invoke calls ended.2
  | _, .invoke use target context args next, st =>
    let ended := (invoke use target context args).run st
    calls use target context args st ++ (next ended.1).stepsBy invoke calls ended.2

/-- The steps of an invocation with at most so many invocations inside each other: those of the
body, and the report of unread arguments if the body succeeds. -/
def stepsWithin : (nesting : Nat) → InvocationSteps
  | 0 => fun _ _ _ _ _ => []
  | nesting + 1 => fun use target context args st =>
    match target.body? use with
    | some body =>
      let ended := ((body context args).run (invokeWithin nesting)).run st
      (body context args).stepsBy (invokeWithin nesting) (stepsWithin nesting) st ++
        match ended.1 with
        | .ok _ => [⟨.finish args, ended.2⟩]
        | .error _ => []
    | none => []

/-- The steps of an invocation. -/
def invokeSteps : InvocationSteps := fun use target context args st =>
  stepsWithin (st.heap.nestingBound context args) use target context args st

/-- The commands that a program performs. -/
def Program.steps {α : Type} (p : Program α) (st : State) : List Step :=
  p.stepsBy LexEnv.invoke invokeSteps st

/-! ## The steps of a program lead to where it leads -/

/-- What records something only leaves the heap as it is. -/
theorem Action.heap_run_recordShown (r : String → TraceRecord)
    (shown : Heap → Except Error String) (st : State) :
    ((recordShown r shown).run st).2.heap = st.heap := by
  obtain ⟨trace, recorded⟩ := exists_run_recordShown r shown st
  rw [recorded]

namespace SlotId

theorem chain_update (t : SlotId) {revise : Value → Action Value}
    {during : Value → State → List Step}
    (inner : ∀ v (st : State), Chain st.heap (during v st) ((revise v).run st).2.heap) (st : State) :
    Chain st.heap (t.updateSteps revise during st) ((t.update revise).run st).2.heap := by
  unfold updateSteps
  cases hk : (st.heap.slot t).kind with
  | mutable =>
    simp only
    rw [run_update_mutable hk, run_bind]
    have revised := inner (st.heap.slot t).value st
    rcases hr : (revise (st.heap.slot t).value).run st with ⟨outcome, st'⟩
    rw [hr] at revised
    cases outcome with
    | error e =>
      simp only [List.append_nil]
      exact revised
    | ok new =>
      have write := Chain.one ⟨.setSlotDirectly t new, st'⟩
      -- The function may have done anything, but the slot can still be written.
      have stored : (⟨.setSlotDirectly t new, st'⟩ : Step).after = ((t.store new).run st').2 :=
        congrArg Prod.snd (run_setDirectly_mutable (revised.mutable hk) new)
      rw [stored] at write
      exact revised.append write
  | constant =>
    rw [run_update_constant hk]
    exact heap_run_recordShown _ _ st
  | bare =>
    rw [run_update_bare hk]
    rfl

end SlotId

theorem StackId.chain_block {α : Type} (s : StackId) {body : ScopeId → Action α}
    {during : ScopeId → State → List Step}
    (inner : ∀ c (st : State), Chain st.heap (during c st) ((body c).run st).2.heap) (st : State) :
    Chain st.heap (s.blockSteps body during st) ((s.block body).run st).2.heap := by
  unfold blockSteps
  rcases he : s.enter.run st with ⟨_ | _, st'⟩
  all_goals have entered : (⟨.enter s, st⟩ : Step).after = st' := congrArg Prod.snd he
  · rw [run_block_of_error he]
    exact ⟨rfl, congrArg State.heap entered.symm⟩
  · rw [run_block_of_ok he]
    refine ⟨rfl, ?_⟩
    rw [entered]
    exact (inner _ st').append (Chain.one ⟨.exit s, _⟩)

theorem Program.chainBy {invoke : Invocation} {calls : InvocationSteps}
    (inner : ∀ use target context args (st : State),
      Chain st.heap (calls use target context args st)
        ((invoke use target context args).run st).2.heap)
    {α : Type} (p : Program α) (st : State) :
    Chain st.heap (p.stepsBy invoke calls st) ((p.run invoke).run st).2.heap := by
  induction p generalizing st with
  | done a => exact rfl
  | fail e => exact rfl
  | perform c next ih => exact ⟨rfl, ih _ _⟩
  | update t revise next ihr ih => exact (SlotId.chain_update t ihr st).append (ih _ _)
  | block s body next ihb ih => exact (StackId.chain_block s ihb st).append (ih _ _)
  | invoke use target context args next ih =>
    exact (inner use target context args st).append (ih _ _)

theorem chain_invokeWithin (nesting : Nat) (use : Use) (target : Value) (context : ContextId)
    (args : ArgumentsId) (st : State) :
    Chain st.heap (stepsWithin nesting use target context args st)
      ((invokeWithin nesting use target context args).run st).2.heap := by
  induction nesting generalizing use target context args st with
  | zero => exact rfl
  | succ nesting ih =>
    simp only [stepsWithin, invokeWithin]
    cases target.body? use with
    | none => exact congrArg State.heap ((target.built_refuse use).unchanged st)
    | some body =>
      have inner := (body context args).chainBy ih st
      simp only
      rw [Program.finishing, run_bind]
      rcases hr : ((body context args).run (invokeWithin nesting)).run st with ⟨outcome, st'⟩
      rw [hr] at inner
      cases outcome with
      | error e =>
        simp only [List.append_nil]
        exact inner
      | ok v =>
        simp only
        rw [run_bind]
        have finish := Chain.one ⟨.finish args, st'⟩
        rcases hf : args.finish.run st' with ⟨_ | _, st''⟩ <;>
          rw [show (⟨.finish args, st'⟩ : Step).after = st'' from congrArg Prod.snd hf] at finish <;>
          exact inner.append finish

/-- The steps of a program lead from the heap in which it starts to the heap that it leaves. -/
theorem Program.chain {α : Type} (p : Program α) (st : State) :
    Chain st.heap (p.steps st) (p.toAction.run st).2.heap :=
  p.chainBy (fun use target context args st =>
    chain_invokeWithin (st.heap.nestingBound context args) use target context args st) st

end LexEnv
