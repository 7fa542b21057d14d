import LexEnv.Proofs.Steps

/-!
# Runs as lists of deeds

Steps (`Steps.lean`) are the commands of a run, and a refused update is no step, since it changes no
slot, scope or stack. It leaves a record, however. The deeds of a program are its steps together with
the updates that are refused, in the order in which all of them happen. What cannot be invoked is no
deed: refusing it leaves everything as it is, the trace included (`Action.Built.unchanged`).

Each deed starts in the very state that the one before it left, trace included, and the last one
leaves the state of the whole run (`Program.deeds_chain`).
-/

namespace LexEnv

open LexEnv.Action

/-! ## Deeds -/

/-- The error of an outcome, if it is one. -/
def failure? {α : Type} : Except Error α → Option Error
  | .ok _ => none
  | .error e => some e

theorem failure?_eq_some {α : Type} {r : Except Error α} {e : Error} :
    failure? r = some e ↔ r = .error e := by
  cases r <;> simp [failure?]

/-- A step, or an update that its slot refuses. -/
inductive Deed where
  | step (s : Step)
  | refusal (t : SlotId) (before : State)

namespace Deed

/-- The state in which a deed is done. -/
def before : Deed → State
  | step s => s.before
  | refusal _ st => st

/-- How a refused update ends; its function does not come into it. -/
def refused (t : SlotId) (st : State) : Except Error Value × State :=
  (t.update fun _ => fail .endless).run st

/-- The state that a deed leaves. -/
def after : Deed → State
  | step s => s.after
  | refusal t st => (refused t st).2

/-- The error with which a deed fails, if it does. -/
def error? : Deed → Option Error
  | step s => failure? s.answer
  | refusal t st => failure? (refused t st).1

end Deed

/-! ## Chains of deeds -/

namespace Deeds

/-- Deeds from one state to another: each starts in the state that the one before it left. -/
def Chain : State → List Deed → State → Prop
  | st, [], st' => st' = st
  | st, d :: ds, st' => d.before = st ∧ Chain d.after ds st'

variable {st st' st'' : State} {ds es : List Deed} {d : Deed}

theorem chain_cons : Chain st (d :: ds) st' ↔ d.before = st ∧ Chain d.after ds st' := Iff.rfl

theorem chain_append : Chain st (ds ++ es) st'' ↔ ∃ st', Chain st ds st' ∧ Chain st' es st'' := by
  induction ds generalizing st with
  | nil =>
    constructor
    · intro chain
      exact ⟨st, rfl, chain⟩
    · rintro ⟨st', rfl, chain⟩
      exact chain
  | cons d ds ih =>
    rw [List.cons_append, chain_cons, ih]
    constructor
    · rintro ⟨start, st', first, second⟩
      exact ⟨st', ⟨start, first⟩, second⟩
    · rintro ⟨st', ⟨start, first⟩, second⟩
      exact ⟨start, st', first, second⟩

theorem Chain.append (first : Chain st ds st') (second : Chain st' es st'') :
    Chain st (ds ++ es) st'' := chain_append.mpr ⟨st', first, second⟩

/-- A single deed. -/
theorem Chain.one (d : Deed) : Chain d.before [d] d.after := ⟨rfl, rfl⟩

end Deeds

open Deeds

/-! ## Deeds of programs -/

/-- The deeds of an update: those of the function that revises the value and the write of its result,
or the refusal. -/
def SlotId.updateDeeds (t : SlotId) (revise : Value → Action Value)
    (during : Value → State → List Deed) (st : State) : List Deed :=
  match (st.heap.slot t).kind with
  | .mutable =>
    let old := (st.heap.slot t).value
    let ended := (revise old).run st
    during old st ++
      match ended.1 with
      | .ok new => [.step ⟨.setSlotDirectly t new, ended.2⟩]
      | .error _ => []
  | _ => [.refusal t st]

/-- The deeds of a block: the entering, and if that succeeds, those of the body and the leaving. -/
def StackId.blockDeeds {α : Type} (s : StackId) (body : ScopeId → Action α)
    (during : ScopeId → State → List Deed) (st : State) : List Deed :=
  .step ⟨.enter s, st⟩ ::
    match s.enter.run st with
    | (.error _, _) => []
    | (.ok _, st') =>
      let top := (st'.heap.stack s).active
      during top st' ++ [.step ⟨.exit s, ((body top).run st').2⟩]

/-- The deeds of invocations. -/
abbrev InvocationDeeds := Use → Value → ContextId → ArgumentsId → State → List Deed

/-- The deeds of a program, for a meaning of invocations and their deeds. -/
def Program.deedsBy (invoke : Invocation) (calls : InvocationDeeds) :
    {α : Type} → Program α → State → List Deed
  | _, .done _, _ => []
  | _, .fail _, _ => []
  | _, .perform c next, st =>
    let ended := c.run.run st
    .step ⟨c, st⟩ :: (next ended.1).deedsBy invoke calls ended.2
  | _, .update t revise next, st =>
    let revised := fun v => (revise v).run invoke
    let ended := (t.update revised).run st
    t.updateDeeds revised (fun v => (revise v).deedsBy invoke calls) st
      ++ (next ended.1).deedsBy invoke calls ended.2
  | _, .block s body next, st =>
    let inside := fun top => (body top).run invoke
    let ended := (s.block inside).run st
    s.blockDeeds inside (fun top => (body top).deedsBy invoke calls) st
      ++ (next ended.1).deedsBy invoke calls ended.2
  | _, .invoke use target context args next, st =>
    let ended := (invoke use target context args).run st
    calls use target context args st ++ (next ended.1).deedsBy invoke calls ended.2

/-- The deeds of an invocation with at most so many invocations inside each other: those of the body,
and the report of unread arguments if the body succeeds. -/
def deedsWithin : (nesting : Nat) → InvocationDeeds
  | 0 => fun _ _ _ _ _ => []
  | nesting + 1 => fun use target context args st =>
    match target.body? use with
    | some body =>
      let ended := ((body context args).run (invokeWithin nesting)).run st
      (body context args).deedsBy (invokeWithin nesting) (deedsWithin nesting) st ++
        match ended.1 with
        | .ok _ => [.step ⟨.finish args, ended.2⟩]
        | .error _ => []
    | none => []

/-- The deeds of an invocation. -/
def invokeDeeds : InvocationDeeds := fun use target context args st =>
  deedsWithin (st.heap.nestingBound context args) use target context args st

/-- What a program does, and what is refused to it, in order. -/
def Program.deeds {α : Type} (p : Program α) (st : State) : List Deed :=
  p.deedsBy LexEnv.invoke invokeDeeds st

/-! ## The deeds of a program lead to where it leads -/

/-- A refused update changes nothing but the trace. -/
theorem Deed.heap_refused (t : SlotId) (st : State) : (refused t st).2.heap = st.heap := by
  unfold refused
  cases hk : (st.heap.slot t).kind with
  | mutable =>
    rw [SlotId.run_update_mutable hk]
    rfl
  | constant =>
    rw [SlotId.run_update_constant hk]
    exact heap_run_recordShown _ _ st
  | bare => rw [SlotId.run_update_bare hk]

/-- An update whose slot refuses it ends like any other such update. -/
theorem Deed.refused_eq {t : SlotId} {st : State} (hk : (st.heap.slot t).kind ≠ .mutable)
    (revise : Value → Action Value) : (t.update revise).run st = refused t st := by
  unfold refused
  cases kind : (st.heap.slot t).kind with
  | mutable => exact absurd kind hk
  | constant => rw [SlotId.run_update_constant kind, SlotId.run_update_constant kind]
  | bare => rw [SlotId.run_update_bare kind, SlotId.run_update_bare kind]

/-- A slot that can be written can be written after any deeds. -/
theorem Deeds.Chain.mutable {t : SlotId} {st st' : State} {ds : List Deed} (chain : Chain st ds st')
    (hk : (st.heap.slot t).kind = .mutable) : (st'.heap.slot t).kind = .mutable := by
  induction ds generalizing st with
  | nil => rwa [show st' = st from chain]
  | cons d ds ih =>
    obtain ⟨rfl, rest⟩ := chain
    refine ih rest ?_
    cases d with
    | step s => exact (s.evolves.kind_slot (Heap.exists_of_mutable hk)).trans hk
    | refusal t' st =>
      show ((Deed.refused t' st).2.heap.slot t).kind = .mutable
      rw [Deed.heap_refused]
      exact hk

namespace SlotId

theorem chain_updateDeeds (t : SlotId) {revise : Value → Action Value}
    {during : Value → State → List Deed}
    (inner : ∀ v (st : State), Chain st (during v st) ((revise v).run st).2) (st : State) :
    Chain st (t.updateDeeds revise during st) ((t.update revise).run st).2 := by
  unfold updateDeeds
  cases hk : (st.heap.slot t).kind with
  | mutable =>
    simp only
    rw [run_update_mutable hk, run_bind]
    have revised := inner (st.heap.slot t).value st
    rcases hr : (revise (st.heap.slot t).value).run st with ⟨outcome, st'⟩
    rw [hr] at revised
    cases outcome with
    | error e =>
      simp only [List.append_nil]
      exact revised
    | ok new =>
      have write := Chain.one (.step ⟨.setSlotDirectly t new, st'⟩)
      -- The function may have done anything, but the slot can still be written.
      have stored : (Deed.step ⟨.setSlotDirectly t new, st'⟩).after = ((t.store new).run st').2 :=
        congrArg Prod.snd (run_setDirectly_mutable (revised.mutable hk) new)
      rw [stored] at write
      exact revised.append write
  | constant =>
    rw [Deed.refused_eq (by rw [hk]; nofun)]
    exact Chain.one (.refusal t st)
  | bare =>
    rw [Deed.refused_eq (by rw [hk]; nofun)]
    exact Chain.one (.refusal t st)

end SlotId

theorem StackId.chain_blockDeeds {α : Type} (s : StackId) {body : ScopeId → Action α}
    {during : ScopeId → State → List Deed}
    (inner : ∀ c (st : State), Chain st (during c st) ((body c).run st).2) (st : State) :
    Chain st (s.blockDeeds body during st) ((s.block body).run st).2 := by
  unfold blockDeeds
  rcases he : s.enter.run st with ⟨_ | _, st'⟩
  all_goals have entered : (Deed.step ⟨.enter s, st⟩).after = st' := congrArg Prod.snd he
  · rw [run_block_of_error he]
    exact ⟨rfl, entered.symm⟩
  · rw [run_block_of_ok he]
    refine ⟨rfl, ?_⟩
    rw [entered]
    exact (inner _ st').append (Chain.one (.step ⟨.exit s, _⟩))

theorem Program.chain_deedsBy {invoke : Invocation} {calls : InvocationDeeds}
    (inner : ∀ use target context args (st : State),
      Chain st (calls use target context args st) ((invoke use target context args).run st).2)
    {α : Type} (p : Program α) (st : State) :
    Chain st (p.deedsBy invoke calls st) ((p.run invoke).run st).2 := by
  induction p generalizing st with
  | done a => exact rfl
  | fail e => exact rfl
  | perform c next ih => exact ⟨rfl, ih _ _⟩
  | update t revise next ihr ih => exact (SlotId.chain_updateDeeds t ihr st).append (ih _ _)
  | block s body next ihb ih => exact (StackId.chain_blockDeeds s ihb st).append (ih _ _)
  | invoke use target context args next ih =>
    exact (inner use target context args st).append (ih _ _)

theorem chain_deedsWithin (nesting : Nat) (use : Use) (target : Value) (context : ContextId)
    (args : ArgumentsId) (st : State) :
    Chain st (deedsWithin nesting use target context args st)
      ((invokeWithin nesting use target context args).run st).2 := by
  induction nesting generalizing use target context args st with
  | zero => exact rfl
  | succ nesting ih =>
    simp only [deedsWithin, invokeWithin]
    cases target.body? use with
    | none => exact (target.built_refuse use).unchanged st
    | some body =>
      have inner := (body context args).chain_deedsBy ih st
      simp only
      rw [Program.finishing, run_bind]
      rcases hr : ((body context args).run (invokeWithin nesting)).run st with ⟨outcome, st'⟩
      rw [hr] at inner
      cases outcome with
      | error e =>
        simp only [List.append_nil]
        exact inner
      | ok v =>
        simp only
        rw [run_bind]
        have finish := Chain.one (.step ⟨.finish args, st'⟩)
        rcases hf : args.finish.run st' with ⟨_ | _, st''⟩ <;>
          rw [show (Deed.step ⟨.finish args, st'⟩).after = st'' from congrArg Prod.snd hf]
            at finish <;>
          exact inner.append finish

/-- The deeds of a program lead from the state in which it starts to the state that it leaves. -/
theorem Program.deeds_chain {α : Type} (p : Program α) (st : State) :
    Chain st (p.deeds st) (p.toAction.run st).2 :=
  p.chain_deedsBy (fun use target context args st =>
    chain_deedsWithin (st.heap.nestingBound context args) use target context args st) st

end LexEnv
