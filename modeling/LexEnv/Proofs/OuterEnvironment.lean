import LexEnv.Proofs.Nesting
import LexEnv.Proofs.Resolution
import Mathlib.Control.Monad.Basic

/-!
# The outer environment comes back

An excursion of a stack enters a scope, stays deeper than before, and ends by leaving that scope. It
brings the outer environment back: the stack has the scopes it had, and each of them binds what it
bound. Bindings are restored, contents are not: a slot holds what was last written to it.

What carries the proof is that the outer stack lies beneath the present one all the time
(`Stack.Beneath`). Definitions through the stack go to its active scope, which in a reachable state
is none of those beneath it, and definitions through other stacks go to scopes of these
(`Heap.WellFormed`). Main statement: `State.Excursion.restores`.
-/

namespace LexEnv

/-! ## Sparing the outer scopes -/

/-- An event defines nothing in the scopes of a stack directly, nor in its base through another
stack. -/
def Event.Spares (s : StackId) (outer : Stack) : Event → Prop
  | .bound none c _ _ _ => c ∉ outer.chain
  | .bound (some s') c _ _ _ => s' = s ∨ outer.base ≠ some c
  | _ => True

instance (s : StackId) (outer : Stack) : (e : Event) → Decidable (e.Spares s outer)
  | .bound none c _ _ _ => inferInstanceAs (Decidable (c ∉ outer.chain))
  | .bound (some s') c _ _ _ => inferInstanceAs (Decidable (s' = s ∨ outer.base ≠ some c))
  | .created .. | .wrote .. | .opened .. | .copied .. | .founded .. | .entered .. | .exited .. =>
    .isTrue trivial

namespace Heap

/-- The outer stack lies beneath the present one, and its scopes bind what they bound. -/
structure Covers (s : StackId) (outer : Stack) (bindings : ScopeId → Scope) (h : Heap) : Prop where
  wellFormed : h.WellFormed
  exist : s.index < h.scopeStacks.size
  beneath : outer.Beneath (h.stack s)
  bound : ∀ c ∈ outer.chain, h.scope c = bindings c

variable {s : StackId} {outer : Stack} {bindings : ScopeId → Scope} {h : Heap}

/-- The scopes of a stack that lies beneath are not the active scope. -/
theorem Covers.ne_active (covers : h.Covers s outer bindings) {c : ScopeId}
    (hc : c ∈ outer.chain) : c ≠ (h.stack s).active := by
  have sound := covers.wellFormed.sound s covers.exist
  rintro rfl
  rcases Stack.mem_chain.mp hc with own | base
  · exact sound.active_not_mem (covers.beneath.suffix.mem own)
  · exact sound.base_ne (Stack.active_mem_own _) (covers.beneath.base.trans base)

/-- The scopes of a stack that lies beneath exist. -/
theorem Covers.scope_exists (covers : h.Covers s outer bindings) {c : ScopeId}
    (hc : c ∈ outer.chain) : c.index < h.scopes.size := by
  refine (covers.wellFormed.sound s covers.exist).chain_exist (Stack.mem_chain.mpr ?_)
  rcases Stack.mem_chain.mp hc with own | base
  · exact Or.inl (List.mem_cons_of_mem _ (covers.beneath.suffix.mem own))
  · exact Or.inr (covers.beneath.base.trans base)

/-- A sparing event defines nothing in a stack that lies beneath. -/
theorem Covers.rebound?_eq_none (covers : h.Covers s outer bindings) {e : Event}
    (valid : e.Valid h) (grounded : e.Grounded h) (spares : e.Spares s outer) {c : ScopeId}
    (hc : c ∈ outer.chain) : e.rebound? c = none := by
  cases e with
  | bound via c' key t bindings =>
    refine if_neg ?_
    rintro rfl
    cases via with
    | none => exact spares hc
    | some s' =>
      have active : c' = (h.stack s').active := valid.1 s' rfl
      by_cases same : s' = s
      · subst same
        exact covers.ne_active hc active
      · rcases Stack.mem_chain.mp hc with own | base
        · have mine : c' ∈ (h.stack s).own :=
            List.mem_cons_of_mem _ (covers.beneath.suffix.mem own)
          exact covers.wellFormed.disjoint s' s (grounded.2 s' rfl) covers.exist same c'
            (active ▸ Stack.active_mem_own _) mine
        · exact spares.elim same fun ne => ne base
  | _ => rfl

/-- The scopes of a stack that lies beneath bind after a sparing event what they bound before. -/
theorem Covers.scope_act (covers : h.Covers s outer bindings) {e : Event}
    (valid : e.Valid h) (grounded : e.Grounded h) (spares : e.Spares s outer) {c : ScopeId}
    (hc : c ∈ outer.chain) : (e.act h).scope c = bindings c := by
  rw [e.scope_act (covers.scope_exists hc), covers.rebound?_eq_none valid grounded spares hc]
  exact covers.bound c hc

/-- A sparing event after which the stack is still deeper keeps the outer stack covered. -/
theorem Covers.act (covers : h.Covers s outer bindings) {e : Event} (valid : e.Valid h)
    (grounded : e.Grounded h) (spares : e.Spares s outer)
    (deep : outer.depth < ((e.act h).stack s).depth) :
    (e.act h).Covers s outer bindings where
  wellFormed := covers.wellFormed.act valid grounded
  exist := Nat.lt_of_lt_of_le covers.exist (e.scopeStacks_size_le h)
  beneath := Event.beneath_act covers.exist covers.beneath deep
  bound _ hc := covers.scope_act valid grounded spares hc

/-- Entering a scope covers the stack as it was. -/
theorem covers_entered (hwf : h.WellFormed) {passage : Passage}
    (valid : (Event.entered passage s).Valid h) :
    ((Event.entered passage s).act h).Covers s (h.stack s) h.scope := by
  have hs : s.index < h.scopeStacks.size := exists_of_enterable valid
  refine ⟨hwf.act valid trivial, Nat.lt_of_lt_of_le hs (Event.scopeStacks_size_le _ h), ?_,
    fun c hc => Event.scope_act _ ((hwf.sound s hs).chain_exist hc)⟩
  rw [Event.stack_act _ hs, Event.enters, decide_eq_true rfl, if_pos rfl]
  exact Stack.beneath_push _ _

/-- Leaving the only scope above a covered stack restores it. -/
theorem Covers.exited (covers : h.Covers s outer bindings) (passage : Passage)
    (back : (((Event.exited passage s).act h).stack s).depth = outer.depth) :
    ((Event.exited passage s).act h).stack s = outer ∧
      ∀ c ∈ outer.chain, ((Event.exited passage s).act h).scope c = bindings c := by
  have popped : ((Event.exited passage s).act h).stack s = (h.stack s).pop := by
    refine (Event.stack_act _ covers.exist).trans ?_
    simp [Event.enters, Event.exits]
  have deep : outer.depth + 1 ≤ (h.stack s).depth := covers.beneath.suffix.length_le
  rw [popped] at back ⊢
  refine ⟨covers.beneath.pop_eq ?_, covers.bound⟩
  rw [Stack.depth_pop] at back
  omega

end Heap

/-! ## Excursions -/

/-- A run that enters a scope of a stack, stays deeper than before until its last step, which leaves
the scope again, and defines nothing in the outer scopes or in the base other than through them. -/
structure State.Excursion (s : StackId) (st : State) (es : List Event) (st' : State) : Prop where
  run : st.Run es st'
  grounded : st.heap.Grounded es
  spares : ∀ e ∈ es, e.Spares s (st.heap.stack s)
  deep : ∃ passage mid passage', es = .entered passage s :: (mid ++ [.exited passage' s]) ∧
    ((Event.entered passage s).act st.heap).Along
      (fun h e => (st.heap.stack s).depth < ((e.act h).stack s).depth) mid
  back : (st'.heap.stack s).depth = (st.heap.stack s).depth

variable {s : StackId} {st st' : State} {es : List Event}

/-- An excursion ends with the stack and the bindings of its scopes as they were. -/
theorem State.Excursion.covered (excursion : st.Excursion s es st') (hwf : st.heap.WellFormed) :
    st'.heap.stack s = st.heap.stack s ∧
      ∀ c ∈ (st.heap.stack s).chain, st'.heap.scope c = st.heap.scope c := by
  obtain ⟨run, grounded, spares, ⟨passage, mid, passage', rfl, deep⟩, back⟩ := excursion
  obtain ⟨⟨enters, valid⟩, reached⟩ := run.evolves
  have sparing : ((Event.entered passage s).act st.heap).Along
      (fun _ e => e.Spares s (st.heap.stack s)) mid :=
    Heap.along_of_forall fun e he _ =>
      spares e (List.mem_cons_of_mem _ (List.mem_append_left _ he))
  have along := (Heap.along_append.mp valid).1.and
    ((Heap.along_append.mp grounded.2).1.and (sparing.and deep))
  -- The outer stack is covered from the first event to the last.
  have covers := along.invariant (I := fun h => h.Covers s (st.heap.stack s) st.heap.scope)
    (fun h e covers now => covers.act now.1 now.2.1 now.2.2.1 now.2.2.2)
    (Heap.covers_entered hwf enters)
  rw [Heap.after_cons, Heap.after_append] at reached
  rw [← Heap.stack_congr reached] at back ⊢
  obtain ⟨same, bound⟩ := covers.exited passage' back
  exact ⟨same, fun c hc => (Heap.scope_congr reached c).symm.trans (bound c hc)⟩

/-- After an excursion every name resolves to what it resolved to before, and the slot holds the
last value that the excursion wrote to it, or else its old value. -/
theorem State.Excursion.restores (excursion : st.Excursion s es st') (reach : st.Reachable) :
    st'.heap.stack s = st.heap.stack s ∧
    (∀ c ∈ (st.heap.stack s).chain, st'.heap.scope c = st.heap.scope c) ∧
    ∀ name : String, ∃ found, (s.lookup (.text name)).run st = (.ok found, st) ∧
      (s.lookup (.text name)).run st' = (.ok found, st') ∧
      ∀ t ∈ found,
        t.get.run st' = (.ok ((lastWritten t es).getD (st.heap.slot t).value), st') := by
  have hwf := reach.wellFormed
  obtain ⟨same, bound⟩ := excursion.covered hwf
  refine ⟨same, bound, fun name => ⟨st.heap.resolved s name, s.run_lookup_text name st, ?_, ?_⟩⟩
  · rw [s.run_lookup_text name st']
    rw [Heap.resolved_congr same bound name]
  · intro t found
    have slot := excursion.run.evolves.slot (hwf.resolved_exists found)
    show (Except.ok (st'.heap.slot t).value, st') = _
    rw [slot]

/-- Makes a stack over a base, with a name in either. -/
def layered : Program StackId := do
  let base ← .exec (.createScope .empty)
  .exec (.scopeDefineConst base (.text "pi") (.int 3))
  let s ← .exec (.createStack (some base) 3 none)
  .exec (.defineMut s (.text "x") (.int 1))
  return s

/-- Writes a variable in an inner scope, hides both names there and fails in a block before the
scope is left. -/
def shadowing (s : StackId) : Program Unit := do
  .exec (.enter s)
  .exec (.assign s (.text "x") (.int 2))
  .exec (.defineMut s (.text "x") (.int 4))
  .exec (.defineConst s (.text "pi") (.int 4))
  .block s (fun _ => .exec (.assign s (.text "pi") (.int 5))) fun _ => .exec (.exit s)

theorem State.Excursion.restores_shadowing :
    ∃ st es st', st = (layered.toAction.run .initial).2 ∧ es = (shadowing ⟨0⟩).events st ∧
      st' = ((shadowing ⟨0⟩).toAction.run st).2 ∧ st.Reachable ∧ st.Excursion ⟨0⟩ es st' ∧
      st'.heap.stack ⟨0⟩ = st.heap.stack ⟨0⟩ ∧
      (StackId.lookup ⟨0⟩ (.text "x")).run st' = (.ok (some ⟨1⟩), st') ∧
      (SlotId.get ⟨1⟩).run st' = (.ok (.int 2), st') := by
  obtain ⟨st, hst⟩ : ∃ st, st = (layered.toAction.run .initial).2 := ⟨_, rfl⟩
  obtain ⟨es, hes⟩ : ∃ es, es = (shadowing ⟨0⟩).events st := ⟨_, rfl⟩
  obtain ⟨st', hst'⟩ : ∃ st', st' = ((shadowing ⟨0⟩).toAction.run st).2 := ⟨_, rfl⟩
  have reach : st.Reachable := by
    rw [hst]
    exact ⟨_, .one .initial layered, by decide +kernel⟩
  have excursion : st.Excursion ⟨0⟩ es st' := by
    refine ⟨hes ▸ hst' ▸ .one st (shadowing ⟨0⟩), ?_, ?_, ⟨.bare, es.tail.dropLast, .bare, ?_⟩, ?_⟩
    all_goals
      simp only [hst', hes, hst]
      decide +kernel
  have first : st.heap.resolved ⟨0⟩ "x" = some ⟨1⟩ := by
    rw [hst]
    decide +kernel
  have last : (lastWritten ⟨1⟩ es).getD (st.heap.slot ⟨1⟩).value = .int 2 := by
    rw [hes, hst]
    decide +kernel
  obtain ⟨same, -, resolves⟩ := excursion.restores reach
  obtain ⟨found, before, after', held⟩ := resolves "x"
  rw [StackId.run_lookup_text, first] at before
  cases before
  exact ⟨st, es, st', hst, hes, hst', reach, excursion, same, after', last ▸ held ⟨1⟩ rfl⟩

end LexEnv
