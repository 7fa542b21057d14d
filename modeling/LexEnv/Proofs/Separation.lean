import LexEnv.Proofs.Run

/-!
# Separation of scopes

In a reachable state no two stacks share a scope that they made, and the scopes of one stack are
pairwise different: each was new when it was entered, and the later it was entered the later it was
made. A base was there before all scopes of the stacks over it. So a definition through a stack,
which goes to its active scope, touches no suspended scope, no base and no scope of another stack.

`Heap.WellFormed` is the invariant; every grounded event keeps it (`WellFormed.act`), and so every
reachable state has it (`State.Reachable.wellFormed`).
-/

namespace LexEnv

/-! ## One stack -/

namespace Stack

/-- A stack among so many scopes: its scopes exist, inner ones are newer than outer ones, and the
base is older than all of them. -/
structure Sound (scopes : Nat) (st : Stack) : Prop where
  exist : ∀ c ∈ st.own, c.index < scopes
  descending : st.own.Pairwise fun c d => d.index < c.index
  aboveBase : ∀ b, st.base = some b → ∀ c ∈ st.own, b.index < c.index

variable {st : Stack} {n : Nat}

theorem active_mem_own (st : Stack) : st.active ∈ st.own := List.mem_cons_self

theorem Sound.mono (h : st.Sound n) {m : Nat} (le : n ≤ m) : st.Sound m :=
  ⟨fun c hc => Nat.lt_of_lt_of_le (h.exist c hc) le, h.descending, h.aboveBase⟩

theorem Sound.push (h : st.Sound n) : (st.push ⟨n⟩).Sound (n + 1) where
  exist c hc := by
    rcases List.mem_cons.mp hc with rfl | old
    · exact Nat.lt_succ_self n
    · exact Nat.lt_succ_of_lt (h.exist c old)
  descending := List.pairwise_cons.mpr ⟨fun c hc => h.exist c hc, h.descending⟩
  aboveBase b hb c hc := by
    have below := h.aboveBase b hb
    rcases List.mem_cons.mp hc with rfl | old
    · exact Nat.lt_trans (below _ st.active_mem_own) (h.exist _ st.active_mem_own)
    · exact below c old

theorem Sound.pop (h : st.Sound n) (ne : st.suspended ≠ []) : st.pop.Sound n := by
  have fewer : ∀ c ∈ st.pop.own, c ∈ st.own := by
    rw [own_pop ne]
    exact fun c hc => List.mem_cons_of_mem _ hc
  refine ⟨fun c hc => h.exist c (fewer c hc), ?_, fun b hb c hc => ?_⟩
  · rw [own_pop ne]
    exact (List.pairwise_cons.mp h.descending).2
  · exact h.aboveBase b (by rwa [base_pop] at hb) c (fewer c hc)

/-- A new stack over a base that exists. -/
theorem Sound.founded {base : Option ScopeId} (hb : ∀ b, base = some b → b.index < n)
    (maxDepth : Int) (memoryLimit : Option Int) :
    (Stack.mk ⟨n⟩ [] base maxDepth memoryLimit).Sound (n + 1) where
  exist c hc := by
    cases List.mem_singleton.mp hc
    exact Nat.lt_succ_self n
  descending := List.pairwise_singleton _ _
  aboveBase b h c hc := by
    cases List.mem_singleton.mp hc
    exact hb b h

/-- The active scope of a sound stack is none of the suspended ones. -/
theorem Sound.active_not_mem (h : st.Sound n) : st.active ∉ st.suspended := fun mem =>
  Nat.lt_irrefl _ ((List.pairwise_cons.mp h.descending).1 _ mem)

/-- The base of a sound stack is none of its own scopes. -/
theorem Sound.base_ne (h : st.Sound n) {c : ScopeId} (hc : c ∈ st.own) : st.base ≠ some c :=
  fun hb => Nat.lt_irrefl _ (h.aboveBase c hb c hc)

/-- All scopes that a sound stack resolves names in exist. -/
theorem Sound.chain_exist (h : st.Sound n) {c : ScopeId} (hc : c ∈ st.chain) : c.index < n := by
  rcases mem_chain.mp hc with own | base
  · exact h.exist c own
  · exact Nat.lt_trans (h.aboveBase c base _ st.active_mem_own) (h.exist _ st.active_mem_own)

end Stack

/-! ## All stacks -/

namespace Heap

/-- The slots that are bound exist, and stacks are sound and share no scope of their own. -/
structure WellFormed (h : Heap) : Prop where
  slots : ∀ c, ∀ e ∈ (h.scope c).entries, e.2.index < h.slots.size
  sound : ∀ s : StackId, s.index < h.scopeStacks.size → (h.stack s).Sound h.scopes.size
  disjoint : ∀ s t : StackId, s.index < h.scopeStacks.size → t.index < h.scopeStacks.size →
    s ≠ t → ∀ c ∈ (h.stack s).own, c ∉ (h.stack t).own

theorem wellFormed_empty : empty.WellFormed where
  slots c e he := by
    have none : empty.scope c = .empty := by simp [scope, empty, default]
    rw [none] at he
    cases he
  sound s hs := absurd hs (Nat.not_lt_zero _)
  disjoint s t hs := absurd hs (Nat.not_lt_zero _)

theorem WellFormed.congr {h h' : Heap} (hwf : h.WellFormed)
    (same : h.environment = h'.environment) : h'.WellFormed where
  slots c e he := by
    rw [← slots_congr same]
    exact hwf.slots c e (by rwa [scope_congr same])
  sound s hs := by
    rw [← stack_congr same, ← scopes_congr same]
    exact hwf.sound s (by rwa [scopeStacks_congr same])
  disjoint s t hs ht ne := by
    rw [← stack_congr same, ← stack_congr same]
    exact hwf.disjoint s t (by rwa [scopeStacks_congr same]) (by rwa [scopeStacks_congr same]) ne

theorem scope_of_size_le {h : Heap} {c : ScopeId} (out : h.scopes.size ≤ c.index) :
    h.scope c = .empty := by
  simp [scope, Array.getElem?_eq_none out, default]

namespace WellFormed

variable {h : Heap} {e : Event}

/-- Every scope after an event binds slots that were bound before, or a slot that the event
names. -/
theorem slots_act (hwf : h.WellFormed) (valid : e.Valid h) (grounded : e.Grounded h)
    (c : ScopeId) {x : Key × SlotId} (hx : x ∈ ((e.act h).scope c).entries) :
    x.2.index < h.slots.size := by
  by_cases hc : c.index < h.scopes.size
  · rw [e.scope_act hc] at hx
    cases e with
    | bound via c' key t bindings =>
      by_cases same : c' = c
      · rw [Event.rebound?, if_pos same] at hx
        rcases valid.2.1 x hx with eq | ⟨k, old⟩
        · rw [eq]
          exact grounded.1
        · exact hwf.slots c' (k, x.2) old
      · rw [Event.rebound?, if_neg same] at hx
        exact hwf.slots c x hx
    | _ => exact hwf.slots c x hx
  · have out : h.scopes.size ≤ c.index := Nat.le_of_not_lt hc
    -- A scope that was not there is the one that the event made, or is still not there.
    have added : ∀ y : Scope, x ∈ ((h.addScope y).2.scope c).entries → x ∈ y.entries := by
      intro y hy
      by_cases last : c.index = h.scopes.size
      · rwa [scope_addScope_new h y last] at hy
      · rw [scope_of_size_le (h := (h.addScope y).2)
          (by simp only [addScope, Array.size_push]; omega)] at hy
        cases hy
    have absent : h.scope c = .empty := scope_of_size_le out
    cases e with
    | opened c' bindings => exact grounded x (added bindings hx)
    | copied c' copy => exact hwf.slots c' x (added _ hx)
    | founded s base maxDepth memoryLimit => exact absurd (added .empty hx) List.not_mem_nil
    | entered passage s => exact absurd (added .empty hx) List.not_mem_nil
    | bound via c' key t bindings =>
      have still : (h.setScope c' bindings).scope c = .empty :=
        scope_of_size_le (by rwa [size_scopes_setScope])
      exact absurd (still ▸ hx) List.not_mem_nil
    | _ => exact absurd (absent ▸ hx) List.not_mem_nil

/-- A stack after an event is one that was there before, perhaps with one scope more or less, or
the one that the event founded. -/
theorem stack_cases (valid : e.Valid h) {s : StackId}
    (hs : s.index < (e.act h).scopeStacks.size) :
    (s.index < h.scopeStacks.size ∧
      ((e.act h).stack s = h.stack s ∨
        (e.act h).stack s = (h.stack s).push ⟨h.scopes.size⟩ ∧
          (e.act h).scopes.size = h.scopes.size + 1 ∧ e.enters s = true ∨
        (e.act h).stack s = (h.stack s).pop ∧ (h.stack s).suspended ≠ [])) ∨
    ∃ base maxDepth memoryLimit, e = .founded s base maxDepth memoryLimit ∧
      (e.act h).stack s = ⟨⟨h.scopes.size⟩, [], base, maxDepth, memoryLimit⟩ ∧
      (e.act h).scopes.size = h.scopes.size + 1 := by
  by_cases old : s.index < h.scopeStacks.size
  · refine Or.inl ⟨old, ?_⟩
    rw [e.stack_act old]
    cases e with
    | entered passage s' =>
      by_cases same : s' = s
      · exact Or.inr (Or.inl (by simp [Event.enters, same, Event.act, addScope, setStack]))
      · exact Or.inl (by simp [Event.enters, Event.exits, same])
    | exited passage s' =>
      by_cases same : s' = s
      · subst same
        exact Or.inr (Or.inr ⟨by simp [Event.enters, Event.exits], valid⟩)
      · exact Or.inl (by simp [Event.enters, Event.exits, same])
    | _ => exact Or.inl rfl
  · cases e with
    | founded s' base maxDepth memoryLimit =>
      have size : s.index < h.scopeStacks.size + 1 := by
        simpa [Event.act, addScope, addStack] using hs
      have new : s'.index = h.scopeStacks.size := valid
      have eq : s = s' := StackId.ext (by omega)
      subst eq
      refine Or.inr ⟨base, maxDepth, memoryLimit, rfl, ?_, ?_⟩
      · exact stack_addStack_new (h.addScope .empty).2 _ new
      · simp [Event.act, addScope, addStack]
    | _ =>
      refine absurd ?_ old
      simpa [Event.act, addSlot, setSlot, addScope, setScope, setStack] using hs

/-- The scopes of a stack after an event are scopes that it had, or the newest one. -/
theorem own_act (valid : e.Valid h) {s : StackId}
    (hs : s.index < (e.act h).scopeStacks.size) {c : ScopeId}
    (hc : c ∈ ((e.act h).stack s).own) :
    (s.index < h.scopeStacks.size ∧ c ∈ (h.stack s).own) ∨
    (c = ⟨h.scopes.size⟩ ∧ (e.enters s = true ∨
      ∃ base maxDepth memoryLimit, e = .founded s base maxDepth memoryLimit)) := by
  rcases stack_cases valid hs with ⟨old, same | ⟨pushed, -, enters⟩ | ⟨popped, ne⟩⟩ |
    ⟨base, maxDepth, memoryLimit, rfl, founded, -⟩
  · exact Or.inl ⟨old, by rwa [same] at hc⟩
  · rw [pushed] at hc
    rcases List.mem_cons.mp hc with rfl | mem
    · exact Or.inr ⟨rfl, Or.inl enters⟩
    · exact Or.inl ⟨old, mem⟩
  · rw [popped, Stack.own_pop ne] at hc
    exact Or.inl ⟨old, List.mem_cons_of_mem _ hc⟩
  · rw [founded] at hc
    exact Or.inr ⟨List.mem_singleton.mp hc, Or.inr ⟨base, maxDepth, memoryLimit, rfl⟩⟩

/-- Every grounded event keeps a heap well-formed. -/
theorem act (hwf : h.WellFormed) (valid : e.Valid h) (grounded : e.Grounded h) :
    (e.act h).WellFormed where
  slots c x hx :=
    Nat.lt_of_lt_of_le (hwf.slots_act valid grounded c hx) (e.slots_size_le h)
  sound s hs := by
    rcases stack_cases valid hs with ⟨old, same | ⟨pushed, size, -⟩ | ⟨popped, ne⟩⟩ |
      ⟨base, maxDepth, memoryLimit, rfl, founded, size⟩
    · rw [same]
      exact (hwf.sound s old).mono (e.scopes_size_le h)
    · rw [pushed, size]
      exact (hwf.sound s old).push
    · rw [popped]
      exact ((hwf.sound s old).pop ne).mono (e.scopes_size_le h)
    · rw [founded, size]
      exact Stack.Sound.founded grounded maxDepth memoryLimit
  disjoint s t hs ht ne c hc hd := by
    -- Only one stack gets the newest scope, and no other one had it before.
    have fresh : ∀ u : StackId, u.index < h.scopeStacks.size →
        (⟨h.scopes.size⟩ : ScopeId) ∉ (h.stack u).own := fun u hu mem =>
      Nat.lt_irrefl _ ((hwf.sound u hu).exist _ mem)
    have one : ∀ u v : StackId, u ≠ v →
        (e.enters u = true ∨ ∃ base maxDepth memoryLimit, e = .founded u base maxDepth memoryLimit) →
        ¬ (e.enters v = true ∨
          ∃ base maxDepth memoryLimit, e = .founded v base maxDepth memoryLimit) := by
      intro u v neq hu hv
      rcases hu with hu | ⟨b, m, l, rfl⟩
      · cases e with
        | entered passage s' =>
          rcases hv with hv | ⟨_, _, _, hv⟩
          · simp only [Event.enters, decide_eq_true_eq] at hu hv
            exact neq (hu.symm.trans hv)
          · cases hv
        | _ => cases hu
      · rcases hv with hv | ⟨_, _, _, hv⟩
        · cases hv
        · exact neq (by injection hv)
    rcases own_act valid hs hc with ⟨olds, mems⟩ | ⟨rfl, news⟩
    · rcases own_act valid ht hd with ⟨oldt, memt⟩ | ⟨rfl, -⟩
      · exact hwf.disjoint s t olds oldt ne c mems memt
      · exact fresh s olds mems
    · rcases own_act valid ht hd with ⟨oldt, memt⟩ | ⟨-, newt⟩
      · exact fresh t oldt memt
      · exact one s t ne news newt

/-- A grounded run keeps a heap well-formed. -/
theorem after (hwf : h.WellFormed) {es : List Event} (valid : h.Along (fun h e => e.Valid h) es)
    (grounded : h.Grounded es) : (h.after es).WellFormed :=
  (valid.and grounded).invariant (fun _ _ hwf both => hwf.act both.1 both.2) hwf

end WellFormed

end Heap

/-- Every reachable state is well-formed. -/
theorem State.Reachable.wellFormed {st : State} (reach : st.Reachable) : st.heap.WellFormed := by
  obtain ⟨es, past, grounded⟩ := reach
  have run := past.evolves
  exact (Heap.wellFormed_empty.after run.valid grounded).congr run.reached

end LexEnv
