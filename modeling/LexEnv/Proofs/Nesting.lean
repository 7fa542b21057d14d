import LexEnv.Proofs.Run

/-!
# Nesting

How a stack goes deeper and comes back. The depth is accounted for by events: each entering counts
one, each leaving counts one back (`Heap.depth_after`). While a stack stays deeper than it was at
some moment, all scopes that it had then lie untouched beneath the newer ones (`Stack.Beneath`), so
the leaving that brings the depth back restores the very stack of that moment.
-/

namespace LexEnv

/-! ## What lies beneath -/

namespace Stack

/-- The scopes of one stack lie, all of them and in order, beneath the active scope of another; the
base and the limits of both are the same. -/
structure Beneath (outer st : Stack) : Prop where
  suffix : outer.own <:+ st.suspended
  base : st.base = outer.base
  maxDepth : st.maxDepth = outer.maxDepth
  memoryLimit : st.memoryLimit = outer.memoryLimit

variable {outer st : Stack}

theorem beneath_push (st : Stack) (c : ScopeId) : st.Beneath (st.push c) :=
  ⟨List.suffix_refl _, rfl, rfl, rfl⟩

theorem Beneath.push (h : outer.Beneath st) (c : ScopeId) : outer.Beneath (st.push c) :=
  ⟨h.suffix.trans (List.suffix_cons _ _), h.base, h.maxDepth, h.memoryLimit⟩

/-- Leaving a scope that is still deeper than the outer stack keeps what lies beneath. -/
theorem Beneath.pop (h : outer.Beneath st) (deep : outer.depth < st.pop.depth) :
    outer.Beneath st.pop := by
  cases hs : st.suspended with
  | nil =>
    have shallow : st.depth = 0 := congrArg List.length hs
    rw [depth_pop, shallow] at deep
    exact absurd deep (Nat.not_lt_zero _)
  | cons c rest =>
    have suffix := h.suffix
    rw [hs, List.suffix_cons_iff] at suffix
    rw [pop_of_cons hs] at deep ⊢
    refine ⟨suffix.resolve_left fun eq => ?_, h.base, h.maxDepth, h.memoryLimit⟩
    -- A stack with all of them suspended is deeper than the outer stack by one only.
    have : outer.own.length = outer.depth + 1 := rfl
    rw [eq] at this
    exact absurd deep (by simp only [depth, List.length_cons] at this ⊢; omega)

/-- Leaving the one scope that is not beneath gives the outer stack back. -/
theorem Beneath.pop_eq (h : outer.Beneath st) (deep : st.depth = outer.depth + 1) :
    st.pop = outer := by
  have eq : outer.own = st.suspended := h.suffix.eq_of_length deep.symm
  rw [pop_of_cons eq.symm, h.base, h.maxDepth, h.memoryLimit]

end Stack

/-- An event that leaves a stack deeper than the outer stack keeps that one beneath. -/
theorem Event.beneath_act {outer : Stack} {s : StackId} {h : Heap} {e : Event}
    (hs : s.index < h.scopeStacks.size) (beneath : outer.Beneath (h.stack s))
    (deep : outer.depth < ((e.act h).stack s).depth) :
    outer.Beneath ((e.act h).stack s) := by
  rw [e.stack_act hs] at deep ⊢
  by_cases enters : e.enters s
  · rw [if_pos enters]
    exact beneath.push _
  · rw [if_neg enters] at deep ⊢
    by_cases exits : e.exits s
    · rw [if_pos exits] at deep ⊢
      exact beneath.pop deep
    · rw [if_neg exits]
      exact beneath

/-- While a stack stays deeper than the outer stack, that one stays beneath. -/
theorem Heap.beneath_after {outer : Stack} {s : StackId} {h : Heap} {es : List Event}
    (hs : s.index < h.scopeStacks.size) (beneath : outer.Beneath (h.stack s))
    (deep : h.Along (fun h e => outer.depth < ((e.act h).stack s).depth) es) :
    outer.Beneath ((h.after es).stack s) := by
  refine (deep.invariant (I := fun h =>
    s.index < h.scopeStacks.size ∧ outer.Beneath (h.stack s)) ?_ ⟨hs, beneath⟩).2
  rintro h e ⟨hs, beneath⟩ deep
  exact ⟨Nat.lt_of_lt_of_le hs (e.scopeStacks_size_le h), Event.beneath_act hs beneath deep⟩

/-! ## Accounting for the depth -/

/-- How many more scopes of a stack were entered than left. -/
def netEntered (s : StackId) (es : List Event) : Int :=
  es.countP (·.enters s) - es.countP (·.exits s)

namespace Event

variable {e : Event} {s : StackId} {h : Heap}

theorem exits_eq_false (enters : e.enters s = true) : e.exits s = false := by
  cases e with
  | entered passage s' => rfl
  | _ => cases enters

/-- A scope can be left only if there is a suspended one. -/
theorem depth_pos (valid : e.Valid h) (exits : e.exits s = true) : 0 < (h.stack s).depth := by
  cases e with
  | exited passage s' =>
    cases of_decide_eq_true exits
    exact List.length_pos_iff.mpr valid
  | _ => cases exits

theorem depth_act (hs : s.index < h.scopeStacks.size) (valid : e.Valid h) :
    (((e.act h).stack s).depth : Int) = (h.stack s).depth + netEntered s [e] := by
  rw [e.stack_act hs, netEntered, List.countP_singleton, List.countP_singleton]
  cases enters : e.enters s with
  | true =>
    rw [exits_eq_false enters, if_pos rfl, Stack.depth_push]
    rfl
  | false =>
    cases exits : e.exits s with
    | true =>
      have pos := depth_pos valid exits
      rw [if_neg Bool.false_ne_true, if_pos rfl, Stack.depth_pop]
      simp only [Bool.false_eq_true, if_false, if_true]
      omega
    | false => simp

end Event

theorem netEntered_cons (s : StackId) (e : Event) (es : List Event) :
    netEntered s (e :: es) = netEntered s [e] + netEntered s es := by
  unfold netEntered
  rw [← List.singleton_append, List.countP_append, List.countP_append]
  omega

namespace Heap

variable {h : Heap} {s : StackId} {es : List Event}

/-- The depth of a stack is what it was, and one more for each entering, one less for each
leaving. -/
theorem depth_after (hs : s.index < h.scopeStacks.size)
    (valid : h.Along (fun h e => e.Valid h) es) :
    (((h.after es).stack s).depth : Int) = (h.stack s).depth + netEntered s es := by
  induction es generalizing h with
  | nil => simp [netEntered]
  | cons e es ih =>
    have next := Nat.lt_of_lt_of_le hs (e.scopeStacks_size_le h)
    rw [after_cons, ih next valid.2, Event.depth_act hs valid.1, netEntered_cons s e es,
      Int.add_assoc]

/-- A stack that nothing enters or leaves stays as it is. -/
theorem stack_after_of_still (hs : s.index < h.scopeStacks.size)
    (still : ∀ e ∈ es, e.enters s = false ∧ e.exits s = false) :
    (h.after es).stack s = h.stack s := by
  induction es generalizing h with
  | nil => rfl
  | cons e es ih =>
    have first := still e List.mem_cons_self
    rw [after_cons, ih (Nat.lt_of_lt_of_le hs (e.scopeStacks_size_le h))
      fun e he => still e (List.mem_cons_of_mem _ he), e.stack_act hs, first.1, first.2]
    rfl

namespace Evolves

variable {h' : Heap}

theorem depth (run : h.Evolves es h') (hs : s.index < h.scopeStacks.size) :
    ((h'.stack s).depth : Int) = (h.stack s).depth + netEntered s es := by
  rw [← stack_congr run.reached]
  exact depth_after hs run.valid

theorem stack_of_still (run : h.Evolves es h') (hs : s.index < h.scopeStacks.size)
    (still : ∀ e ∈ es, e.enters s = false ∧ e.exits s = false) : h'.stack s = h.stack s := by
  rw [← stack_congr run.reached]
  exact stack_after_of_still hs still

end Evolves

end Heap

/-! ## Entering and leaving -/

namespace StackId

variable {s : StackId} {st st' : State}

theorem exists_of_enter (entered : s.enter.run st = (.ok (), st')) :
    s.index < st.heap.scopeStacks.size := by
  rw [run_enter] at entered
  cases may : (st.heap.stack s).mayEnter st.resident with
  | error e =>
    rw [may] at entered
    cases entered
  | ok u => exact Heap.exists_of_enterable (depth_lt_of_mayEnter may)

/-- Entering puts a new scope on the stack. -/
theorem stack_entered (entered : s.enter.run st = (.ok (), st')) :
    st'.heap.stack s = (st.heap.stack s).push ⟨st.heap.scopes.size⟩ := by
  have run := evolves_entered .bare entered
  rw [← Heap.stack_congr run.reached]
  have pushed := (Event.entered .bare s).stack_act (exists_of_enter entered)
  exact pushed.trans (by simp [Event.enters])

/-- Leaving takes the active scope off the stack, if there is another one. -/
theorem stack_exited (hs : s.index < st.heap.scopeStacks.size) :
    (s.exit.run st).2.heap.stack s = (st.heap.stack s).pop := by
  rw [run_exit]
  cases h : (st.heap.stack s).suspended with
  | nil =>
    unfold Stack.pop
    rw [h]
  | cons outer rest =>
    have left := (Event.exited .bare s).stack_act hs
    exact left.trans (by simp [Event.enters, Event.exits])

/-- Leaving fails exactly if there is no other scope. -/
theorem exit_eq_error (h : (st.heap.stack s).depth = 0) :
    (s.exit.run st).1 = .error .underflow := by
  rw [run_exit, List.length_eq_zero_iff.mp h]

theorem exit_eq_ok (h : 0 < (st.heap.stack s).depth) : (s.exit.run st).1 = .ok () := by
  rw [run_exit]
  cases hs : (st.heap.stack s).suspended with
  | nil => exact absurd h (by simp [Stack.depth, hs])
  | cons outer rest => rfl

end StackId

end LexEnv
