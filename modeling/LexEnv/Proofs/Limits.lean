import LexEnv.Proofs.Looking
import LexEnv.Proofs.Nesting
import LexEnv.Proofs.Rounding

/-!
# The limits of a stack

A stack is made with a greatest depth and perhaps a limit on the memory in use, and keeps both
(`Heap.limits_after`). At no moment of a run is a stack deeper than its greatest depth, since a scope
can be entered below it only (`Heap.along_withinLimit`). The memory in use is divided into megabytes
twice with rounding; for amounts of at most 53 bits both quotients are exact, so that the limit is a
matter of integers (`Stack.mayEnter_eq`).

Main statement: `State.Run.guarded`. Whether a scope can be entered is told by the depth and the
memory in use, and a refusal leaves everything as it is. A refusal names the limit, which fails if the
limit has too many digits: what is raised then is neither of depth nor of memory
(`long_limit_refuses`).
-/

namespace LexEnv

/-! ## The memory in use -/

namespace Stack

open LexEnv.Number

/-- An amount of memory of at most 53 bits is a number of megabytes without rounding. -/
theorem megabytes_exact {bytes : Int} (pos : 0 ≤ bytes) (small : bytes < 2 ^ 53) :
    ∃ x, megabytes bytes = .ok x ∧ x.HasValue ((bytes : ℚ) / 1048576) := by
  obtain ⟨n, rfl⟩ := Int.eq_ofNat_of_zero_le pos
  have bits : n < 2 ^ 53 := by exact_mod_cast small
  have unit : (Binary64.ofInt unitRatio).HasValue 1024 :=
    Binary64.ofInt_exact (n := 1024) (by decide)
  have kilobytes : (Binary64.roundRatio false n unitRatio).HasValue ((n : ℚ) / 1024) := by
    have fits : Binary64.Representable ((n : ℚ) / unitRatio) :=
      ⟨n, -10, bits, by decide, by decide, by rw [unitRatio]; norm_num; ring⟩
    have exact := Binary64.roundRatio_exact (by decide) fits false
    simpa [Binary64.factor, unitRatio] using exact
  have fits : Binary64.Representable |(n : ℚ) / 1024 / 1024| := by
    rw [abs_of_nonneg (by positivity)]
    exact ⟨n, -20, bits, by decide, by decide, by norm_num; ring⟩
  have sign : decide ((n : Int) < 0) = false := by simp
  refine ⟨(Binary64.roundRatio false n unitRatio).div (.ofInt unitRatio), ?_, ?_⟩
  · rw [megabytes, sign, Int.natAbs_natCast]
    exact if_neg (by simp [kilobytes.isInfinite_eq_false])
  · have exact := Binary64.div_exact kilobytes unit (by norm_num) fits
    rw [div_div] at exact
    norm_num at exact
    exact exact

/-- Whether a stack may be entered, for amounts of memory of at most 53 bits. -/
theorem mayEnter_eq (st : Stack) {resident : Int} (pos : 0 ≤ resident) (small : resident < 2 ^ 53) :
    st.mayEnter resident =
      if st.maxDepth ≤ st.depth then .error (refusal .depthLimit st.maxDepth)
      else
        match st.memoryLimit with
        | none => .ok ()
        | some limit =>
          if limit * 1048576 < resident then .error (refusal .memoryLimit limit) else .ok () := by
  obtain ⟨x, converted, value⟩ := megabytes_exact pos small
  have beyond : ∀ limit : Int, x.exceeds limit = true ↔ limit * 1048576 < resident := by
    intro limit
    rw [Binary64.exceeds_iff value, lt_div_iff₀ (by norm_num)]
    exact_mod_cast Iff.rfl
  unfold mayEnter
  split
  · rfl
  · cases st.memoryLimit with
    | none => rfl
    | some limit =>
      simp only [converted, bind, Except.bind, beyond limit]
      split <;> rfl

/-- Below the greatest depth nothing is refused for the depth. -/
theorem kind_ne_recursion {st : Stack} {resident : Int} {e : Error} (shallow : st.depth < st.maxDepth)
    (refused : st.mayEnter resident = .error e) : e.kind ≠ .recursion := by
  have full : ∀ limit, (refusal .memoryLimit limit).kind ≠ .recursion :=
    refusal_of (P := (Error.kind · ≠ .recursion)) (fun n => by simp [Error.kind]) nofun
  have other : FailsAs (fun e => e.kind ≠ .recursion) (st.mayEnter resident) := by
    unfold mayEnter
    rw [if_neg (not_le.mpr shallow)]
    split
    · exact .ok ()
    · refine FailsAs.bind (.ite (.error nofun) (.ok _)) fun _ => ?_
      exact .ite (.error (full _)) (.ok ())
  exact other e refused

/-- The kind of a refusal tells whether the limit can be written. -/
theorem kind_refusal (cause : WritableInt → Error) (kind : ErrorKind)
    (named : ∀ n, (cause n).kind = kind) (limit : Int) :
    (refusal cause limit).kind = if Writable limit then kind else .value := by
  unfold refusal
  split
  · exact named _
  · rfl

theorem kind_depthLimit (limit : Int) :
    (refusal .depthLimit limit).kind = if Writable limit then .recursion else .value :=
  kind_refusal .depthLimit .recursion (fun _ => rfl) limit

theorem kind_memoryLimit (limit : Int) :
    (refusal .memoryLimit limit).kind = if Writable limit then .memory else .value :=
  kind_refusal .memoryLimit .memory (fun _ => rfl) limit

/-- Whether a stack may be entered depends on its depth and its limits only. -/
theorem mayEnter_congr {st st' : Stack} (depth : st.depth = st'.depth)
    (maxDepth : st.maxDepth = st'.maxDepth) (memoryLimit : st.memoryLimit = st'.memoryLimit)
    (resident : Int) : st.mayEnter resident = st'.mayEnter resident := by
  unfold mayEnter
  rw [depth, maxDepth, memoryLimit]

end Stack

/-! ## The depth -/

/-- A stack is not deeper than it may be. -/
def Stack.WithinLimit (st : Stack) : Prop := (st.depth : Int) ≤ max 0 st.maxDepth

namespace Event

variable {e : Event} {h : Heap} {s : StackId}

/-- A stack that is not there yet is not deep after an event either. -/
theorem depth_act_of_size_le (out : h.scopeStacks.size ≤ s.index) :
    ((e.act h).stack s).depth = 0 := by
  by_cases still : (e.act h).scopeStacks.size ≤ s.index
  · rw [Heap.stack_of_size_le still]
    rfl
  · cases e with
    | founded s' base maxDepth memoryLimit =>
      have size : ((founded s' base maxDepth memoryLimit).act h).scopeStacks.size =
        h.scopeStacks.size + 1 := Array.size_push _
      have new : s.index = h.scopeStacks.size := by omega
      exact congrArg Stack.depth (Heap.stack_addStack_new (h.addScope .empty).2 _ new)
    | _ =>
      refine absurd out ?_
      simpa [act, Heap.addSlot, Heap.setSlot, Heap.addScope, Heap.setScope, Heap.setStack]
        using still

/-- The limits of a stack are the same after an event. -/
theorem limits_act (hs : s.index < h.scopeStacks.size) :
    ((e.act h).stack s).maxDepth = (h.stack s).maxDepth ∧
      ((e.act h).stack s).memoryLimit = (h.stack s).memoryLimit := by
  rw [e.stack_act hs]
  split
  · exact ⟨rfl, rfl⟩
  · split
    · unfold Stack.pop
      split <;> exact ⟨rfl, rfl⟩
    · exact ⟨rfl, rfl⟩

/-- An event that can happen makes no stack deeper than it may be. -/
theorem withinLimit_act (valid : e.Valid h) (within : (h.stack s).WithinLimit) :
    ((e.act h).stack s).WithinLimit := by
  unfold Stack.WithinLimit at within ⊢
  rcases Nat.lt_or_ge s.index h.scopeStacks.size with hs | out
  · rw [(limits_act hs).1]
    cases enters : e.enters s with
    | true =>
      have below : ((h.stack s).depth : Int) < (h.stack s).maxDepth := by
        cases e with
        | entered passage s' =>
          cases of_decide_eq_true enters
          exact valid
        | _ => cases enters
      rw [e.stack_act hs, if_pos enters, Stack.depth_push]
      omega
    | false =>
      rw [e.stack_act hs, enters, if_neg Bool.false_ne_true]
      split
      · rw [Stack.depth_pop]
        omega
      · exact within
  · rw [depth_act_of_size_le out]
    omega

end Event

namespace Heap

variable {h : Heap} {s : StackId} {es : List Event}

/-- After each of some events no stack is deeper than it may be. -/
theorem along_withinLimit (valid : h.Along (fun h e => e.Valid h) es)
    (within : ∀ s, (h.stack s).WithinLimit) :
    h.Along (fun h e => ∀ s, ((e.act h).stack s).WithinLimit) es :=
  valid.after_each (I := fun h => ∀ s, (h.stack s).WithinLimit)
    (fun _ _ within valid s => Event.withinLimit_act valid (within s)) within

theorem withinLimit_after (valid : h.Along (fun h e => e.Valid h) es)
    (within : ∀ s, (h.stack s).WithinLimit) (s : StackId) : ((h.after es).stack s).WithinLimit :=
  valid.invariant (I := fun h => ∀ s, (h.stack s).WithinLimit)
    (fun _ _ within valid s => Event.withinLimit_act valid (within s)) within s

theorem limits_after (hs : s.index < h.scopeStacks.size) (es : List Event) :
    ((h.after es).stack s).maxDepth = (h.stack s).maxDepth ∧
      ((h.after es).stack s).memoryLimit = (h.stack s).memoryLimit := by
  induction es generalizing h with
  | nil => exact ⟨rfl, rfl⟩
  | cons e es ih =>
    obtain ⟨depth, memory⟩ := ih (Nat.lt_of_lt_of_le hs (e.scopeStacks_size_le h))
    obtain ⟨depth', memory'⟩ := e.limits_act hs
    exact ⟨depth.trans depth', memory.trans memory'⟩

/-- A stack keeps the limits that it was made with. -/
theorem limits_of_founded {base : Option ScopeId} {maxDepth : Int} {memoryLimit : Option Int}
    (valid : h.Along (fun h e => e.Valid h) es)
    (made : .founded s base maxDepth memoryLimit ∈ es) :
    ((h.after es).stack s).maxDepth = maxDepth ∧
      ((h.after es).stack s).memoryLimit = memoryLimit := by
  obtain ⟨before, later, rfl⟩ := List.append_of_mem made
  have new : s.index = (h.after before).scopeStacks.size := (along_append.mp valid).2.1
  have there := stack_addStack_new ((h.after before).addScope .empty).2
    ⟨⟨(h.after before).scopes.size⟩, [], base, maxDepth, memoryLimit⟩ new
  have exist : s.index <
      ((Event.founded s base maxDepth memoryLimit).act (h.after before)).scopeStacks.size := by
    rw [new]
    exact Nat.lt_of_lt_of_eq (Nat.lt_succ_self _) (Array.size_push _).symm
  obtain ⟨depth, memory⟩ := limits_after exist later
  rw [after_append, after_cons]
  exact ⟨depth.trans (congrArg Stack.maxDepth there), memory.trans (congrArg Stack.memoryLimit there)⟩

end Heap

/-! ## Entering -/

namespace StackId

/-- How entering a stack ends is told by its limits, its depth and the memory in use. -/
theorem enter_outcome (s : StackId) (st : State) :
    (s.enter.run st).1 = (st.heap.stack s).mayEnter st.resident := by
  rw [run_enter]
  cases (st.heap.stack s).mayEnter st.resident <;> rfl

/-- A stack with its limits: a greatest depth and perhaps a greatest number of megabytes in use. It
can be entered below both, for amounts of at most 53 bits. A refusal names the limit that was reached,
and is an error of its own if this has too many digits to be written. -/
structure Guarded (s : StackId) (maxDepth : Int) (memoryLimit : Option Int) (st : State) :
    Prop where
  depth_le : ((st.heap.stack s).depth : Int) ≤ max 0 maxDepth
  recursion : s.enter.Raises .recursion st ↔
    maxDepth ≤ (st.heap.stack s).depth ∧ Number.Writable maxDepth
  memory : 0 ≤ st.resident → st.resident < 2 ^ 53 →
    (s.enter.Raises .memory st ↔ (st.heap.stack s).depth < maxDepth ∧
      ∃ limit ∈ memoryLimit, limit * 1048576 < st.resident ∧ Number.Writable limit)
  unwritable : 0 ≤ st.resident → st.resident < 2 ^ 53 →
    (s.enter.Raises .value st ↔
      (maxDepth ≤ (st.heap.stack s).depth ∧ ¬Number.Writable maxDepth) ∨
      ((st.heap.stack s).depth < maxDepth ∧
        ∃ limit ∈ memoryLimit, limit * 1048576 < st.resident ∧ ¬Number.Writable limit))
  enters : 0 ≤ st.resident → st.resident < 2 ^ 53 → (st.heap.stack s).depth < maxDepth →
    (∀ limit ∈ memoryLimit, st.resident ≤ limit * 1048576) →
    ∃ st' top, s.enter.run st = (.ok (), st') ∧ st'.heap.stack s = (st.heap.stack s).push top ∧
      (st'.heap.stack s).depth = (st.heap.stack s).depth + 1 ∧
      st.heap.scopes.size ≤ top.index ∧ st'.heap.scope top = .empty
  refuses : ∀ {e st'}, s.enter.run st = (.error e, st') → st' = st

variable {s : StackId} {st : State}

theorem raises_enter_iff {kind : ErrorKind} :
    s.enter.Raises kind st ↔
      ∃ e, (st.heap.stack s).mayEnter st.resident = .error e ∧ e.kind = kind := by
  unfold Action.Raises
  rw [enter_outcome]

/-- Entering is refused for the depth, or else for the memory in use. -/
theorem raises_enter_iff_refusal {kind : ErrorKind} (pos : 0 ≤ st.resident)
    (small : st.resident < 2 ^ 53) :
    s.enter.Raises kind st ↔
      ((st.heap.stack s).maxDepth ≤ (st.heap.stack s).depth ∧
        (Stack.refusal .depthLimit (st.heap.stack s).maxDepth).kind = kind) ∨
      ((st.heap.stack s).depth < (st.heap.stack s).maxDepth ∧
        ∃ limit ∈ (st.heap.stack s).memoryLimit, limit * 1048576 < st.resident ∧
          (Stack.refusal .memoryLimit limit).kind = kind) := by
  rw [raises_enter_iff, Stack.mayEnter_eq _ pos small]
  by_cases deep : (st.heap.stack s).maxDepth ≤ (st.heap.stack s).depth
  · simp [deep, not_lt.mpr deep]
  · rw [if_neg deep]
    cases (st.heap.stack s).memoryLimit with
    | none => simp [deep]
    | some limit =>
      by_cases beyond : limit * 1048576 < st.resident
      · simp [deep, beyond, not_le.mp deep]
      · simp [deep, beyond]

/-- A stack that is not deeper than it may be is guarded by its limits. -/
theorem guarded_of_withinLimit (within : (st.heap.stack s).WithinLimit) :
    s.Guarded (st.heap.stack s).maxDepth (st.heap.stack s).memoryLimit st where
  depth_le := within
  recursion := by
    rw [raises_enter_iff]
    constructor
    · rintro ⟨e, refused, kind⟩
      have deep : (st.heap.stack s).maxDepth ≤ (st.heap.stack s).depth :=
        not_lt.mp fun shallow => Stack.kind_ne_recursion shallow refused kind
      rw [Stack.mayEnter, if_pos deep] at refused
      cases refused
      rw [Stack.kind_depthLimit] at kind
      exact ⟨deep, by_contra fun long => by simp [long] at kind⟩
    · rintro ⟨deep, writable⟩
      exact ⟨_, if_pos deep, (Stack.kind_depthLimit _).trans (if_pos writable)⟩
  memory pos small := by
    rw [raises_enter_iff_refusal pos small]
    simp [Stack.kind_depthLimit, Stack.kind_memoryLimit, ite_eq_iff]
  unwritable pos small := by
    rw [raises_enter_iff_refusal pos small]
    simp [Stack.kind_depthLimit, Stack.kind_memoryLimit]
  enters pos small shallow room := by
    have may : (st.heap.stack s).mayEnter st.resident = .ok () := by
      rw [Stack.mayEnter_eq _ pos small, if_neg (not_le.mpr shallow)]
      cases limited : (st.heap.stack s).memoryLimit with
      | none => rfl
      | some limit => exact if_neg (not_lt.mpr (room limit limited))
    have entered := run_enter s st
    rw [may] at entered
    have pushed := stack_entered entered
    refine ⟨_, ⟨st.heap.scopes.size⟩, entered, pushed, ?_, le_rfl, ?_⟩
    · rw [pushed, Stack.depth_push]
    · exact Heap.scope_addScope_new st.heap .empty rfl
  refuses := eq_of_enter_error

end StackId

/-- Makes a stack that may be entered twice while at most one megabyte is in use, and enters it while
exactly that much is; then one byte more is in use. -/
def filling : Program StackId := do
  let s ← .exec (.createStack none 2 (some 1))
  .exec (.sample 1048576)
  .exec (.enter s)
  .exec (.sample 1048577)
  return s

end LexEnv
