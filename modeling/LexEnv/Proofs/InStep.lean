import LexEnv.Proofs.WrittenForm

/-!
# Evaluations in step

An evaluation works in a heap of its own, and again in another heap where it has company. Both runs are
in step when the heaps mirror each other along a link, as far as the evaluation can see
(`Evaluation.Joins`). An operation keeps them in step when it has the same outcome in both, the link
only grows by objects that are new, and of the objects that were there in the second heap it changes
none but those that belong to the evaluation (`Evaluation.Future`, `Evaluation.InStep`).

What other evaluations may see as well are a scope, the base, and the slots that it binds. They never
change: the slots are constant and the base is no scope that the stack of the evaluation made.
-/

namespace LexEnv

/-- An evaluation: its context with what that holds, and the base with the slots that it binds. -/
structure Evaluation where
  context : ContextId
  content : Context
  base : ScopeId
  slots : List SlotId

/-- A value that serves as styles: if it is a dictionary, then it maps the class of records to nothing
or to another dictionary. -/
def Heap.StyleMap (h : Heap) (v : Value) : Prop :=
  ∀ d, v = .dict d → ∀ w, (h.dict d).get? "record" = some w → ∃ r, w = .dict r ∧ r ≠ d

namespace Evaluation

variable (E : Evaluation)

/-- The stack of an evaluation. -/
abbrev stack : StackId := E.content.stack

/-- What other evaluations may see as well. -/
def Common : Object → Prop
  | .scope c => c = E.base
  | .slot s => s ∈ E.slots
  | .serial _ => True
  | _ => False

instance : DecidablePred E.Common
  | .scope c => inferInstanceAs (Decidable (c = E.base))
  | .slot s => inferInstanceAs (Decidable (s ∈ E.slots))
  | .serial _ => .isTrue trivial
  | .stack _ | .sequence _ | .set _ | .dict _ | .arguments _ | .context _ => .isFalse id

/-- What an evaluation can rely on: its context holds what it did, the base and its slots exist and
the slots cannot be written, and neither the scopes of the stack nor the styles get in the way. -/
structure Settled (h : Heap) : Prop where
  context : h.context E.context = E.content
  base : h.Has (.scope E.base)
  slots : ∀ s ∈ E.slots, h.Has (.slot s) ∧ (h.slot s).kind ≠ .mutable
  own : ∀ c ∈ (h.stack E.stack).own, c ≠ E.base
  styles : h.StyleMap E.content.styles

/-- Both runs are in step: the second heap mirrors the first one, and the evaluation has the same
context in both. -/
structure Joins (L : Link) (h g : Heap) : Prop where
  mirrors : L.Mirrors h g
  settled : E.Settled h
  linked : L (.context E.context) (.context E.context)
  context : g.context E.context = E.content

/-- What may become of the second heap: linked objects stay linked, and other objects stay as they
are. -/
structure Future (L M : Link) (g g' : Heap) : Prop where
  le : L ≤ M
  fresh : ∀ o p, M o p → L o p ∨ ¬g.Has p
  has : ∀ p, g.Has p → g'.Has p
  kept : ∀ p, g.Has p → (∀ o, L o p → E.Common o) → g'.cell p = g.cell p

variable {E} {L M N : Link} {h g h' g' g'' : Heap}

/-! ## Futures -/

theorem Future.refl (L : Link) (g : Heap) : E.Future L L g g where
  le _ _ := id
  fresh _ _ := .inl
  has _ := id
  kept _ _ _ := rfl

theorem Future.trans (first : E.Future L M g g') (second : E.Future M N g' g'') :
    E.Future L N g g'' where
  le o p linked := second.le o p (first.le o p linked)
  fresh o p linked := by
    rcases second.fresh o p linked with old | new
    · exact first.fresh o p old
    · exact .inr fun there => new (first.has p there)
  has p there := second.has p (first.has p there)
  kept p there common := by
    rw [second.kept p (first.has p there) fun o linked => ?_, first.kept p there common]
    rcases first.fresh o p linked with old | new
    · exact common o old
    · exact absurd there new

/-! ## Changing and adding objects -/

namespace Joins

variable (j : E.Joins L h g)

include j

theorem contents : L.Contexts E.content E.content := by
  have contexts := j.mirrors.context j.linked
  rwa [j.settled.context, j.context] at contexts

theorem stack : L (.stack E.stack) (.stack E.stack) := j.contents.stack

theorem styles {d : DictId} (styles : E.content.styles = .dict d) : L (.dict d) (.dict d) := by
  have alike := j.contents.styles
  rw [styles] at alike
  cases alike with
  | dict linked => exact linked

/-- The evaluation stays settled if what it relies on holds what it did. -/
theorem settled_of_same (has : ∀ o, h.Has o → h'.Has o)
    (context : h'.cell (.context E.context) = h.cell (.context E.context))
    (slots : ∀ s ∈ E.slots, h'.cell (.slot s) = h.cell (.slot s))
    (stack : h'.cell (.stack E.stack) = h.cell (.stack E.stack))
    (styles : ∀ d, E.content.styles = .dict d → h'.cell (.dict d) = h.cell (.dict d)) :
    E.Settled h' where
  context := (Cell.context.inj context).trans j.settled.context
  base := has _ j.settled.base
  slots s mem := by
    obtain ⟨there, kind⟩ := j.settled.slots s mem
    exact ⟨has _ there, by rwa [Cell.slot.inj (slots s mem)]⟩
  own := by
    rw [Cell.stack.inj stack]
    exact j.settled.own
  styles d is := by
    rw [Cell.dict.inj (styles d is)]
    exact j.settled.styles d is

/-- Linked objects that belong to the evaluation are changed alike. -/
theorem changed {o p : Object} (linked : L o p) (own : ¬E.Common o) (other : o ≠ .context E.context)
    (change : h.Changes o h') (change' : g.Changes p g') (cells : L.Cells (h'.cell o) (g'.cell p))
    (settled : E.Settled h') : E.Future L L g g' ∧ E.Joins L h' g' := by
  have m := j.mirrors
  -- The context stands for itself, so nothing else stands for it.
  have other' : .context E.context ≠ p := fun same => other (m.injective linked (same ▸ j.linked))
  refine ⟨⟨fun _ _ => id, fun _ _ => .inl, fun q => (change'.has q).mpr, fun q _ common => ?_⟩,
    m.changed linked change change' cells, settled, j.linked, ?_⟩
  · refine change'.cell q fun same => own (common o ?_)
    rw [same]
    exact linked
  · exact (Cell.context.inj (change'.cell _ other')).trans j.context

/-- What the evaluation relies on does not change with other objects. -/
theorem changed_other {o p : Object} (linked : L o p) (own : ¬E.Common o)
    (other : o ≠ .context E.context) (stack : o ≠ .stack E.stack)
    (styles : ∀ d, E.content.styles = .dict d → o ≠ .dict d) (change : h.Changes o h')
    (change' : g.Changes p g') (cells : L.Cells (h'.cell o) (g'.cell p)) :
    E.Future L L g g' ∧ E.Joins L h' g' := by
  refine j.changed linked own other change change' cells (j.settled_of_same
    (fun q => (change.has q).mpr) (change.cell _ other.symm) (fun s mem => change.cell _ ?_)
    (change.cell _ stack.symm) fun d is => change.cell _ (styles d is).symm)
  rintro rfl
  exact own mem

/-- New objects are linked. -/
theorem added {o p : Object} (add : h.Adds o h') (add' : g.Adds p g')
    (cells : (L.add o p).Cells (h'.cell o) (g'.cell p)) :
    E.Future L (L.add o p) g g' ∧ E.Joins (L.add o p) h' g' := by
  have m := j.mirrors
  have old : ∀ {q r}, L q r → h'.cell q = h.cell q := fun linked =>
    add.cell _ fun same => add.new (same ▸ (m.exist linked).1)
  refine ⟨⟨L.le_add o p, fun q r => ?_, fun r there => (add'.has r).mpr (.inl there),
      fun r there _ => add'.cell r fun same => add'.new (same ▸ there)⟩,
    m.added add add' cells, ?_, .inl j.linked, ?_⟩
  · rintro (linked | ⟨rfl, rfl⟩)
    · exact .inl linked
    · exact .inr add'.new
  · refine j.settled_of_same (fun q there => (add.has q).mpr (.inl there)) (old j.linked)
      (fun s mem => add.cell _ fun same => add.new (same ▸ (j.settled.slots s mem).1))
      (old j.stack) fun d is => old (j.styles is)
  · have there := add'.cell (.context E.context) fun same => add'.new (same ▸ (m.exist j.linked).2)
    exact (Cell.context.inj there).trans j.context

end Joins

/-! ## Operations in step -/

section

open LexEnv.Action

variable {α β γ δ : Type} {R : Link → α → β → Prop} {S : Link → γ → δ → Prop}

/-- Two operations end alike and keep runs in step that are so along a link. What their results have
in common may depend on the link. -/
def InStep (E : Evaluation) (L : Link) (R : Link → α → β → Prop) (x : Action α) (y : Action β) :
    Prop :=
  ∀ st st' : State, E.Joins L st.heap st'.heap →
    ∃ M, E.Future L M st'.heap (y.run st').2.heap ∧ E.Joins M (x.run st).2.heap (y.run st').2.heap ∧
      M.Outcomes (R M) (x.run st).1 (y.run st').1

/-- Operations whose results have nothing in common. -/
abbrev Whatever (_ : Link) (_ : α) (_ : β) : Prop := True

theorem inStep_pure {a : α} {b : β} (related : R L a b) : E.InStep L R (pure a) (pure b) :=
  fun _ _ j => ⟨L, .refl L _, j, .ok related⟩

theorem inStep_fail {e f : Error} (errors : L.Errors e f) :
    E.InStep L R (fail e : Action α) (fail f : Action β) :=
  fun _ _ j => ⟨L, .refl L _, j, .error errors⟩

/-- Errors that carry no value are the same. -/
theorem inStep_refuse {e : Error} (none : e.value? = none) :
    E.InStep L R (fail e : Action α) (fail e : Action β) := inStep_fail (.plain none)

theorem inStep_read {f : Heap → α} {f' : Heap → β}
    (related : ∀ h g, E.Joins L h g → R L (f h) (f' g)) : E.InStep L R (read f) (read f') :=
  fun st st' j => ⟨L, .refl L _, j, .ok (related st.heap st'.heap j)⟩

theorem inStep_inspect {f : Heap → Except Error α} {f' : Heap → Except Error β}
    (outcomes : ∀ h g, E.Joins L h g → L.Outcomes (R L) (f h) (f' g)) :
    E.InStep L R (inspect f) (inspect f') :=
  fun st st' j => ⟨L, .refl L _, j, outcomes st.heap st'.heap j⟩

theorem inStep_ofOutcome {r : Except Error α} {r' : Except Error β}
    (outcomes : L.Outcomes (R L) r r') : E.InStep L R (ofOutcome r) (ofOutcome r') := by
  cases outcomes with
  | ok related => exact inStep_pure related
  | error errors => exact inStep_fail errors

/-- Records are no part of a heap. -/
theorem inStep_record (r r' : TraceRecord) : E.InStep L Whatever (record r) (record r') :=
  fun _ _ j => ⟨L, .refl L _, j, .ok trivial⟩

theorem inStep_recordShown (r r' : String → TraceRecord)
    (shown shown' : Heap → Except Error String) :
    E.InStep L Whatever (recordShown r shown) (recordShown r' shown') := by
  intro st st' j
  obtain ⟨trace, run⟩ := exists_run_recordShown r shown st
  obtain ⟨trace', run'⟩ := exists_run_recordShown r' shown' st'
  rw [run, run']
  exact ⟨L, .refl L _, j, .ok trivial⟩

theorem InStep.bind {x : Action α} {y : Action β} {f : α → Action γ} {f' : β → Action δ}
    (first : E.InStep L R x y)
    (next : ∀ M a b, L ≤ M → R M a b → E.InStep M S (f a) (f' b)) :
    E.InStep L S (x >>= f) (y >>= f') := by
  intro st st' j
  obtain ⟨M, future, j', outcomes⟩ := first st st' j
  rw [run_bind, run_bind]
  rcases hx : x.run st with ⟨r, s⟩
  rcases hy : y.run st' with ⟨r', s'⟩
  rw [hx, hy] at outcomes j'
  rw [hy] at future
  cases outcomes with
  | error errors => exact ⟨M, future, j', .error errors⟩
  | ok related =>
    obtain ⟨N, future', j'', outcomes⟩ := next M _ _ future.le related s s' j'
    exact ⟨N, future.trans future', j'', outcomes⟩

theorem InStep.imp {R' : Link → α → β → Prop} {x : Action α} {y : Action β}
    (inStep : E.InStep L R x y) (imp : ∀ M a b, L ≤ M → R M a b → R' M a b) :
    E.InStep L R' x y := by
  intro st st' j
  obtain ⟨M, future, j', outcomes⟩ := inStep st st' j
  exact ⟨M, future, j', outcomes.imp fun a b => imp M a b future.le⟩

theorem InStep.attempt {x : Action α} {y : Action β} (inStep : E.InStep L R x y) :
    E.InStep L (fun M => M.Outcomes (R M)) x.attempt y.attempt := by
  intro st st' j
  obtain ⟨M, future, j', outcomes⟩ := inStep st st' j
  exact ⟨M, future, j', .ok outcomes⟩

/-- Heaps that are changed alike stay in step. -/
theorem inStep_modifyHeap {f f' : Heap → Heap}
    (change : ∀ h g, E.Joins L h g → E.Future L L g (f' g) ∧ E.Joins L (f h) (f' g)) :
    E.InStep L Whatever (modifyHeap f) (modifyHeap f') := by
  intro st st' j
  obtain ⟨future, j'⟩ := change st.heap st'.heap j
  exact ⟨L, future, j', .ok trivial⟩

/-- What was new when both runs were in step. -/
def Fresh (E : Evaluation) (L : Link) (o : Object) : Prop := ∃ h g, E.Joins L h g ∧ ¬h.Has o

/-- New objects that hold the same are linked with each other. -/
theorem inStep_allocate (object : α → Object) {add add' : Heap → α × Heap} {x y : Cell}
    (adds : ∀ h, h.Adds (object (add h).1) (add h).2 ∧ (add h).2.cell (object (add h).1) = x)
    (adds' : ∀ h, h.Adds (object (add' h).1) (add' h).2 ∧ (add' h).2.cell (object (add' h).1) = y)
    (cells : L.Cells x y) :
    E.InStep L (fun M a b => M (object a) (object b) ∧ E.Fresh L (object a)) (allocate add)
      (allocate add') := by
  intro st st' j
  obtain ⟨here, holds⟩ := adds st.heap
  obtain ⟨there, holds'⟩ := adds' st'.heap
  obtain ⟨future, j'⟩ := j.added here there (by
    rw [holds, holds']
    exact cells.mono (L.le_add _ _))
  exact ⟨_, future, j', .ok ⟨L.add_self _ _, _, _, j, here.new⟩⟩

end

end Evaluation

end LexEnv
