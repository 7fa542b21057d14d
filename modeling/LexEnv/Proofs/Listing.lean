import LexEnv.Access
import LexEnv.Elements
import LexEnv.Proofs.Denotation
import LexEnv.Proofs.Run
import LexEnv.Size

/-!
# A scope is a sorted map

What a scope binds after a run depends on the last binding of each name alone
(`State.Run.binds_last`), and every way of looking at the scope shows one and the same map, sorted by
names (`ScopeId.Shows`). Looking changes nothing that is shown.

As long as the names are texts, that is: other names are bound by their hashes, and need not have an
order.
-/

namespace LexEnv

/-! ## The last binding -/

namespace Event

/-- The slot that an event binds a name to in a scope, if it does so. -/
def boundAs? (c : ScopeId) (name : String) : Event → Option SlotId
  | .bound _ c' key t _ => if c' = c ∧ key = .text name then some t else none
  | _ => none

/-- An event that binds nothing but texts in a scope. -/
def BindsTexts (c : ScopeId) : Event → Prop
  | .bound _ c' key _ _ => c' = c → key.text?.isSome
  | _ => True

instance (c : ScopeId) : (e : Event) → Decidable (e.BindsTexts c)
  | .bound _ c' key _ _ => inferInstanceAs (Decidable (c' = c → key.text?.isSome))
  | .created .. | .wrote .. | .opened .. | .copied .. | .founded .. | .entered .. | .exited .. =>
    .isTrue trivial

/-- What an event does to a scope that is there: nothing, or it binds a text. -/
theorem scope_act_cases {e : Event} {h : Heap} {c : ScopeId} (there : c.index < h.scopes.size)
    (valid : e.Valid h) (texts : e.BindsTexts c) :
    ((e.act h).scope c = h.scope c ∧ ∀ name, e.boundAs? c name = none) ∨
    ∃ s t, (e.act h).scope c = (h.scope c).insert s t ∧
      ∀ name, e.boundAs? c name = if name = s then some t else none := by
  rw [e.scope_act there]
  cases e with
  | bound via c' key t bindings =>
    by_cases here : c' = c
    · subst here
      obtain ⟨s, text⟩ := Option.isSome_iff_exists.mp (texts rfl)
      obtain rfl := Key.text?_eq_some_iff.mp text
      refine .inr ⟨s, t, ?_, fun name => ?_⟩
      · rw [rebound?, if_pos rfl]
        exact valid.2.2 s rfl
      · simp only [boundAs?, Key.text.injEq, true_and, eq_comm]
    · exact .inl ⟨by rw [rebound?, if_neg here]; rfl, fun name => if_neg fun both => here both.1⟩
  | _ => exact .inl ⟨rfl, fun _ => rfl⟩

end Event

/-- The slot that a name was bound to last in a scope by some events, if they bound it at all. -/
def lastBound (c : ScopeId) (name : String) (es : List Event) : Option SlotId :=
  (es.filterMap (·.boundAs? c name)).getLast?

theorem lastBound_cons (c : ScopeId) (name : String) (e : Event) (es : List Event) :
    lastBound c name (e :: es) = (lastBound c name es).or (e.boundAs? c name) :=
  getLast?_filterMap_cons _ e es

namespace Heap

/-- A scope binds each name to the slot that it was bound to last. -/
theorem scope_after {h : Heap} {c : ScopeId} {es : List Event} (there : c.index < h.scopes.size)
    (valid : h.Along (fun h e => e.Valid h) es) (texts : ∀ e ∈ es, e.BindsTexts c)
    (textual : (h.scope c).Textual) :
    ((h.after es).scope c).Textual ∧
      ∀ name, ((h.after es).scope c).get? name =
        (lastBound c name es).or ((h.scope c).get? name) := by
  induction es generalizing h with
  | nil => exact ⟨textual, fun _ => rfl⟩
  | cons e es ih =>
    obtain ⟨first, rest⟩ := List.forall_mem_cons.mp texts
    have there' := Nat.lt_of_lt_of_le there (e.scopes_size_le h)
    rcases e.scope_act_cases there valid.1 first with ⟨same, none⟩ | ⟨s, t, bound, some⟩
    · obtain ⟨textual', last⟩ := ih there' valid.2 rest (same ▸ textual)
      refine ⟨textual', fun name => ?_⟩
      rw [after_cons, last, lastBound_cons, none, same, Option.or_none]
    · obtain ⟨textual', last⟩ := ih there' valid.2 rest (bound ▸ textual.insert s t)
      refine ⟨textual', fun name => ?_⟩
      rw [after_cons, last, lastBound_cons, some, bound, Table.get?_insert, Option.or_assoc]
      split <;> rfl

end Heap

/-- From some state on, a scope is there and its names are texts. -/
structure ScopeId.NamedByTexts (c : ScopeId) (st : State) (es : List Event) : Prop where
  there : c.index < st.heap.scopes.size
  start : (st.heap.scope c).Textual
  texts : ∀ e ∈ es, e.BindsTexts c

/-- After a run a scope binds each name to the slot that it was bound to last. -/
theorem State.Run.binds_last {st st' : State} {es : List Event} {c : ScopeId}
    (run : st.Run es st') (named : c.NamedByTexts st es) :
    (st'.heap.scope c).Textual ∧
      ∀ name, (st'.heap.scope c).get? name =
        (lastBound c name es).or ((st.heap.scope c).get? name) := by
  rw [← Heap.scope_congr run.evolves.reached]
  exact Heap.scope_after named.there run.evolves.valid named.texts named.start

/-! ## What a scope shows -/

/-- A value is the pair of a name and its slot. -/
def Heap.Pairs (h : Heap) (v : Value) (e : String × SlotId) : Prop :=
  ∃ q, v = .sequence .tuple q ∧ h.sequence q = [.text e.1, .slot e.2]

/-- A scope shows a sorted map: in its listing and its names, in its size, when names are looked up or
sought, and when it is gone through. Going through it makes pairs; nothing else changes. -/
structure ScopeId.Shows (c : ScopeId) (m : NameMap SlotId) (st : State) : Prop where
  enumerate : c.enumerate.run st = (.ok (m.entries.map fun e => (.text e.1, e.2)), st)
  names : c.names.run st = (.ok (m.entries.map fun e => .text e.1), st)
  size : st.heap.size? (.scope c) = some m.entries.length
  lookup : ∀ name, (c.lookup (.text name)).run st = (.ok (m.get? name), st)
  hasName : ∀ name, ((Value.scope c).hasName name).run st = (.ok (m.get? name).isSome, st)
  elements : ∃ pairs st', (Value.scope c).elements?.run st = (.ok (some pairs), st') ∧
    st'.heap.environment = st.heap.environment ∧
    List.Forall₂ st'.heap.Pairs pairs m.entries

/-- The pairs of names with their slots. -/
theorem Value.run_newPairs (es : List (String × SlotId)) (st : State) :
    ∃ pairs st', (List.mapM (fun (name, s) => newTuple [name, .slot s])
        (es.map fun e => (.text e.1, e.2)) : Action (List Value)).run st = (.ok pairs, st') ∧
      st.heap.Grown st'.heap ∧ List.Forall₂ st'.heap.Pairs pairs es := by
  induction es generalizing st with
  | nil => exact ⟨[], st, rfl, .refl _, .nil⟩
  | cons e es ih =>
    let items := [Value.text e.1, .slot e.2]
    let next : State := { st with heap := (st.heap.addSequence items).2 }
    obtain ⟨pairs, st', made, grown, all⟩ := ih next
    let q : SequenceId := ⟨st.heap.sequences.size⟩
    have inside : q.index < next.heap.sequences.size := by simp [q, next, Heap.addSequence]
    have held : st'.heap.sequence q = items := by
      rw [grown.sequence q inside]
      exact st.heap.sequence_addSequence_new items rfl
    refine ⟨.sequence .tuple q :: pairs, st', ?_, (st.heap.grown_addSequence items).trans grown,
      .cons ⟨q, rfl, held⟩ all⟩
    rw [List.map_cons, List.mapM_cons, Action.run_bind]
    show (List.mapM _ _ >>= fun pairs => pure (.sequence .tuple q :: pairs) :
      Action (List Value)).run next = _
    rw [Action.run_bind, made]
    rfl

/-- A scope whose names are texts shows the map that answers every look-up as it does. -/
theorem ScopeId.shows_of_textual {c : ScopeId} {bindings : Scope} (textual : bindings.Textual) :
    ∃ m : NameMap SlotId, (∀ name, m.get? name = bindings.get? name) ∧
      ∀ st : State, st.heap.scope c = bindings → c.Shows m st := by
  obtain ⟨m, listed, answers⟩ := textual.sorted
  refine ⟨m, answers, fun st holds => ?_⟩
  subst holds
  have enumerate : c.enumerate.run st = (.ok (m.entries.map fun e => (.text e.1, e.2)), st) := by
    rw [ScopeId.enumerate, Action.run_inspect, Heap.enumerate, listed]
  have lookup : ∀ name, (c.lookup (.text name)).run st = (.ok (m.get? name), st) := fun name => by
    rw [ScopeId.lookup, Action.run_inspect, Heap.key_text, answers]
    exact congrArg (·, st) (st.heap.find?_text name _)
  refine ⟨enumerate, ?_, ?_, lookup, fun name => ?_, ?_⟩
  · rw [ScopeId.names, Action.run_bind, enumerate]
    show (Except.ok _, st) = _
    rw [List.map_map]
    rfl
  · exact congrArg some ((textual.perm answers).length_eq.trans (List.length_map _))
  · rw [Value.hasName, Action.run_bind, lookup]
    rfl
  · obtain ⟨pairs, st', made, -, all⟩ := Value.run_newPairs m.entries st
    have ran : (Value.scope c).elements?.run st = (.ok (some pairs), st') := by
      rw [Value.elements?, Action.run_bind, enumerate]
      show (List.mapM _ _ >>= fun pairs => pure (some pairs) :
        Action (Option (List Value))).run st = _
      rw [Action.run_bind, made]
      rfl
    refine ⟨pairs, st', ran, ?_, all⟩
    have silent := (Value.built_elements? (.scope c)).silent st
    rwa [ran] at silent

end LexEnv
