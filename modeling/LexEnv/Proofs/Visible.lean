import LexEnv.Proofs.Mirror
import LexEnv.Proofs.Sorting

/-!
# What is visible

A look-up stops at the first scope of the chain that binds a name. The visible names are gathered the
other way: every scope of the chain is gone through, and what was gathered before hides what comes
later. Both describe the same environment, a sorted map of names (`StackId.Sees`). What is gathered
from the scopes gone through so far answers look-ups as these scopes do
(`Heap.exists_gathered`), so that at the end of the chain it answers as the whole stack.

The environment is all that there is to capture: a scope captured under the visible names lists
exactly these, and a new stack over it sees what the old one sees. Names are texts here, as they are
after every run that binds nothing else (`State.Run.textual`). Main statement:
`State.Reachable.sees_itself_captured`.
-/

namespace LexEnv

open LexEnv.Action

/-! ## Gathering names -/

namespace Heap

variable {h : Heap} {seen : Scope}

/-- What was gathered before hides a further binding of the same name. -/
theorem get?_unhidden (seen : Scope) (e : String × SlotId) (name : String) :
    (unhidden seen e).get? name =
      (seen.get? name).or (if e.1 = name then some e.2 else none) := by
  unfold unhidden
  cases found : seen.get? e.1 with
  | some t =>
    by_cases same : e.1 = name
    · subst same
      simp [found]
    · simp [same]
  | none =>
    by_cases same : e.1 = name
    · subst same
      simp [found]
    · simp [same, Ne.symm same]

theorem get?_foldl_unhidden (seen : Scope) (es : List (String × SlotId)) (name : String) :
    (es.foldl unhidden seen).get? name = (seen.get? name).or (NameMap.find? name es) := by
  induction es generalizing seen with
  | nil => simp [NameMap.find?]
  | cons e es ih =>
    rw [List.foldl_cons, ih, get?_unhidden, NameMap.find?, Option.or_assoc]
    by_cases same : e.1 = name
    · simp [same]
    · simp [same]

/-- Going through a scope adds what it binds and what is not hidden. -/
theorem exists_revealed {c : ScopeId} (bound : (h.scope c).Textual) (textual : seen.Textual) :
    ∃ seen', h.revealed seen c = .ok seen' ∧ seen'.Textual ∧
      ∀ name, seen'.get? name = (seen.get? name).or ((h.scope c).get? name) := by
  obtain ⟨m, listed, answers⟩ := bound.ascending h.less
  refine ⟨m.entries.foldl unhidden seen, revealed_text listed seen,
    textual_foldl_unhidden textual m.entries, ?_⟩
  intro name
  rw [get?_foldl_unhidden, ← answers]
  rfl

/-- Going through a chain of scopes gathers what a search through them finds. -/
theorem exists_gathered {chain : List ScopeId} (bound : ∀ c ∈ chain, (h.scope c).Textual)
    (textual : seen.Textual) :
    ∃ seen', chain.foldlM h.revealed seen = .ok seen' ∧ seen'.Textual ∧
      ∀ name, seen'.get? name =
        (seen.get? name).or (chain.findSome? fun c => (h.scope c).get? name) := by
  induction chain generalizing seen with
  | nil => exact ⟨seen, rfl, textual, fun name => by simp⟩
  | cons c chain ih =>
    obtain ⟨first, rest⟩ := List.forall_mem_cons.mp bound
    obtain ⟨seen₁, revealed, textual₁, answers₁⟩ := exists_revealed first textual
    obtain ⟨seen₂, gathered, textual₂, answers₂⟩ := ih rest textual₁
    refine ⟨seen₂, ?_, textual₂, ?_⟩
    · rw [List.foldlM_cons, revealed]
      exact gathered
    · intro name
      rw [answers₂, answers₁, Option.or_assoc, List.findSome?_cons]
      cases (h.scope c).get? name <;> rfl

/-- What is visible through a chain of scopes is a sorted map, which answers as the chain does. -/
theorem exists_visible {chain : List ScopeId} (bound : ∀ c ∈ chain, (h.scope c).Textual) :
    ∃ m : NameMap SlotId, h.visible chain = .ok (m.entries.map fun e => (.text e.1, e.2)) ∧
      ∀ name, m.get? name = chain.findSome? fun c => (h.scope c).get? name := by
  obtain ⟨seen, gathered, textual, answers⟩ := exists_gathered bound Table.textual_empty
  obtain ⟨m, listed, same⟩ := textual.ascending h.less
  refine ⟨m, ?_, ?_⟩
  · rw [visible_eq, gathered]
    exact listed
  · intro name
    rw [same, answers, Table.get?_empty]
    rfl

end Heap

/-! ## The environment of a stack -/

namespace StackId

/-- A stack sees an environment, a sorted map of names: it lists the map, and looks names up in it. -/
structure Sees (s : StackId) (m : NameMap SlotId) (st : State) : Prop where
  visible : s.visible.run st = (.ok (m.entries.map fun e => (.text e.1, e.2)), st)
  lookup : ∀ name, (s.lookup (.text name)).run st = (.ok (m.get? name), st)

variable {s : StackId} {st : State} {m : NameMap SlotId}

theorem run_visible (s : StackId) (st : State) :
    s.visible.run st = (st.heap.visible (st.heap.stack s).chain, st) := rfl

/-- Over scopes that bind texts a stack sees some environment. -/
theorem exists_sees (textual : ∀ c ∈ (st.heap.stack s).chain, (st.heap.scope c).Textual) :
    ∃ m, s.Sees m st ∧ ∀ name, m.get? name = st.heap.resolved s name := by
  obtain ⟨m, listed, answers⟩ := Heap.exists_visible textual
  refine ⟨m, ⟨?_, ?_⟩, answers⟩
  · rw [run_visible, listed]
  · intro name
    rw [run_lookup_text, answers name]
    rfl

/-- The listed names are those that are found, with the slots that are found. -/
theorem Sees.mem_iff (sees : s.Sees m st) (name : String) (t : SlotId) :
    (name, t) ∈ m.entries ↔ (s.lookup (.text name)).run st = (.ok (some t), st) := by
  rw [NameMap.mem_entries, sees.lookup]
  simp

/-- A scope that is captured under the names of an environment binds what the environment does. -/
theorem get?_closure_names (answers : ∀ name, m.get? name = st.heap.resolved s name)
    (name : String) : (st.heap.closure s (m.entries.map (·.1))).get? name = m.get? name := by
  rw [Heap.get?_closure, ← answers]
  by_cases listed : name ∈ m.entries.map (·.1)
  · rw [if_pos listed]
  · rw [if_neg listed]
    cases found : m.get? name with
    | none => rfl
    | some t =>
      refine absurd (List.mem_map.mpr ?_) listed
      exact ⟨(name, t), NameMap.mem_entries.mpr found, rfl⟩

/-- Capturing the listed names makes a new scope that binds them. -/
theorem exists_captured (answers : ∀ name, m.get? name = st.heap.resolved s name) :
    ∃ c st', (s.capture ((m.entries.map fun e => (Value.text e.1, e.2)).map (·.1))).run st =
        (.ok c, st') ∧
      st'.heap = (Event.opened c (st.heap.closure s (m.entries.map (·.1)))).act st.heap ∧
      c.index < st'.heap.scopes.size ∧ (st'.heap.scope c).Textual ∧
      ∀ name, m.get? name = (st'.heap.scope c).get? name := by
  have ran := s.run_capture_text (m.entries.map (·.1)) st
  rw [List.map_map] at ran ⊢
  refine ⟨_, _, ran, rfl, ?_, ?_, ?_⟩
  · exact Nat.lt_of_lt_of_eq (Nat.lt_succ_self _) (Array.size_push _).symm
  · rw [Heap.scope_opened]
    exact st.heap.textual_closure s _
  · intro name
    rw [Heap.scope_opened]
    exact (get?_closure_names answers name).symm

/-- A new stack over a scope that binds texts sees what this scope binds. -/
theorem sees_created {c : ScopeId} (hc : c.index < st.heap.scopes.size)
    (textual : (st.heap.scope c).Textual)
    (answers : ∀ name, m.get? name = (st.heap.scope c).get? name) (maxDepth : Int)
    (memoryLimit : Option Int) :
    ∃ u st', (create (some c) maxDepth memoryLimit).run st = (.ok u, st') ∧ u.Sees m st' ∧
      st'.heap = (Event.founded u (some c) maxDepth memoryLimit).act st.heap := by
  let u : StackId := ⟨st.heap.scopeStacks.size⟩
  let st' := ((create (some c) maxDepth memoryLimit).run st).2
  have stack : st'.heap.stack u = ⟨⟨st.heap.scopes.size⟩, [], some c, maxDepth, memoryLimit⟩ :=
    Heap.stack_addStack_new (st.heap.addScope .empty).2 _ rfl
  have chain : (st'.heap.stack u).chain = [⟨st.heap.scopes.size⟩, c] := by
    rw [stack]
    rfl
  have fresh : st'.heap.scope ⟨st.heap.scopes.size⟩ = .empty :=
    Heap.scope_addScope_new st.heap .empty rfl
  have base : st'.heap.scope c = st.heap.scope c := Heap.scope_addScope_of_lt st.heap .empty hc
  have bound : ∀ d ∈ (st'.heap.stack u).chain, (st'.heap.scope d).Textual := by
    intro d hd
    rw [chain] at hd
    rcases List.mem_pair.mp hd with rfl | rfl
    · rw [fresh]
      exact Table.textual_empty
    · rwa [base]
  obtain ⟨m', sees, resolved⟩ := exists_sees bound
  have same : m' = m := by
    refine NameMap.ext_get? fun name => ?_
    rw [resolved, answers, Heap.resolved, chain, List.findSome?_cons, fresh, Table.get?_empty,
      List.findSome?_cons, base]
    cases (st.heap.scope c).get? name <;> rfl
  exact ⟨u, st', rfl, same ▸ sees, rfl⟩

end StackId

/-- A scope that binds texts lists the map that answers as it does. -/
theorem ScopeId.run_enumerate {c : ScopeId} {st : State} {m : NameMap SlotId}
    (textual : (st.heap.scope c).Textual)
    (answers : ∀ name, m.get? name = (st.heap.scope c).get? name) :
    c.enumerate.run st = (.ok (m.entries.map fun e => (.text e.1, e.2)), st) := by
  obtain ⟨m', listed, answers'⟩ := textual.ascending st.heap.less
  have same : m' = m := NameMap.ext_get? fun name => by rw [answers', answers]
  rw [enumerate, run_inspect, Heap.enumerate, listed, same]

/-! ## Names that are texts -/

/-- An event that binds nothing but texts. -/
def Event.Texts : Event → Prop
  | .opened _ bindings => bindings.Textual
  | .bound _ _ key _ _ => key.text?.isSome
  | _ => True

namespace Heap

variable {h : Heap}

theorem textual_addScope (textual : ∀ c, (h.scope c).Textual) {bindings : Scope}
    (texts : bindings.Textual) (c : ScopeId) : ((h.addScope bindings).2.scope c).Textual := by
  rcases Nat.lt_trichotomy c.index h.scopes.size with old | new | out
  · rw [scope_addScope_of_lt h bindings old]
    exact textual c
  · rwa [scope_addScope_new h bindings new]
  · have size : (h.addScope bindings).2.scopes.size = h.scopes.size + 1 := Array.size_push _
    rw [scope_of_size_le (by omega)]
    exact Table.textual_empty

theorem textual_act {e : Event} (valid : e.Valid h) (texts : e.Texts)
    (textual : ∀ c, (h.scope c).Textual) (c : ScopeId) : ((e.act h).scope c).Textual := by
  cases e with
  | opened c' bindings => exact textual_addScope textual texts c
  | copied c' copy => exact textual_addScope textual (textual c') c
  | founded s base maxDepth memoryLimit => exact textual_addScope textual Table.textual_empty c
  | entered passage s => exact textual_addScope textual Table.textual_empty c
  | bound via c' key t bindings =>
    by_cases here : c = c'
    · subst here
      obtain ⟨name, text⟩ := Option.isSome_iff_exists.mp texts
      obtain rfl := Key.text?_eq_some_iff.mp text
      rcases Nat.lt_or_ge c.index h.scopes.size with there | out
      · show ((h.setScope c bindings).scope c).Textual
        rw [scope_setScope h c c bindings there, if_pos rfl, valid.2.2 name rfl]
        exact (textual c).insert name t
      · show ((h.setScope c bindings).scope c).Textual
        rw [scope_of_size_le (by rwa [size_scopes_setScope])]
        exact Table.textual_empty
    · show ((h.setScope c' bindings).scope c).Textual
      rw [scope_setScope_of_ne h bindings here]
      exact textual c
  | _ => exact textual c

end Heap

/-- While only texts are bound, all scopes bind texts. -/
theorem State.Run.textual {es : List Event} {st : State} (past : State.initial.Run es st)
    (texts : ∀ e ∈ es, e.Texts) (c : ScopeId) : (st.heap.scope c).Textual := by
  have start : ∀ c, (State.initial.heap.scope c).Textual := by
    intro c
    rw [Heap.scope_of_size_le (Nat.zero_le _)]
    exact Table.textual_empty
  have along := past.evolves.valid.and (Heap.along_of_forall fun e he _ => texts e he)
  rw [← Heap.scope_congr past.evolves.reached]
  exact along.invariant (I := fun h => ∀ c, (h.scope c).Textual)
    (fun _ _ textual both => Heap.textual_act both.1 both.2 textual) start c

/-! ## Capturing everything -/

/-- Where nothing is bound, entered or left, names resolve as before. -/
theorem Heap.WellFormed.resolved_act {h : Heap} (hwf : h.WellFormed) {s : StackId}
    (hs : s.index < h.scopeStacks.size) {e : Event} (unbound : ∀ c, e.rebound? c = none)
    (still : e.enters s = false ∧ e.exits s = false) (name : String) :
    (e.act h).resolved s name = h.resolved s name := by
  refine resolved_congr ?_ ?_ name
  · rw [e.stack_act hs, still.1, still.2]
    rfl
  · intro c hc
    rw [e.scope_act ((hwf.sound s hs).chain_exist hc), unbound]
    rfl

/-- What a stack over scopes with texts lists is in strictly ascending order of names, and it is what
look-ups find. It is the one order that comparing the pairs yields, and no slots are compared for it.
A scope captured under the listed names lists the same, and every name resolves in a new stack over
that scope as it does in the old one. -/
theorem State.Reachable.sees_itself_captured {st : State} (reach : st.Reachable) {s : StackId}
    (hs : s.index < st.heap.scopeStacks.size)
    (textual : ∀ c ∈ (st.heap.stack s).chain, (st.heap.scope c).Textual) (maxDepth : Int)
    (memoryLimit : Option Int) :
    ∃ listed : List (String × SlotId),
      let pairs := fun es : List (String × SlotId) => es.map fun e => (Value.text e.1, e.2)
      s.visible.run st = (.ok (pairs listed), st) ∧
      (listed.Pairwise fun a b => a.1 < b.1) ∧
      (∀ n t, (n, t) ∈ listed ↔ (s.lookup (.text n)).run st = (.ok (some t), st)) ∧
      (∀ es, es.Perm listed → sortBy st.heap.lessPair (pairs es) = .ok (pairs listed)) ∧
      ∃ c st₁, (s.capture ((pairs listed).map (·.1))).run st = (.ok c, st₁) ∧
        c.enumerate.run st₁ = (.ok (pairs listed), st₁) ∧
        ∃ u st₂, (StackId.create (some c) maxDepth memoryLimit).run st₁ = (.ok u, st₂) ∧
          ∀ n, ∃ found, (u.lookup (.text n)).run st₂ = (.ok found, st₂) ∧
            (s.lookup (.text n)).run st₂ = (.ok found, st₂) ∧
            (s.lookup (.text n)).run st = (.ok found, st) := by
  have hwf := reach.wellFormed
  obtain ⟨m, sees, answers⟩ := StackId.exists_sees textual
  obtain ⟨c, st₁, captured, opened, inside, texts, bound⟩ := StackId.exists_captured answers
  obtain ⟨u, st₂, created, sees', founded⟩ :=
    StackId.sees_created inside texts bound maxDepth memoryLimit
  refine ⟨m.entries, sees.visible, m.sorted, sees.mem_iff, ?_, c, st₁, captured,
    ScopeId.run_enumerate texts bound, u, st₂, created, ?_⟩
  · intro es arranged
    exact st.heap.sortBy_pairs arranged
  · intro n
    refine ⟨m.get? n, sees'.lookup n, ?_, sees.lookup n⟩
    -- Neither the captured scope nor the new stack is in the way of the old stack.
    have first := hwf.resolved_act hs (e := .opened c (st.heap.closure s (m.entries.map (·.1))))
      (fun _ => rfl) ⟨rfl, rfl⟩ n
    have second := (hwf.addClosure s (m.entries.map (·.1))).resolved_act (s := s) hs
      (e := .founded u (some c) maxDepth memoryLimit) (fun _ => rfl) ⟨rfl, rfl⟩ n
    rw [StackId.run_lookup_text, founded, opened, answers]
    exact congrArg (fun found => (Except.ok found, st₂)) (second.trans first)

/-- Makes a stack over an empty base with a name that is hidden further in, and fills the base
afterwards. -/
def fillingBase : Program Unit := do
  let base ← .exec (.createScope .empty)
  let s ← .exec (.createStack (some base) 3 none)
  .exec (.defineMut s (.text "x") (.int 1))
  .exec (.defineConst s (.text "y") (.int 2))
  .exec (.enter s)
  .exec (.defineMut s (.text "x") (.int 3))
  .exec (.scopeDefineConst base (.text "y") (.int 4))
  .exec (.scopeDefineConst base (.text "a") (.int 5))

theorem State.Reachable.sees_itself_captured_fillingBase :
    ∃ st st₁ st₂, st = (fillingBase.toAction.run .initial).2 ∧
      (StackId.visible ⟨0⟩).run st =
        (.ok [(.text "a", ⟨4⟩), (.text "x", ⟨2⟩), (.text "y", ⟨1⟩)], st) ∧
      (StackId.capture ⟨0⟩ [.text "a", .text "x", .text "y"]).run st = (.ok ⟨3⟩, st₁) ∧
      (StackId.create (some ⟨3⟩) 1 none).run st₁ = (.ok ⟨1⟩, st₂) ∧
      (StackId.lookup ⟨1⟩ (.text "x")).run st₂ = (.ok (some ⟨2⟩), st₂) := by
  obtain ⟨st, hst⟩ : ∃ st, st = (fillingBase.toAction.run .initial).2 := ⟨_, rfl⟩
  have reach : st.Reachable := by
    rw [hst]
    exact ⟨_, .one .initial fillingBase, by decide +kernel⟩
  have there : (⟨0⟩ : StackId).index < st.heap.scopeStacks.size := by
    rw [hst]
    decide +kernel
  have texts : ∀ c ∈ (st.heap.stack ⟨0⟩).chain, (st.heap.scope c).Textual := by
    rw [hst]
    decide +kernel
  have shown : ((StackId.visible ⟨0⟩).run st).1 =
      .ok [(.text "a", ⟨4⟩), (.text "x", ⟨2⟩), (.text "y", ⟨1⟩)] := by
    rw [hst]
    decide +kernel
  have third : ((StackId.capture ⟨0⟩ [.text "a", .text "x", .text "y"]).run st).1 = .ok ⟨3⟩ := by
    rw [hst]
    decide +kernel
  have one : ((StackId.capture ⟨0⟩ [.text "a", .text "x", .text "y"]).run
      st).2.heap.scopeStacks.size = 1 := by
    rw [hst]
    decide +kernel
  have second : ((StackId.lookup ⟨0⟩ (.text "x")).run st).1 = .ok (some ⟨2⟩) := by
    rw [hst]
    decide +kernel
  obtain ⟨listed, visible, -, -, -, c, st₁, captured, -, u, st₂, created, resolved⟩ :=
    reach.sees_itself_captured there texts 1 none
  rw [visible] at shown
  rw [Except.ok.inj shown] at visible captured
  simp only [List.map_cons, List.map_nil] at captured
  rw [captured] at third one
  obtain ⟨found, looked, -, before⟩ := resolved "x"
  rw [before] at second
  have scope : c = ⟨3⟩ := Except.ok.inj third
  have stack : u = ⟨1⟩ := by
    have new : (⟨st₁.heap.scopeStacks.size⟩ : StackId) = u :=
      Except.ok.inj (congrArg Prod.fst created)
    rw [← new, one]
  subst scope stack
  rw [Except.ok.inj second] at looked
  exact ⟨st, st₁, st₂, hst, visible, captured, created, looked⟩

end LexEnv
