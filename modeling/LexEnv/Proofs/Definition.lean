import LexEnv.Proofs.Shallow

/-!
# Definitions

A definition through a stack goes to its active scope, which is none of its other scopes and not its
base (`Stack.Sound.nodup_own`, `Stack.Sound.base_not_mem`). So it changes one binding of one scope:
every other scope, every stack and every slot that exists stays as it is, whoever shares them
(`Heap.Redefined`). Handles of the slot that was hidden or replaced go on reading it.

Main statement: `State.Reachable.definition_is_local`.
-/

namespace LexEnv

open LexEnv.Action

/-! ## The scopes of one stack -/

namespace Stack.Sound

variable {st : Stack} {n : Nat}

theorem nodup_own (h : st.Sound n) : st.own.Nodup := by
  refine h.descending.imp ?_
  rintro c d lt rfl
  exact Nat.lt_irrefl _ lt

theorem base_not_mem (h : st.Sound n) {b : ScopeId} (hb : st.base = some b) : b ∉ st.own :=
  fun mem => h.base_ne mem hb

end Stack.Sound

/-! ## The kinds of definitions -/

/-- What a name is defined to be: a constant or a variable with a value, or a slot that is there. -/
inductive Definition where
  | constant (v : Value)
  | mutable (v : Value)
  | shared (t : SlotId)

namespace Definition

/-- Defines a name in a stack. -/
def perform (d : Definition) (s : StackId) (name : String) : Action Unit :=
  match d with
  | .constant v => s.defineConst (.text name) v
  | .mutable v => s.defineMut (.text name) v
  | .shared t => s.bind (.text name) t

/-- The slot that a definition makes, if it makes one. -/
def made? : Definition → Option Slot
  | .constant v => some ⟨.constant, v⟩
  | .mutable v => some ⟨.mutable, v⟩
  | .shared _ => none

/-- The slot that the name is bound to, and the heap with that slot. -/
def prepare (d : Definition) (h : Heap) : SlotId × Heap :=
  match d with
  | .constant v => h.addSlot ⟨.constant, v⟩
  | .mutable v => h.addSlot ⟨.mutable, v⟩
  | .shared t => (t, h)

variable (d : Definition) (h : Heap)

@[simp] theorem scope_prepare (c : ScopeId) : (d.prepare h).2.scope c = h.scope c := by
  cases d <;> rfl

@[simp] theorem stack_prepare (s : StackId) : (d.prepare h).2.stack s = h.stack s := by
  cases d <;> rfl

@[simp] theorem scopes_prepare : (d.prepare h).2.scopes = h.scopes := by
  cases d <;> rfl

theorem slot_prepare {t : SlotId} (ht : t.index < h.slots.size) :
    (d.prepare h).2.slot t = h.slot t := by
  cases d with
  | constant v => exact Heap.slot_addSlot_of_lt h _ ht
  | mutable v => exact Heap.slot_addSlot_of_lt h _ ht
  | shared t' => rfl

/-- What is made is new. -/
theorem prepare_of_made {x : Slot} (made : x ∈ d.made?) :
    (d.prepare h).1 = ⟨h.slots.size⟩ ∧ (d.prepare h).2.slot ⟨h.slots.size⟩ = x := by
  cases d with
  | constant v =>
    cases made
    exact ⟨rfl, Heap.slot_addSlot_new h _ rfl⟩
  | mutable v =>
    cases made
    exact ⟨rfl, Heap.slot_addSlot_new h _ rfl⟩
  | shared t => cases made

/-- A definition never fails. -/
theorem run_perform (s : StackId) (name : String) (st : State) :
    ∃ trace, (d.perform s name).run st = (.ok (), { st with
      heap := (d.prepare st.heap).2.setScope (st.heap.stack s).active
        ((st.heap.scope (st.heap.stack s).active).insert name (d.prepare st.heap).1)
      trace }) := by
  cases d with
  | constant v =>
    exact s.run_define_text st (.definedConstant · (st.heap.stack s).depth) .constant name v
  | mutable v =>
    exact s.run_define_text st (.definedVariable · (st.heap.stack s).depth) .mutable name v
  | shared t => exact s.run_bind_text st name t

end Definition

/-! ## What a definition changes -/

/-- Of two heaps, one is the other with a name of one scope bound to some slot. Slots may be new, but
those that were there are as they were. -/
structure Heap.Redefined (h h' : Heap) (c : ScopeId) (name : String) (t : SlotId) : Prop where
  binding : ∀ (k : Key) (t' : SlotId), (k, t') ∈ (h'.scope c).entries ↔
    if k = .text name then t' = t else (k, t') ∈ (h.scope c).entries
  scope : ∀ d, d ≠ c → h'.scope d = h.scope d
  stack : ∀ s, h'.stack s = h.stack s
  slot : ∀ u : SlotId, u.index < h.slots.size → h'.slot u = h.slot u

/-- A slot that no scope bound is bound where a name was bound to it, and nowhere else. -/
theorem Heap.Redefined.only {h h' : Heap} {c : ScopeId} {name : String} {t : SlotId}
    (redefined : h.Redefined h' c name t) (new : ∀ d k, (k, t) ∉ (h.scope d).entries)
    {d : ScopeId} {k : Key} (mem : (k, t) ∈ (h'.scope d).entries) : d = c ∧ k = .text name := by
  by_cases here : d = c
  · subst here
    refine ⟨rfl, ?_⟩
    by_contra other
    have old := (redefined.binding k t).mp mem
    rw [if_neg other] at old
    exact new d k old
  · rw [redefined.scope d here] at mem
    exact absurd mem (new d k)

namespace Heap.WellFormed

variable {h : Heap} (hwf : h.WellFormed) {s : StackId} (hs : s.index < h.scopeStacks.size)

include hwf hs

/-- Defining a name changes the binding of the active scope under this name. -/
theorem redefined (d : Definition) (name : String) :
    h.Redefined ((d.prepare h).2.setScope (h.stack s).active
      ((h.scope (h.stack s).active).insert name (d.prepare h).1))
      (h.stack s).active name (d.prepare h).1 where
  binding k t := by
    have exist := (hwf.sound s hs).exist _ (Stack.active_mem_own _)
    rw [scope_setScope _ _ _ _ (by simpa using exist), if_pos rfl]
    exact Table.mem_insert
  scope c hc := by
    rw [scope_setScope_of_ne _ _ hc, d.scope_prepare]
  stack r := d.stack_prepare h r
  slot t ht := d.slot_prepare h ht

/-- Afterwards the name resolves to its slot, and every other name as before. -/
theorem resolved_defined (d : Definition) (name n : String) :
    ((d.prepare h).2.setScope (h.stack s).active
      ((h.scope (h.stack s).active).insert name (d.prepare h).1)).resolved s n =
        if n = name then some (d.prepare h).1 else h.resolved s n := by
  have once : ([(name, (d.prepare h).1)].map (·.1)).Nodup := List.pairwise_singleton _ name
  have bound := hwf.resolved_insertAll hs once n
  rw [NameMap.find?, NameMap.find?] at bound
  have same : ((d.prepare h).2.setScope (h.stack s).active
      ((h.scope (h.stack s).active).insert name (d.prepare h).1)).resolved s n =
      (h.setScope (h.stack s).active ((h.scope (h.stack s).active).insertAll
        [(name, (d.prepare h).1)])).resolved s n := by
    cases d <;> rfl
  rw [same, bound]
  by_cases here : n = name
  · simp [here]
  · simp [here, Ne.symm here]

end Heap.WellFormed

/-- In a reachable state the scopes of a stack are pairwise different, and none of them is its base.
A definition therefore changes the binding of one name in the active scope and nothing else that was
there. Afterwards the name resolves to its slot, which is new and bound nowhere else if the definition
makes it; every other name resolves as before, and the slot that the name had reads as before. -/
theorem State.Reachable.definition_is_local {st : State} (reach : st.Reachable) {s : StackId}
    (hs : s.index < st.heap.scopeStacks.size) (d : Definition) (name : String) :
    ((st.heap.stack s).own.Nodup ∧ ∀ b ∈ (st.heap.stack s).base, b ∉ (st.heap.stack s).own) ∧
    ∃ t st', (d.perform s name).run st = (.ok (), st') ∧
      st.heap.Redefined st'.heap (st.heap.stack s).active name t ∧
      (s.lookup (.text name)).run st' = (.ok (some t), st') ∧
      (∀ u, d = .shared u → t = u) ∧
      (∀ x ∈ d.made?, st.heap.slots.size ≤ t.index ∧ st'.heap.slot t = x ∧
        ∀ c k, (k, t) ∈ (st'.heap.scope c).entries →
          c = (st.heap.stack s).active ∧ k = .text name) ∧
      (∀ n, n ≠ name →
        ((s.lookup (.text n)).run st').1 = ((s.lookup (.text n)).run st).1) ∧
      ∀ old, (s.lookup (.text name)).run st = (.ok (some old), st) →
        (old.get.run st').1 = (old.get.run st).1 := by
  have hwf := reach.wellFormed
  have sound := hwf.sound s hs
  obtain ⟨trace, performed⟩ := d.run_perform s name st
  have redefined := hwf.redefined hs d name
  have resolved := hwf.resolved_defined hs d name
  refine ⟨⟨sound.nodup_own, fun b => sound.base_not_mem⟩, (d.prepare st.heap).1, _, performed,
    redefined, ?_, ?_, ?_, ?_, ?_⟩
  · rw [s.run_lookup_text, resolved, if_pos rfl]
  · rintro u rfl
    rfl
  · intro x made
    obtain ⟨new, holds⟩ := d.prepare_of_made st.heap made
    refine ⟨Nat.le_of_eq (congrArg SlotId.index new).symm, ?_, ?_⟩
    · rw [new]
      exact holds
    · intro c k mem
      refine redefined.only ?_ mem
      intro c' k' old
      have there := hwf.slots c' _ old
      rw [new] at there
      exact Nat.lt_irrefl _ there
  · intro n ne
    rw [s.run_lookup_text, s.run_lookup_text, resolved, if_neg ne]
  · intro old found
    rw [s.run_lookup_text] at found
    have there := hwf.resolved_exists (Except.ok.inj (congrArg Prod.fst found))
    exact congrArg (fun x : Slot => Except.ok x.value) (redefined.slot old there)

/-- Makes a stack over a base and a copy of its outer scope, with a name bound in all of them. -/
def redefining : Program Unit := do
  let base ← .exec (.createScope .empty)
  .exec (.scopeDefineConst base (.text "x") (.int 0))
  let s ← .exec (.createStack (some base) 3 none)
  .exec (.defineMut s (.text "x") (.int 1))
  let _ ← .exec (.scopeCopy (← .exec (.active s)))
  .exec (.enter s)
  .exec (.defineMut s (.text "x") (.int 2))

theorem State.Reachable.definition_is_local_redefining :
    ∃ st st', st = (redefining.toAction.run .initial).2 ∧
      (StackId.defineConst ⟨0⟩ (.text "x") (.int 3)).run st = (.ok (), st') ∧
      (st.heap.stack ⟨0⟩).own = [⟨3⟩, ⟨1⟩] ∧
      (StackId.lookup ⟨0⟩ (.text "x")).run st' = (.ok (some ⟨3⟩), st') ∧
      (∀ c, c ≠ ⟨3⟩ → st'.heap.scope c = st.heap.scope c) ∧
      ((SlotId.get ⟨2⟩).run st').1 = .ok (.int 2) := by
  obtain ⟨st, hst⟩ : ∃ st, st = (redefining.toAction.run .initial).2 := ⟨_, rfl⟩
  have reach : st.Reachable := by
    rw [hst]
    exact ⟨_, .one .initial redefining, by decide +kernel⟩
  have there : (⟨0⟩ : StackId).index < st.heap.scopeStacks.size := by
    rw [hst]
    decide +kernel
  have own : (st.heap.stack ⟨0⟩).own = [⟨3⟩, ⟨1⟩] := by
    rw [hst]
    decide +kernel
  have before : ((StackId.lookup ⟨0⟩ (.text "x")).run st).1 = .ok (some ⟨2⟩) := by
    rw [hst]
    decide +kernel
  have value : ((SlotId.get ⟨2⟩).run st).1 = .ok (.int 2) := by
    rw [hst]
    decide +kernel
  have after : ((StackId.lookup ⟨0⟩ (.text "x")).run
      ((StackId.defineConst ⟨0⟩ (.text "x") (.int 3)).run st).2).1 = .ok (some ⟨3⟩) := by
    rw [hst]
    decide +kernel
  obtain ⟨-, t, st', performed, redefined, looked, -, -, -, kept⟩ :=
    reach.definition_is_local there (.constant (.int 3)) "x"
  have active : (st.heap.stack ⟨0⟩).active = ⟨3⟩ := List.head_eq_of_cons_eq own
  rw [show (StackId.defineConst ⟨0⟩ (.text "x") (.int 3)).run st = (.ok (), st') from performed,
    looked] at after
  rw [Except.ok.inj after] at looked
  refine ⟨st, st', hst, performed, own, looked, ?_, ?_⟩
  · intro c hc
    exact redefined.scope c (active ▸ hc)
  · rw [kept ⟨2⟩ (Prod.ext before rfl), value]

end LexEnv
