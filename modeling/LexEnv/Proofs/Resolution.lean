import LexEnv.Proofs.Separation

/-!
# Resolving names

A look-up of a text never fails and never changes anything, so what a name means in a stack is a
function of the heap (`Heap.resolved`), and of no more of it than the stack and the bindings of its
scopes (`Heap.resolved_congr`).
-/

namespace LexEnv

variable {s : StackId}

/-- The slot that a text resolves to in a stack. -/
def Heap.resolved (h : Heap) (s : StackId) (name : String) : Option SlotId :=
  (h.stack s).chain.findSome? fun c => (h.scope c).get? name

theorem StackId.run_lookup_text (s : StackId) (name : String) (st : State) :
    (s.lookup (.text name)).run st = (.ok (st.heap.resolved s name), st) := by
  rw [run_lookup, Heap.key_text]
  exact congrArg (·, st) (Heap.resolve_text st.heap name _)

/-- A search through scopes depends on what these scopes bind. -/
theorem Heap.findSome?_congr {h h' : Heap} {chain : List ScopeId}
    (bound : ∀ c ∈ chain, h'.scope c = h.scope c) (name : String) :
    (chain.findSome? fun c => (h'.scope c).get? name) =
      chain.findSome? fun c => (h.scope c).get? name := by
  induction chain with
  | nil => rfl
  | cons c chain ih =>
    rw [List.findSome?_cons, List.findSome?_cons, bound c List.mem_cons_self,
      ih fun c hc => bound c (List.mem_cons_of_mem _ hc)]

/-- Names resolve alike in heaps where a stack has the same scopes with the same bindings. -/
theorem Heap.resolved_congr {h h' : Heap} (same : h'.stack s = h.stack s)
    (bound : ∀ c ∈ (h.stack s).chain, h'.scope c = h.scope c) (name : String) :
    h'.resolved s name = h.resolved s name := by
  unfold resolved
  rw [same]
  exact findSome?_congr bound name

/-- Names that are bound in the active scope of a stack resolve to what they were bound to, and
other names as before. -/
theorem Heap.WellFormed.resolved_insertAll {h : Heap} (hwf : h.WellFormed)
    (hs : s.index < h.scopeStacks.size) {es : List (String × SlotId)}
    (distinct : (es.map (·.1)).Nodup) (name : String) :
    (h.setScope (h.stack s).active ((h.scope (h.stack s).active).insertAll es)).resolved s name =
      (NameMap.find? name es).or (h.resolved s name) := by
  have sound := hwf.sound s hs
  have outer : ∀ c ∈ (h.stack s).suspended ++ (h.stack s).base.toList,
      c ≠ (h.stack s).active := by
    rintro c hc rfl
    rcases List.mem_append.mp hc with mem | base
    · exact sound.active_not_mem mem
    · exact sound.base_ne (Stack.active_mem_own _) (Option.mem_toList.mp base)
  unfold resolved
  show ((h.stack s).active :: ((h.stack s).suspended ++ (h.stack s).base.toList)).findSome? _ =
    (NameMap.find? name es).or
      (((h.stack s).active :: ((h.stack s).suspended ++ (h.stack s).base.toList)).findSome? _)
  rw [List.findSome?_cons, List.findSome?_cons,
    scope_setScope h _ _ _ (sound.exist _ (Stack.active_mem_own _)), if_pos rfl,
    Table.get?_insertAll distinct, findSome?_congr fun c hc => scope_setScope_of_ne h _ (outer c hc)]
  cases NameMap.find? name es with
  | none => rfl
  | some t => rfl

/-- A name that resolves does so to a slot that some scope of the stack binds. -/
theorem Heap.WellFormed.resolved_exists {h : Heap} (hwf : h.WellFormed) {name : String}
    {t : SlotId} (found : h.resolved s name = some t) : t.index < h.slots.size := by
  obtain ⟨c, -, bound⟩ := List.exists_of_findSome?_eq_some found
  exact hwf.slots c _ (Table.mem_of_get? bound)

end LexEnv
