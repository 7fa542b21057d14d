import LexEnv.Proofs.ConstantLock
import LexEnv.Proofs.Nesting
import LexEnv.Proofs.Resolution
import Mathlib.Control.Monad.Basic

/-!
# Closures

Capturing names makes a scope that binds the slots to which the names resolve at that moment. The
scope stays as it is while nothing is defined in it, and so do its copies, so that binding its slots
in some other stack at some later moment brings back what the names meant when they were captured:
the same slots, with what they hold by then.
-/

namespace LexEnv

open LexEnv.Action

/-! ## The bindings of a closure -/

namespace Heap

/-- The bindings that capturing some texts yields. -/
def closure (h : Heap) (s : StackId) (names : List String) : Scope :=
  names.foldl (fun bindings name =>
    match h.resolved s name with
    | some t => bindings.insert name t
    | none => bindings) .empty

variable (h : Heap) (s : StackId) (names : List String)

/-- Capturing texts never fails. -/
theorem captured_text :
    h.captured (h.stack s).chain (names.map .text) = .ok (h.closure s names) := by
  unfold captured closure
  generalize (Table.empty : Scope) = bindings
  induction names generalizing bindings with
  | nil => rfl
  | cons name names ih =>
    rw [List.map_cons, List.foldlM_cons, List.foldl_cons, key_text]
    show (h.resolve (.text name) (h.stack s).chain >>= fun found => _) >>= _ = _
    rw [resolve_text]
    show (match h.resolved s name with
      | some t => h.put (.text name) t bindings
      | none => pure bindings) >>= _ = _
    cases h.resolved s name with
    | none => exact ih bindings
    | some t =>
      simp only [put_text]
      exact ih (bindings.insert name t)

/-- A closure binds the captured names to what they resolve to, and nothing else. -/
theorem get?_closure (name : String) :
    (h.closure s names).get? name = if name ∈ names then h.resolved s name else none := by
  have general : ∀ bindings : Scope, (names.foldl (fun bindings name =>
      match h.resolved s name with
      | some t => bindings.insert name t
      | none => bindings) bindings).get? name =
        (if name ∈ names then h.resolved s name else none).or (bindings.get? name) := by
    induction names with
    | nil => intro bindings; rfl
    | cons n names ih =>
      intro bindings
      rw [List.foldl_cons, ih]
      by_cases here : name = n
      · subst here
        cases found : h.resolved s name with
        | none => simp
        | some t => by_cases later : name ∈ names <;> simp [later]
      · cases found : h.resolved s n <;> simp [here]
  rw [closure, general, Table.get?_empty, Option.or_none]

theorem textual_closure : (h.closure s names).Textual := by
  unfold closure
  have start : (Table.empty : Scope).Textual := Table.textual_empty
  generalize (Table.empty : Scope) = bindings at start
  induction names generalizing bindings with
  | nil => exact start
  | cons name names ih =>
    rw [List.foldl_cons]
    cases h.resolved s name with
    | none => exact ih bindings start
    | some t => exact ih _ (start.insert name t)

/-- Every slot of a closure is one that a captured name resolves to. -/
theorem exists_resolved_of_mem_closure {e : Key × SlotId}
    (he : e ∈ (h.closure s names).entries) : ∃ name, h.resolved s name = some e.2 := by
  have start : ∀ k, (k, e.2) ∉ (Table.empty : Scope).entries := fun k => List.not_mem_nil
  unfold closure at he
  generalize (Table.empty : Scope) = bindings at start he
  induction names generalizing bindings with
  | nil => exact absurd he (start e.1)
  | cons name names ih =>
    rw [List.foldl_cons] at he
    cases found : h.resolved s name with
    | none =>
      rw [found] at he
      exact ih bindings start he
    | some t =>
      rw [found] at he
      by_cases same : e.2 = t
      · exact ⟨name, by rw [found, same]⟩
      · refine ih (bindings.insert name t) (fun k mem => ?_) he
        rcases Table.mem_put (put_text h name t bindings) mem with eq | ⟨k', old⟩
        · exact same eq
        · exact start k' old

end Heap

/-- Capturing texts makes one new scope and changes nothing else. -/
theorem StackId.run_capture_text (s : StackId) (names : List String) (st : State) :
    (s.capture (names.map .text)).run st = (.ok ⟨st.heap.scopes.size⟩,
      { st with heap := (st.heap.addScope (st.heap.closure s names)).2 }) := by
  rw [run_capture, run_inspect_bind, Heap.captured_text]
  rfl

/-! ## Copies -/

/-- A family of scopes, with the copy that an event makes of one of them. -/
def Event.joined (family : List ScopeId) : Event → List ScopeId
  | .copied c copy => if c ∈ family then copy :: family else family
  | _ => family

/-- A scope with the copies that some events make of it, and of its copies. -/
def copies (c : ScopeId) (es : List Event) : List ScopeId := es.foldl Event.joined [c]

theorem Event.mem_joined {e : Event} {family : List ScopeId} {k : ScopeId} :
    k ∈ e.joined family ↔ k ∈ family ∨ ∃ c ∈ family, e = .copied c k := by
  cases e with
  | copied c copy =>
    show (k ∈ if c ∈ family then copy :: family else family) ↔ _
    by_cases mem : c ∈ family
    · rw [if_pos mem, List.mem_cons, or_comm]
      refine or_congr_right ⟨?_, ?_⟩
      · rintro rfl
        exact ⟨c, mem, rfl⟩
      · rintro ⟨d, -, same⟩
        injection same with _ same
        exact same.symm
    · rw [if_neg mem]
      refine ⟨Or.inl, fun either => either.resolve_right ?_⟩
      rintro ⟨d, mem', same⟩
      injection same with same
      exact mem (same ▸ mem')
  | _ => simp [joined]

theorem mem_foldl_joined {family : List ScopeId} {k : ScopeId} (hk : k ∈ family)
    (es : List Event) : k ∈ es.foldl Event.joined family := by
  induction es generalizing family with
  | nil => exact hk
  | cons e es ih => exact ih (Event.mem_joined.mpr (Or.inl hk))

/-- The scopes of a family in which nothing is defined, and their copies, bind what they bound. -/
theorem Heap.family_after {h : Heap} {bindings : Scope} {family : List ScopeId} {es : List Event}
    (valid : h.Along (fun h e => e.Valid h) es)
    (same : ∀ k ∈ family, k.index < h.scopes.size ∧ h.scope k = bindings)
    (untouched : ∀ k ∈ es.foldl Event.joined family, ∀ e ∈ es, e.rebound? k = none) :
    ∀ k ∈ es.foldl Event.joined family,
      k.index < (h.after es).scopes.size ∧ (h.after es).scope k = bindings := by
  induction es generalizing h family with
  | nil => exact same
  | cons e es ih =>
    refine ih valid.2 (fun k hk => ?_) fun k hk e' he' =>
      untouched k hk e' (List.mem_cons_of_mem _ he')
    rcases Event.mem_joined.mp hk with old | ⟨c, hc, rfl⟩
    · obtain ⟨exist, bound⟩ := same k old
      refine ⟨Nat.lt_of_lt_of_le exist (e.scopes_size_le h), ?_⟩
      rw [e.scope_act exist, untouched k (mem_foldl_joined hk es) e List.mem_cons_self]
      exact bound
    · have new : k.index = h.scopes.size := valid.1
      refine ⟨?_, ?_⟩
      · rw [new]
        exact Nat.lt_of_lt_of_eq (Nat.lt_succ_self _) (Array.size_push _).symm
      · exact (scope_addScope_new h (h.scope c) new).trans (same c hc).2

/-! ## Binding texts -/

theorem Heap.get?_setScope_insert {h : Heap} {c : ScopeId} (inside : c.index < h.scopes.size)
    (bindings : Scope) (name n : String) (t : SlotId) :
    ((h.setScope c (bindings.insert name t)).scope c).get? n =
      if n = name then some t else bindings.get? n := by
  rw [scope_setScope h c c _ inside, if_pos rfl, Table.get?_insert]

namespace ScopeId

variable (c : ScopeId) (st : State) (name : String)

theorem run_bind_text (t : SlotId) : (c.bind (.text name) t).run st =
    (.ok (), { st with heap := st.heap.setScope c ((st.heap.scope c).insert name t) }) := by
  rw [bind, run_inspect_bind, Heap.key_text]
  show (c.bindKey _ _).run _ = _
  rw [bindKey, run_inspect_bind, Heap.put_text]
  rfl

/-- Defining a text never fails: it binds the text to a new slot. -/
theorem run_define_text (kind : SlotKind) (v : Value) :
    (c.define kind (.text name) v).run st = (.ok (), { st with
      heap := (st.heap.addSlot ⟨kind, v⟩).2.setScope c
        ((st.heap.scope c).insert name ⟨st.heap.slots.size⟩) }) := by
  rw [define, run_inspect_bind, Heap.key_text]
  show (c.bindKey _ _).run _ = _
  rw [bindKey, run_inspect_bind, Heap.put_text]
  rfl

end ScopeId

/-! ## Adopting bindings -/

namespace StackId

/-- Binds names to slots in the active scope, one after the other. -/
def bindAll (s : StackId) (es : List (Value × SlotId)) : Action Unit :=
  es.forM fun e => s.bind e.1 e.2

/-- Binds every name of a scope in the active scope of a stack, to the slot that it has there. -/
def adopt (s : StackId) (c : ScopeId) : Action Unit := do
  s.bindAll (← c.enumerate)

variable (s : StackId) (st : State)

theorem run_bind_text (name : String) (t : SlotId) :
    ∃ trace, (s.bind (.text name) t).run st = (.ok (), { st with
      heap := st.heap.setScope (st.heap.stack s).active
        ((st.heap.scope (st.heap.stack s).active).insert name t)
      trace }) := by
  obtain ⟨trace, recorded⟩ := exists_run_recordShown
    (.boundSlot · (st.heap.stack s).depth) (·.display (.text name)) st
  refine ⟨trace, ?_⟩
  rw [bind, view, run_read_bind, run_recordShown_bind, recorded]
  exact ScopeId.run_bind_text _ _ name t

theorem run_bindAll_text (ha : (st.heap.stack s).active.index < st.heap.scopes.size)
    (es : List (String × SlotId)) :
    ∃ trace, (s.bindAll (es.map fun (name, t) => (.text name, t))).run st = (.ok (), { st with
      heap := st.heap.setScope (st.heap.stack s).active
        ((st.heap.scope (st.heap.stack s).active).insertAll es)
      trace }) := by
  induction es generalizing st with
  | nil => exact ⟨st.trace, by simp [bindAll, Table.insertAll]⟩
  | cons e es ih =>
    obtain ⟨name, t⟩ := e
    obtain ⟨trace, first⟩ := s.run_bind_text st name t
    obtain ⟨trace', rest⟩ := ih { st with
      heap := st.heap.setScope (st.heap.stack s).active
        ((st.heap.scope (st.heap.stack s).active).insert name t)
      trace } (by simpa using ha)
    refine ⟨trace', ?_⟩
    show ((s.bind (.text name) t >>= fun _ => s.bindAll _).run st) = _
    rw [run_bind, first]
    simp only
    rw [rest]
    have active : ∀ x, ((st.heap.setScope (st.heap.stack s).active x).scope
        (st.heap.stack s).active) = x := fun x =>
      (Heap.scope_setScope st.heap _ _ x ha).trans (if_pos rfl)
    simp only [Heap.stack_setScope, active, Heap.setScope_setScope]
    rfl

/-- Adopting the texts of a scope never fails. Afterwards each of them resolves to its slot, and
every other name to what it resolved to before. -/
theorem adopt_resolves {s : StackId} {st : State} (hwf : st.heap.WellFormed)
    (hs : s.index < st.heap.scopeStacks.size) {c : ScopeId}
    (textual : (st.heap.scope c).Textual) :
    ∃ st', (s.adopt c).run st = (.ok (), st') ∧ st'.heap.slots = st.heap.slots ∧
      ∀ name, st'.heap.resolved s name =
        ((st.heap.scope c).get? name).or (st.heap.resolved s name) := by
  obtain ⟨m, listed, same⟩ := textual.ascending st.heap.less
  have exist := (hwf.sound s hs).exist _ (Stack.active_mem_own _)
  obtain ⟨trace, bound⟩ := s.run_bindAll_text st exist m.entries
  refine ⟨{ st with
    heap := st.heap.setScope (st.heap.stack s).active
      ((st.heap.scope (st.heap.stack s).active).insertAll m.entries)
    trace }, ?_, rfl, fun name => ?_⟩
  · rw [adopt, ScopeId.enumerate, run_inspect_bind, Heap.enumerate, listed]
    exact bound
  · rw [hwf.resolved_insertAll hs m.nodup_names, ← same]
    rfl

end StackId

/-! ## What a name denotes -/

/-- A name stands for a slot in a stack. It is read as the slot is. What is assigned to it is seen
by every scope and stack that has a name for the slot, and is refused if the slot is not mutable. -/
structure StackId.Denotes (s : StackId) (name : String) (t : SlotId) (x : Slot) (st : State) :
    Prop where
  lookup : (s.lookup (.text name)).run st = (.ok (some t), st)
  get : (s.get (.text name)).run st = (.ok x.value, st)
  assign : x.kind = .mutable → ∀ v, ∃ st', (s.assign (.text name) v).run st = (.ok (), st') ∧
    t.get.run st' = (.ok v, st') ∧
    (∀ (c : ScopeId) (n : String), (c.lookup (.text n)).run st = (.ok (some t), st) →
      (c.lookup (.text n)).run st' = (.ok (some t), st')) ∧
    ∀ (r : StackId) (n : String), (r.lookup (.text n)).run st = (.ok (some t), st) →
      (r.get (.text n)).run st' = (.ok v, st')
  refuse : x.kind ≠ .mutable → ∀ v,
    (s.assign (.text name) v).Refuses (x.kind.refusal "set" v) st

theorem ScopeId.run_lookup_text (c : ScopeId) (name : String) (st : State) :
    (c.lookup (.text name)).run st = (.ok ((st.heap.scope c).get? name), st) :=
  congrArg (·, st) (Heap.find?_text st.heap name (st.heap.scope c))

namespace StackId

variable {s : StackId} {st : State} {name : String} {t : SlotId}

theorem run_get_text (found : st.heap.resolved s name = some t) :
    (s.get (.text name)).run st = (.ok (st.heap.slot t).value, st) := by
  rw [get, run_bind, resolve, run_bind, run_lookup_text, found]
  rfl

/-- A name denotes the slot that it resolves to. -/
theorem denotes_of_resolved (ht : t.index < st.heap.slots.size)
    (found : st.heap.resolved s name = some t) : s.Denotes name t (st.heap.slot t) st := by
  have looked : (s.lookup (.text name)).run st = (.ok (some t), st) := by
    rw [run_lookup_text, found]
  refine ⟨looked, run_get_text found, fun hk v => ?_, fun hk v => ?_⟩
  · have written : (st.heap.setSlot t { st.heap.slot t with value := v }).slot t =
        { st.heap.slot t with value := v } :=
      (Heap.slot_setSlot st.heap t t _ ht).trans (if_pos rfl)
    refine ⟨((t.store v).run st).2, ?_, ?_, fun c n bound => ?_, fun r n other => ?_⟩
    · rw [run_assign s st v looked, SlotId.run_set_mutable hk]
      rfl
    · exact congrArg (fun x : Slot => (Except.ok x.value, ((t.store v).run st).2)) written
    · rw [ScopeId.run_lookup_text] at bound ⊢
      injection bound with bound
      exact congrArg (·, _) bound
    · rw [run_lookup_text] at other
      injection other with other
      injection other with other
      have got := @run_get_text r ((t.store v).run st).2 n t other
      refine got.trans ?_
      exact congrArg (fun x : Slot => (Except.ok x.value, ((t.store v).run st).2)) written
  · obtain ⟨trace, refused⟩ := SlotId.refuses_set hk v
    exact ⟨trace, (run_assign s st v looked).trans refused⟩

end StackId

/-! ## Lexical scope -/

/-- A run in which nothing is defined in a given scope, nor in any copy that the run makes of it. -/
structure State.RunBeside (c : ScopeId) (st : State) (es : List Event) (st' : State) : Prop where
  run : st.Run es st'
  grounded : st.heap.Grounded es
  untouched : ∀ k ∈ copies c es, ∀ e ∈ es, e.rebound? k = none

/-- After a run beside a scope, the scope and its copies bind what the scope bound before. -/
theorem State.RunBeside.kept {c : ScopeId} {st st' : State} {es : List Event}
    (beside : State.RunBeside c st es st') (exist : c.index < st.heap.scopes.size) {k : ScopeId}
    (hk : k ∈ copies c es) :
    k.index < st'.heap.scopes.size ∧ st'.heap.scope k = st.heap.scope c := by
  have evolved := beside.run.evolves
  have start : ∀ d ∈ [c], d.index < st.heap.scopes.size ∧ st.heap.scope d = st.heap.scope c := by
    intro d hd
    rw [List.mem_singleton.mp hd]
    exact ⟨exist, rfl⟩
  have kept := Heap.family_after evolved.valid start beside.untouched k hk
  rwa [Heap.scopes_congr evolved.reached, Heap.scope_congr evolved.reached] at kept

namespace Heap

variable {h : Heap} (s : StackId)

theorem scope_opened (h : Heap) (bindings : Scope) :
    (h.addScope bindings).2.scope ⟨h.scopes.size⟩ = bindings :=
  scope_addScope_new h bindings rfl

/-- Making the scope of a closure keeps a heap well-formed. -/
theorem WellFormed.addClosure (hwf : h.WellFormed) (names : List String) :
    (h.addScope (h.closure s names)).2.WellFormed := by
  have valid : (Event.opened ⟨h.scopes.size⟩ (h.closure s names)).Valid h := rfl
  refine hwf.act valid fun e he => ?_
  obtain ⟨name, found⟩ := h.exists_resolved_of_mem_closure s names he
  exact hwf.resolved_exists found

/-- What a closure lists depends only on which names are captured. -/
theorem enumerate_closure {h' h'' : Heap} {names names' : List String}
    (same : ∀ name, name ∈ names' ↔ name ∈ names) :
    h'.enumerate (h.closure s names') = h''.enumerate (h.closure s names) := by
  obtain ⟨m', listed', looked'⟩ := (h.textual_closure s names').ascending h'.less
  obtain ⟨m, listed, looked⟩ := (h.textual_closure s names).ascending h''.less
  have eq : m' = m := by
    refine NameMap.ext_get? fun name => ?_
    rw [looked', looked, get?_closure, get?_closure]
    simp only [same]
  rw [enumerate, enumerate, listed', listed, eq]

end Heap

/-- After a run beside a closure, adopting it or a copy of it in a scope just entered makes its names
resolve to its slots, which hold what the run wrote last. -/
theorem State.RunBeside.adopted {st st₂ st₃ : State} {es : List Event} {s u : StackId}
    {names : List String} {k : ScopeId}
    (beside : State.RunBeside ⟨st.heap.scopes.size⟩
      { st with heap := (st.heap.addScope (st.heap.closure s names)).2 } es st₂)
    (hwf : st.heap.WellFormed) (hk : k ∈ copies ⟨st.heap.scopes.size⟩ es)
    (entered : u.enter.run st₂ = (.ok (), st₃)) :
    st₂.heap.scope k = st.heap.closure s names ∧
    ∃ st₄, (u.adopt k).run st₃ = (.ok (), st₄) ∧
      (∀ name, st₄.heap.resolved u name =
        ((st.heap.closure s names).get? name).or (st₃.heap.resolved u name)) ∧
      ∀ t : SlotId, t.index < st.heap.slots.size → t.index < st₄.heap.slots.size ∧
        st₄.heap.slot t =
          ⟨(st.heap.slot t).kind, (lastWritten t es).getD (st.heap.slot t).value⟩ := by
  have evolved := beside.run.evolves
  have entering := StackId.evolves_entered .bare entered
  have hu := StackId.exists_of_enter entered
  obtain ⟨exist, bound⟩ := beside.kept (by simp [Heap.addScope]) hk
  rw [Heap.scope_opened] at bound
  -- The closure lies untouched in the state in which it is adopted.
  have hwf₂ := ((hwf.addClosure s names).after evolved.valid beside.grounded).congr evolved.reached
  have hwf₃ := (hwf₂.act entering.valid.1 trivial).congr entering.reached
  have still : st₃.heap.scope k = st.heap.closure s names := by
    rw [← Heap.scope_congr entering.reached]
    exact (Event.scope_act (.entered .bare u) exist).trans bound
  obtain ⟨st₄, adopted, slots, resolves⟩ := StackId.adopt_resolves hwf₃
    (entering.exists_stack hu) (still ▸ st.heap.textual_closure s names)
  refine ⟨bound, st₄, adopted, fun name => still ▸ resolves name, fun t ht => ?_⟩
  have unwritten : st₄.heap.slots = st₂.heap.slots :=
    slots.trans (Heap.slots_congr entering.reached).symm
  have slot : st₄.heap.slot t = st₂.heap.slot t := by
    unfold Heap.slot
    rw [unwritten]
  exact ⟨unwritten ▸ evolved.exists_slot ht, slot.trans (evolved.slot ht)⟩

/-- Capturing names in a reachable state makes one scope and changes neither bindings nor slots; the
order of names and their repetition do not show in it. After any run that defines nothing in the
scope or in its copies, binding all its names in a scope just entered on any stack brings back what
they meant: each that resolved denotes the same slot, with the last value written to it, and all
other names resolve as they would without it. -/
theorem State.Reachable.capture_denotes {st : State} (reach : st.Reachable) (s : StackId)
    (names : List String) :
    let captured := fun names : List String => (s.capture (names.map .text)).run st
    let c : ScopeId := ⟨st.heap.scopes.size⟩
    let st₁ := (captured names).2
    ((captured names).1 = .ok c ∧ st₁.heap.slots = st.heap.slots ∧
      st₁.heap.scopeStacks = st.heap.scopeStacks ∧
      ∀ d : ScopeId, d.index < st.heap.scopes.size → st₁.heap.scope d = st.heap.scope d) ∧
    (∀ names' : List String, (∀ n, n ∈ names' ↔ n ∈ names) → (captured names').1 = .ok c ∧
      (c.enumerate.run (captured names').2).1 = (c.enumerate.run st₁).1 ∧
      ∀ n : String, ((c.lookup (.text n)).run (captured names').2).1 =
        ((c.lookup (.text n)).run st₁).1) ∧
    ∀ {es : List Event} {st₂ : State}, State.RunBeside c st₁ es st₂ →
      ∀ k ∈ copies c es, ∀ (u : StackId) (st₃ : State), u.enter.run st₂ = (.ok (), st₃) →
        ∃ st₄, (u.adopt k).run st₃ = (.ok (), st₄) ∧
          (∀ n ∈ names, ∀ t, (s.lookup (.text n)).run st = (.ok (some t), st) →
            u.Denotes n t
              ⟨(st.heap.slot t).kind, (lastWritten t es).getD (st.heap.slot t).value⟩ st₄) ∧
          ∀ n, n ∉ names ∨ (s.lookup (.text n)).run st = (.ok none, st) →
            (k.lookup (.text n)).run st₂ = (.ok none, st₂) ∧
            ((u.lookup (.text n)).run st₄).1 = ((u.lookup (.text n)).run st₃).1 := by
  intro captured c st₁
  have hwf := reach.wellFormed
  have ran : ∀ names, captured names =
      (.ok c, { st with heap := (st.heap.addScope (st.heap.closure s names)).2 }) :=
    fun names => s.run_capture_text names st
  have here : st₁ = { st with heap := (st.heap.addScope (st.heap.closure s names)).2 } :=
    congrArg Prod.snd (ran names)
  rw [here]
  refine ⟨⟨congrArg Prod.fst (ran names), rfl, rfl, fun d hd => ?_⟩,
    fun names' same => ⟨congrArg Prod.fst (ran names'), ?_, fun n => ?_⟩, ?_⟩
  · exact Event.scope_act (.opened c (st.heap.closure s names)) hd
  · rw [ran names']
    show Heap.enumerate _ (Heap.scope _ _) = Heap.enumerate _ (Heap.scope _ _)
    rw [Heap.scope_opened, Heap.scope_opened]
    exact Heap.enumerate_closure s same
  · rw [ran names', ScopeId.run_lookup_text, ScopeId.run_lookup_text]
    simp only [c, Heap.scope_opened, Heap.get?_closure, same]
  · intro es st₂ beside k hk u st₃ entered
    obtain ⟨bound, st₄, adopted, resolves, slots⟩ := beside.adopted hwf hk entered
    refine ⟨st₄, adopted, fun n hn t found => ?_, fun n absent => ?_⟩
    · rw [s.run_lookup_text] at found
      injection found with found
      injection found with found
      obtain ⟨exist, slot⟩ := slots t (hwf.resolved_exists found)
      rw [← slot]
      refine StackId.denotes_of_resolved exist ?_
      rw [resolves, Heap.get?_closure, if_pos hn, found]
      rfl
    · have unbound : (st.heap.closure s names).get? n = none := by
        rw [Heap.get?_closure]
        rcases absent with out | unresolved
        · exact if_neg out
        · rw [s.run_lookup_text] at unresolved
          injection unresolved with unresolved
          injection unresolved with unresolved
          rw [unresolved, ite_self]
      refine ⟨?_, ?_⟩
      · rw [ScopeId.run_lookup_text, bound, unbound]
      · rw [u.run_lookup_text, u.run_lookup_text, resolves, unbound]
        rfl

/-- Makes a stack with a variable and a constant. -/
def counting : Program Unit := do
  let s ← .exec (.createStack none 3 none)
  .exec (.defineMut s (.text "count") (.int 0))
  .exec (.defineConst s (.text "step") (.int 1))

/-- Writes the variable, defines both names anew, copies a scope and makes another stack. -/
def departing (s : StackId) (c : ScopeId) : Program Unit := do
  .exec (.assign s (.text "count") (.int 5))
  .exec (.defineMut s (.text "count") (.int 8))
  .exec (.defineMut s (.text "step") (.int 2))
  let _ ← .exec (.scopeCopy c)
  let _ ← .exec (.createStack none 3 none)

theorem State.Reachable.capture_denotes_counting :
    ∃ st st₁ st₂ st₃ st₄, st = (counting.toAction.run .initial).2 ∧
      (StackId.capture ⟨0⟩ [.text "step", .text "count", .text "gone"]).run st = (.ok ⟨1⟩, st₁) ∧
      st₂ = ((departing ⟨0⟩ ⟨1⟩).toAction.run st₁).2 ∧
      (StackId.enter ⟨1⟩).run st₂ = (.ok (), st₃) ∧
      (StackId.adopt ⟨1⟩ ⟨2⟩).run st₃ = (.ok (), st₄) ∧
      StackId.Denotes ⟨1⟩ "count" ⟨0⟩ ⟨.mutable, .int 5⟩ st₄ ∧
      StackId.Denotes ⟨1⟩ "step" ⟨1⟩ ⟨.constant, .int 1⟩ st₄ := by
  obtain ⟨st, hst⟩ : ∃ st, st = (counting.toAction.run .initial).2 := ⟨_, rfl⟩
  obtain ⟨st₁, hst₁⟩ : ∃ st₁, st₁ =
    ((StackId.capture ⟨0⟩ [.text "step", .text "count", .text "gone"]).run st).2 := ⟨_, rfl⟩
  obtain ⟨es, hes⟩ : ∃ es, es = (departing ⟨0⟩ ⟨1⟩).events st₁ := ⟨_, rfl⟩
  obtain ⟨st₂, hst₂⟩ : ∃ st₂, st₂ = ((departing ⟨0⟩ ⟨1⟩).toAction.run st₁).2 := ⟨_, rfl⟩
  have reach : st.Reachable := by
    rw [hst]
    exact ⟨_, .one .initial counting, by decide +kernel⟩
  have new : st.heap.scopes.size = 1 := by
    rw [hst]
    decide +kernel
  have beside : State.RunBeside ⟨1⟩ st₁ es st₂ := by
    refine ⟨hes ▸ hst₂ ▸ .one st₁ (departing ⟨0⟩ ⟨1⟩), ?_, ?_⟩
    all_goals
      simp only [hes, hst₁, hst]
      decide +kernel
  have entered : (StackId.enter ⟨1⟩).run st₂ = (.ok (), ((StackId.enter ⟨1⟩).run st₂).2) := by
    refine Prod.ext ?_ rfl
    simp only [hst₂, hst₁, hst]
    decide +kernel
  have copied : (⟨2⟩ : ScopeId) ∈ copies ⟨1⟩ es := by
    simp only [hes, hst₁, hst]
    decide +kernel
  have count : (StackId.lookup ⟨0⟩ (.text "count")).run st = (.ok (some ⟨0⟩), st) := by
    refine Prod.ext ?_ rfl
    simp only [hst]
    decide +kernel
  have step : (StackId.lookup ⟨0⟩ (.text "step")).run st = (.ok (some ⟨1⟩), st) := by
    refine Prod.ext ?_ rfl
    simp only [hst]
    decide +kernel
  have counted : ⟨(st.heap.slot ⟨0⟩).kind,
      (lastWritten ⟨0⟩ es).getD (st.heap.slot ⟨0⟩).value⟩ = Slot.mk .mutable (.int 5) := by
    simp only [hes, hst₁, hst]
    decide +kernel
  have constant : ⟨(st.heap.slot ⟨1⟩).kind,
      (lastWritten ⟨1⟩ es).getD (st.heap.slot ⟨1⟩).value⟩ = Slot.mk .constant (.int 1) := by
    simp only [hes, hst₁, hst]
    decide +kernel
  obtain ⟨⟨made, -⟩, -, later⟩ :=
    State.Reachable.capture_denotes reach ⟨0⟩ ["step", "count", "gone"]
  rw [new] at made later
  obtain ⟨st₄, adopted, denotes, -⟩ := later (hst₁ ▸ beside) ⟨2⟩ copied ⟨1⟩ _ entered
  refine ⟨st, st₁, st₂, _, st₄, hst, Prod.ext made hst₁.symm, hst₂, entered, adopted, ?_, ?_⟩
  · rw [← counted]
    exact denotes "count" (by simp) ⟨0⟩ count
  · rw [← constant]
    exact denotes "step" (by simp) ⟨1⟩ step

end LexEnv
