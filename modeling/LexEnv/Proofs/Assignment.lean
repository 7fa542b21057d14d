import LexEnv.Proofs.Visible

/-!
# Assignments

An assignment writes the slot that its name resolves to, and nothing else (`Heap.Written`). Names are
bound where they were bound, so every stack sees the environment that it saw; the write is seen under
every name that resolves to the slot, in whatever stack, and under no other name. A name that does not
resolve is not assigned, and neither is one of a constant.

Main statement: `StackId.assign_writes_one_slot`.
-/

namespace LexEnv

open LexEnv.Action

/-! ## Refusals -/

namespace SlotKind

/-- Only a constant is refused as one. -/
@[simp] theorem kind_refusal_eq_constantWrite {kind : SlotKind} {operation : String} {v : Value} :
    (kind.refusal operation v).kind = .constantWrite ↔ kind = .constant := by
  cases kind <;> simp [refusal, Error.kind]

@[simp] theorem kind_refusal_ne_undefinedName {kind : SlotKind} {operation : String} {v : Value} :
    (kind.refusal operation v).kind ≠ .undefinedName := by
  cases kind <;> simp [refusal, Error.kind]

end SlotKind

/-! ## One slot written -/

/-- Of two heaps, one is the other with a value put into some slot. -/
structure Heap.Written (h h' : Heap) (t : SlotId) (v : Value) : Prop where
  value : h'.slot t = ⟨.mutable, v⟩
  slot : ∀ u, u ≠ t → h'.slot u = h.slot u
  scope : ∀ c, h'.scope c = h.scope c
  stack : ∀ s, h'.stack s = h.stack s

namespace Heap

variable {h h' : Heap} {t : SlotId} {v : Value}

theorem written_setSlot (hk : (h.slot t).kind = .mutable) (v : Value) :
    h.Written (h.setSlot t { h.slot t with value := v }) t v where
  value := by
    rw [slot_setSlot h t t _ (exists_of_mutable hk), if_pos rfl]
    exact congrArg (Slot.mk · v) hk
  slot u hu := slot_setSlot_of_ne h _ hu
  scope c := rfl
  stack s := rfl

/-- Names resolve as before. -/
theorem Written.resolved (written : h.Written h' t v) (s : StackId) (name : String) :
    h'.resolved s name = h.resolved s name :=
  resolved_congr (written.stack s) (fun c _ => written.scope c) name

theorem Written.textual (written : h.Written h' t v) {s : StackId}
    (textual : ∀ c ∈ (h.stack s).chain, (h.scope c).Textual) :
    ∀ c ∈ (h'.stack s).chain, (h'.scope c).Textual := by
  intro c hc
  rw [written.stack] at hc
  rw [written.scope]
  exact textual c hc

end Heap

/-! ## Reading and assigning texts -/

namespace StackId

variable {s : StackId} {st st' : State} {name : String}

/-- The value of a text, or the error that it is not defined. -/
theorem run_get_text_eq (s : StackId) (name : String) (st : State) :
    (s.get (.text name)).run st =
      (match st.heap.resolved s name with
        | some t => .ok (st.heap.slot t).value
        | none => .error (.undefinedName name), st) := by
  cases found : st.heap.resolved s name with
  | some t => exact run_get_text found
  | none =>
    rw [get, run_bind, resolve, run_bind, run_lookup_text, found]
    rfl

theorem run_assign_text (s : StackId) (name : String) (v : Value) (st : State) :
    (s.assign (.text name) v).run st =
      match st.heap.resolved s name with
      | some t => (t.set v).run st
      | none => (.error (.undefinedName name), st) := by
  have looked := s.run_lookup_text name st
  cases found : st.heap.resolved s name with
  | some t =>
    rw [found] at looked
    exact s.run_assign st v looked
  | none =>
    rw [assign, run_bind, resolve, run_bind, looked, found]
    rfl

/-- A name of a mutable slot is assigned by storing the value there. -/
theorem run_assign_mutable {t : SlotId} (found : st.heap.resolved s name = some t)
    (hk : (st.heap.slot t).kind = .mutable) (v : Value) :
    (s.assign (.text name) v).run st = (t.store v).run st := by
  rw [run_assign_text, found]
  exact SlotId.run_set_mutable hk v

/-- A name of a slot that is not mutable is not assigned. -/
theorem run_assign_refused {t : SlotId} (found : st.heap.resolved s name = some t)
    (hk : (st.heap.slot t).kind ≠ .mutable) (v : Value) :
    (s.assign (.text name) v).Refuses ((st.heap.slot t).kind.refusal "set" v) st := by
  obtain ⟨trace, refused⟩ := SlotId.refuses_set hk v
  refine ⟨trace, ?_⟩
  rw [run_assign_text, found]
  exact refused

/-- What an assignment raises: the error of a name that does not resolve, or what the slot of the name
refuses a write with. -/
theorem raises_assign_iff {v : Value} {kind : ErrorKind} :
    (s.assign (.text name) v).Raises kind st ↔
      (st.heap.resolved s name = none ∧ kind = .undefinedName) ∨
      ∃ t, st.heap.resolved s name = some t ∧ (st.heap.slot t).kind ≠ .mutable ∧
        ((st.heap.slot t).kind.refusal "set" v).kind = kind := by
  cases found : st.heap.resolved s name with
  | none =>
    have ran := s.run_assign_text name v st
    rw [found] at ran
    rw [raises_iff_of_error ran]
    simp [Error.kind, eq_comm]
  | some t =>
    by_cases hk : (st.heap.slot t).kind = .mutable
    · have stored := not_raises_of_ok (run_assign_mutable found hk v) kind
      simp [stored, hk]
    · obtain ⟨trace, refused⟩ := run_assign_refused found hk v
      rw [raises_iff_of_error refused]
      simp [hk]

/-- An assignment that fails leaves the heap as it is. -/
theorem heap_of_assign_error {v : Value} {e : Error}
    (failed : (s.assign (.text name) v).run st = (.error e, st')) : st'.heap = st.heap := by
  cases found : st.heap.resolved s name with
  | none =>
    rw [run_assign_text, found] at failed
    cases failed
    rfl
  | some t =>
    by_cases hk : (st.heap.slot t).kind = .mutable
    · rw [run_assign_mutable found hk] at failed
      cases failed
    · obtain ⟨trace, refused⟩ := run_assign_refused found hk v
      rw [refused] at failed
      cases failed
      rfl

/-- Where names resolve alike, the same is visible. -/
theorem visible_congr (textual : ∀ c ∈ (st.heap.stack s).chain, (st.heap.scope c).Textual)
    (textual' : ∀ c ∈ (st'.heap.stack s).chain, (st'.heap.scope c).Textual)
    (same : ∀ name, st'.heap.resolved s name = st.heap.resolved s name) :
    (s.visible.run st').1 = (s.visible.run st).1 := by
  obtain ⟨m, sees, answers⟩ := exists_sees textual
  obtain ⟨m', sees', answers'⟩ := exists_sees textual'
  have eq : m' = m := NameMap.ext_get? fun name => by rw [answers', same, answers]
  rw [sees'.visible, sees.visible, eq]

end StackId

/-! ## The effect on every stack -/

namespace Heap.Written

variable {st st' : State} {t : SlotId} {v : Value} (written : st.heap.Written st'.heap t v)
  (r : StackId)

include written

/-- The value is read under every name of the slot. -/
theorem get_alias {name : String} (found : st.heap.resolved r name = some t) :
    (r.get (.text name)).run st' = (.ok v, st') := by
  have found' : st'.heap.resolved r name = some t := (written.resolved r name).trans found
  rw [StackId.run_get_text found', written.value]

/-- Every other name reads as before, or is as little defined. -/
theorem get_other {name : String} (other : st.heap.resolved r name ≠ some t) :
    ((r.get (.text name)).run st').1 = ((r.get (.text name)).run st).1 := by
  rw [StackId.run_get_text_eq, StackId.run_get_text_eq, written.resolved]
  cases found : st.heap.resolved r name with
  | none => rfl
  | some u =>
    have ne : u ≠ t := fun same => other (found.trans (congrArg some same))
    simp only [written.slot u ne]

end Heap.Written

/-- An assignment to a name fails as an undefined one exactly if the name does not resolve, and as one
to a constant exactly if it resolves to a constant slot; what fails leaves the heap as it is. If the
name resolves to a mutable slot, this slot alone is written, and no binding changes. Afterwards the
value is read in every stack under every name that resolves to the slot; every other name reads as
before, and every stack resolves and lists the same names with the same slots. -/
theorem StackId.assign_writes_one_slot (s : StackId) (name : String) (v : Value) (st : State) :
    ((s.assign (.text name) v).Raises .undefinedName st ↔
      (s.lookup (.text name)).run st = (.ok none, st)) ∧
    ((s.assign (.text name) v).Raises .constantWrite st ↔
      ∃ t, (s.lookup (.text name)).run st = (.ok (some t), st) ∧
        (st.heap.slot t).kind = .constant) ∧
    (∀ e st', (s.assign (.text name) v).run st = (.error e, st') → st'.heap = st.heap) ∧
    ∀ t, (s.lookup (.text name)).run st = (.ok (some t), st) → (st.heap.slot t).kind = .mutable →
      ∃ st', (s.assign (.text name) v).run st = (.ok (), st') ∧ st.heap.Written st'.heap t v ∧
        ∀ r : StackId,
          (∀ n, (r.lookup (.text n)).run st = (.ok (some t), st) →
            (r.get (.text n)).run st' = (.ok v, st')) ∧
          (∀ n, (r.lookup (.text n)).run st ≠ (.ok (some t), st) →
            ((r.get (.text n)).run st').1 = ((r.get (.text n)).run st).1) ∧
          (∀ n, ((r.lookup (.text n)).run st').1 = ((r.lookup (.text n)).run st).1) ∧
          ((∀ c ∈ (st.heap.stack r).chain, (st.heap.scope c).Textual) →
            (r.visible.run st').1 = (r.visible.run st).1) := by
  have looked : ∀ (r : StackId) (n : String) (found : Option SlotId),
      (r.lookup (.text n)).run st = (.ok found, st) ↔ st.heap.resolved r n = found := by
    intro r n found
    rw [r.run_lookup_text]
    simp
  simp only [looked, ne_eq]
  refine ⟨?_, ?_, ?_, ?_⟩
  · simp [raises_assign_iff]
  · rw [raises_assign_iff]
    constructor
    · rintro (⟨-, kind⟩ | ⟨t, found, -, kind⟩)
      · cases kind
      · exact ⟨t, found, SlotKind.kind_refusal_eq_constantWrite.mp kind⟩
    · rintro ⟨t, found, kind⟩
      exact .inr ⟨t, found, by simp [kind], SlotKind.kind_refusal_eq_constantWrite.mpr kind⟩
  · intro e st' failed
    exact heap_of_assign_error failed
  · intro t found hk
    have written := Heap.written_setSlot hk v
    refine ⟨_, run_assign_mutable found hk v, written, fun r => ⟨?_, ?_, ?_, ?_⟩⟩
    · intro n there
      exact written.get_alias r there
    · intro n other
      exact written.get_other r other
    · intro n
      rw [r.run_lookup_text, r.run_lookup_text, written.resolved]
    · intro textual
      exact visible_congr textual (written.textual textual) (written.resolved r)

/-- Makes a variable with a further name in a copy and in a stack over the copy, where the first name
is hidden, and a constant. -/
def sharing : Program Unit := do
  let s ← .exec (.createStack none 3 none)
  .exec (.defineMut s (.text "x") (.int 1))
  let copy ← .exec (.scopeCopy (← .exec (.active s)))
  if let some t ← .exec (.lookup s (.text "x")) then
    .exec (.scopeBind copy (.text "y") t)
  let r ← .exec (.createStack (some copy) 3 none)
  .exec (.defineConst r (.text "x") (.int 2))

theorem StackId.assign_writes_one_slot_sharing :
    ∃ st st', st = (sharing.toAction.run .initial).2 ∧
      (StackId.assign ⟨0⟩ (.text "x") (.int 5)).run st = (.ok (), st') ∧
      (StackId.get ⟨1⟩ (.text "y")).run st' = (.ok (.int 5), st') ∧
      ((StackId.get ⟨1⟩ (.text "x")).run st').1 = .ok (.int 2) ∧
      (StackId.assign ⟨1⟩ (.text "x") (.int 6)).Raises .constantWrite st := by
  obtain ⟨st, hst⟩ : ∃ st, st = (sharing.toAction.run .initial).2 := ⟨_, rfl⟩
  have x : (StackId.lookup ⟨0⟩ (.text "x")).run st = (.ok (some ⟨0⟩), st) := by
    refine Prod.ext ?_ rfl
    rw [hst]
    decide +kernel
  have y : (StackId.lookup ⟨1⟩ (.text "y")).run st = (.ok (some ⟨0⟩), st) := by
    refine Prod.ext ?_ rfl
    rw [hst]
    decide +kernel
  have hidden : (StackId.lookup ⟨1⟩ (.text "x")).run st = (.ok (some ⟨1⟩), st) := by
    refine Prod.ext ?_ rfl
    rw [hst]
    decide +kernel
  have before : ((StackId.get ⟨1⟩ (.text "x")).run st).1 = .ok (.int 2) := by
    rw [hst]
    decide +kernel
  have kinds : (st.heap.slot ⟨0⟩).kind = .mutable ∧ (st.heap.slot ⟨1⟩).kind = .constant := by
    rw [hst]
    decide +kernel
  obtain ⟨-, -, -, writes⟩ := StackId.assign_writes_one_slot ⟨0⟩ "x" (.int 5) st
  obtain ⟨st', assigned, -, seen⟩ := writes ⟨0⟩ x kinds.1
  obtain ⟨shared, other, -, -⟩ := seen ⟨1⟩
  obtain ⟨-, constant, -, -⟩ := StackId.assign_writes_one_slot ⟨1⟩ "x" (.int 6) st
  refine ⟨st, st', hst, assigned, shared "y" y, ?_, constant.mpr ⟨⟨1⟩, hidden, kinds.2⟩⟩
  rw [other "x" (by rw [hidden]; simp), before]

end LexEnv
