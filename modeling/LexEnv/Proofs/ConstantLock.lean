import LexEnv.Proofs.Run
import Mathlib.Control.Monad.Basic

/-!
# Constant slots stay as they were made

Only a mutable slot can be written, so a slot of another kind holds for good what it was made with,
whatever is done through whatever name, scope, stack or closure that reaches it. The argument is
about events: a write is valid for mutable slots only (`Event.written?_eq_none`), no event changes
the kind of a slot, and a slot is made by exactly one event of a run (`Heap.exists_created`).

Main statement: `State.Run.locked`. After any further run the slot answers with the value it was
made with, and it refuses every write (`SlotId.Locked`).
-/

namespace LexEnv

/-! ## Refusing to be written -/

/-- The error of a slot that is asked for an operation which would write it. -/
def SlotKind.refusal (kind : SlotKind) (operation : String) (v : Value) : Error :=
  match kind with
  | .constant => .constantWrite v
  | kind => .missingAttribute kind.typeName operation

/-- An action fails and leaves everything but the trace as it is. -/
def Action.Refuses {α : Type} (x : Action α) (e : Error) (st : State) : Prop :=
  ∃ trace, x.run st = (.error e, { st with trace })

/-- A slot answers with a given value and refuses to be written, by itself and under every name that
resolves to it. What an update leaves does not depend on the function it was given. -/
structure SlotId.Locked (t : SlotId) (x : Slot) (st : State) : Prop where
  get : t.get.run st = (.ok x.value, st)
  set : ∀ v, (t.set v).Refuses (x.kind.refusal "set" v) st
  setDirectly : ∀ v,
    (t.setDirectly v).Refuses (.missingAttribute x.kind.typeName "_lock") st
  update : ∃ trace, ∀ revise : Value → Action Value,
    (t.update revise).run st = (.error (x.kind.refusal "update" x.value), { st with trace })
  assign : ∀ (s : StackId) (name v : Value), (s.lookup name).run st = (.ok (some t), st) →
    (s.assign name v).Refuses (x.kind.refusal "set" v) st

open LexEnv.Action

namespace SlotId

variable {t : SlotId} {st : State}

theorem refuses_set (hk : (st.heap.slot t).kind ≠ .mutable) (v : Value) :
    (t.set v).Refuses ((st.heap.slot t).kind.refusal "set" v) st := by
  cases h : (st.heap.slot t).kind with
  | mutable => exact absurd h hk
  | constant =>
    obtain ⟨trace, recorded⟩ := exists_run_recordShown .rejectedWrite (·.written v) st
    refine ⟨trace, ?_⟩
    rw [run_set_constant h, recorded]
    rfl
  | bare => exact ⟨st.trace, run_set_bare h v⟩

theorem refuses_update (hk : (st.heap.slot t).kind ≠ .mutable) :
    ∃ trace, ∀ revise : Value → Action Value, (t.update revise).run st =
      (.error ((st.heap.slot t).kind.refusal "update" (st.heap.slot t).value),
        { st with trace }) := by
  cases h : (st.heap.slot t).kind with
  | mutable => exact absurd h hk
  | constant =>
    obtain ⟨trace, recorded⟩ :=
      exists_run_recordShown .rejectedUpdate (·.written (st.heap.slot t).value) st
    refine ⟨trace, fun revise => ?_⟩
    rw [run_update_constant h, recorded]
    rfl
  | bare => exact ⟨st.trace, run_update_bare h⟩

/-- A slot that is not mutable is locked to what it holds. -/
theorem locked_of_ne_mutable (hk : (st.heap.slot t).kind ≠ .mutable) :
    t.Locked (st.heap.slot t) st where
  get := rfl
  set := refuses_set hk
  setDirectly v := ⟨st.trace, run_setDirectly_of_ne hk v⟩
  update := refuses_update hk
  assign s name v found := by
    obtain ⟨trace, refused⟩ := refuses_set hk v
    exact ⟨trace, (s.run_assign st v found).trans refused⟩

end SlotId

/-! ## Slots along events -/

section

variable {h : Heap} {t : SlotId}

/-- An event that can happen does not write a slot that is not mutable. -/
theorem Event.written?_eq_none {e : Event} (valid : e.Valid h)
    (hk : (h.slot t).kind ≠ .mutable) : e.written? t = none := by
  cases e with
  | wrote t' v =>
    have ne : t' ≠ t := by
      rintro rfl
      exact hk valid
    exact if_neg ne
  | _ => rfl

/-- A slot exists once it was made. -/
theorem Event.lt_size_of_created {x : Slot} (valid : (Event.created t x).Valid h) :
    t.index < ((Event.created t x).act h).slots.size := by
  have eq : t.index = h.slots.size := valid
  rw [eq]
  exact Nat.lt_of_lt_of_eq (Nat.lt_succ_self _) (Array.size_push x).symm

/-- The event after which a slot is there makes it. -/
theorem Event.exists_created {e : Event} (valid : e.Valid h) (before : h.slots.size ≤ t.index)
    (made : t.index < (e.act h).slots.size) :
    ∃ x, e = .created t x ∧ (e.act h).slot t = x := by
  cases e with
  | created t' x =>
    have new : t'.index = h.slots.size := valid
    have size : t.index < h.slots.size + 1 := Nat.lt_of_lt_of_eq made (Array.size_push x)
    have eq : t' = t := SlotId.ext (by omega)
    subst eq
    exact ⟨x, rfl, Heap.slot_addSlot_new h x new⟩
  | _ =>
    refine absurd ?_ (Nat.not_lt.mpr before)
    simpa [Event.act, Heap.setSlot, Heap.addScope, Heap.setScope, Heap.addStack,
      Heap.setStack] using made

namespace Heap

/-- A slot that is not mutable is written by no event and stays as it is. -/
theorem after_of_ne_mutable {es : List Event} (valid : h.Along (fun h e => e.Valid h) es)
    (ht : t.index < h.slots.size) (hk : (h.slot t).kind ≠ .mutable) :
    (∀ e ∈ es, e.written? t = none) ∧ (h.after es).slot t = h.slot t := by
  induction es generalizing h with
  | nil => exact ⟨fun e he => absurd he List.not_mem_nil, rfl⟩
  | cons e es ih =>
    have unwritten := Event.written?_eq_none valid.1 hk
    have same : (e.act h).slot t = h.slot t := by
      rw [e.slot_act ht, unwritten]
      rfl
    obtain ⟨later, kept⟩ := ih valid.2 (Nat.lt_of_lt_of_le ht (e.slots_size_le h)) (same ▸ hk)
    refine ⟨fun e' he => ?_, by rw [after_cons, kept, same]⟩
    rcases List.mem_cons.mp he with rfl | mem
    · exact unwritten
    · exact later e' mem

/-- A slot that exists is not made again. -/
theorem created_not_mem {es : List Event} (valid : h.Along (fun h e => e.Valid h) es)
    (ht : t.index < h.slots.size) (x : Slot) : .created t x ∉ es := by
  induction es generalizing h with
  | nil => exact List.not_mem_nil
  | cons e es ih =>
    rintro (_ | ⟨_, mem⟩)
    · exact absurd ht (Nat.not_lt.mpr (Nat.le_of_eq (show t.index = _ from valid.1).symm))
    · exact ih valid.2 (Nat.lt_of_lt_of_le ht (e.slots_size_le h)) mem

/-- A slot that came to exist was made by exactly one event, and unless it is mutable it is still as
it was made. -/
theorem exists_created {es : List Event} (valid : h.Along (fun h e => e.Valid h) es)
    (before : h.slots.size ≤ t.index) (after' : t.index < (h.after es).slots.size) :
    ∃ x, (∀ y, .created t y ∈ es ↔ y = x) ∧
      (((h.after es).slot t).kind ≠ .mutable → (h.after es).slot t = x) := by
  induction es generalizing h with
  | nil => exact absurd after' (Nat.not_lt.mpr before)
  | cons e es ih =>
    by_cases made : t.index < (e.act h).slots.size
    · obtain ⟨x, rfl, new⟩ := Event.exists_created valid.1 before made
      refine ⟨x, fun y => ⟨fun mem => ?_, fun eq => eq ▸ List.mem_cons_self⟩, fun hk => ?_⟩
      · rcases List.mem_cons.mp mem with eq | later
        · injection eq
        · exact absurd later (created_not_mem valid.2 made y)
      · rw [after_cons] at hk ⊢
        rw [(Evolves.mk valid.2 rfl).kind_slot made] at hk
        rw [(after_of_ne_mutable valid.2 made hk).2, new]
    · obtain ⟨x, once, kept⟩ := ih valid.2 (Nat.le_of_not_lt made) after'
      refine ⟨x, fun y => ?_, kept⟩
      rw [List.mem_cons, ← once y]
      refine ⟨fun mem => mem.resolve_left ?_, Or.inr⟩
      rintro rfl
      exact made (Event.lt_size_of_created valid.1)

end Heap

end

/-! ## The lock -/

/-- A slot that is not mutable was made once on the way to a state. No further run writes it, and
after each it is locked to what it was made with. -/
theorem State.Run.locked {es : List Event} {st : State} (past : State.initial.Run es st)
    {t : SlotId} (ht : t.index < st.heap.slots.size) (hk : (st.heap.slot t).kind ≠ .mutable) :
    ∃ x, (∀ y, .created t y ∈ es ↔ y = x) ∧ x.kind ≠ .mutable ∧
      ∀ {fs : List Event} {st' : State}, st.Run fs st' →
        (∀ e ∈ fs, e.written? t = none) ∧ t.Locked x st' := by
  have run := past.evolves
  have made : t.index < (State.initial.heap.after es).slots.size := by
    rwa [Heap.slots_congr run.reached]
  have same := Heap.slot_congr run.reached t
  obtain ⟨x, once, kept⟩ := Heap.exists_created run.valid (Nat.zero_le _) made
  have eq : st.heap.slot t = x := by
    rw [← same]
    exact kept (by rwa [same])
  refine ⟨x, once, eq ▸ hk, fun {fs st'} run' => ?_⟩
  have further := run'.evolves
  obtain ⟨unwritten, still⟩ := Heap.after_of_ne_mutable further.valid ht hk
  have now : st'.heap.slot t = x := by
    rw [← Heap.slot_congr further.reached, still, eq]
  refine ⟨unwritten, ?_⟩
  have locked : t.Locked (st'.heap.slot t) st' :=
    SlotId.locked_of_ne_mutable (by rw [now]; exact eq ▸ hk)
  rwa [now] at locked

/-- Makes a stack with a constant. -/
def circle : Program StackId := do
  let s ← .exec (.createStack none 3 none)
  .exec (.defineConst s (.text "pi") (.int 3))
  return s

/-- Gives the constant a second name in an inner scope and writes it there. -/
def rounding (s : StackId) : Program Unit := do
  .exec (.enter s)
  if let some t ← .exec (.lookup s (.text "pi")) then
    .exec (.bind s (.text "tau") t)
  .exec (.assign s (.text "tau") (.int 4))

theorem State.Run.locked_circle :
    let st := (circle.toAction.run .initial).2
    let later := (rounding ⟨0⟩).toAction.run st
    (st.heap.slot ⟨0⟩).kind ≠ .mutable ∧
    (∃ x, .created ⟨0⟩ x ∈ circle.events .initial ∧ SlotId.Locked ⟨0⟩ x later.2) ∧
    later.1 = .error (.constantWrite (.int 4)) ∧
    ((StackId.get ⟨0⟩ (.text "tau")).run later.2).1 = .ok (.int 3) := by
  refine ⟨by decide +kernel, ?_, by decide +kernel, by decide +kernel⟩
  obtain ⟨x, once, -, locked⟩ := (State.Run.one .initial circle).locked (t := ⟨0⟩)
    (by decide +kernel) (by decide +kernel)
  exact ⟨x, (once x).mpr rfl, (locked (.one _ (rounding ⟨0⟩))).2⟩

end LexEnv
