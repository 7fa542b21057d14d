import LexEnv.Proofs.Object
import LexEnv.Proofs.Steps
import Mathlib.Control.Monad.Basic

/-!
# Updates

An update calls its function once, with the value that the slot holds, and what the function answers
is what the slot holds afterwards. The function may be any program: it may read and write the same
slot, update it in its turn, and fail anywhere in between. None of that takes the slot its way to be
written, so the write that ends the update comes off; and an update whose function fails writes
nothing of its own, so what the function wrote last stays.

Main statement: `SlotId.update_result_wins`.
-/

namespace LexEnv

open LexEnv.Action

/-! ## One value stored -/

/-- Of two heaps, one is the other with a value put into a mutable slot. -/
structure Heap.Stored (h : Heap) (t : SlotId) (v : Value) (h' : Heap) : Prop where
  value : h'.slot t = ⟨.mutable, v⟩
  others : h.Changes (.slot t) h'

theorem SlotId.stored_store {t : SlotId} {st : State} (hk : (st.heap.slot t).kind = .mutable)
    (v : Value) : st.heap.Stored t v ((t.store v).run st).2.heap where
  value := by
    show (st.heap.setSlot t { st.heap.slot t with value := v }).slot t = _
    rw [Heap.slot_setSlot _ _ _ _ (Heap.exists_of_mutable hk), if_pos rfl]
    exact congrArg (Slot.mk · v) hk
  others := st.heap.changes_setSlot t _

/-- A mutable slot is set by storing the value there. -/
theorem SlotId.exists_run_set {t : SlotId} {st : State} (hk : (st.heap.slot t).kind = .mutable)
    (v : Value) :
    ∃ st', (t.set v).run st = (.ok (), st') ∧ st.heap.Stored t v st'.heap :=
  ⟨_, run_set_mutable hk v, stored_store hk v⟩

/-! ## Slots stay mutable -/

/-- Whatever a program does, a mutable slot is mutable afterwards. -/
theorem Program.mutable {α : Type} (p : Program α) {t : SlotId} {st : State}
    (hk : (st.heap.slot t).kind = .mutable) :
    ((p.toAction.run st).2.heap.slot t).kind = .mutable :=
  ((p.evolves st).kind_slot (Heap.exists_of_mutable hk)).trans hk

theorem State.Run.mutable {st st' : State} {es : List Event} (run : st.Run es st') {t : SlotId}
    (hk : (st.heap.slot t).kind = .mutable) : (st'.heap.slot t).kind = .mutable :=
  (run.evolves.kind_slot (Heap.exists_of_mutable hk)).trans hk

/-- A mutable slot holds the last value that a program wrote to it, or what it held before. -/
theorem Program.slot_of_mutable {α : Type} (p : Program α) {t : SlotId} {st : State}
    (hk : (st.heap.slot t).kind = .mutable) :
    (p.toAction.run st).2.heap.slot t =
      ⟨.mutable, (lastWritten t (p.events st)).getD (st.heap.slot t).value⟩ := by
  rw [(p.evolves st).slot (Heap.exists_of_mutable hk)]
  exact congrArg (Slot.mk · _) hk

/-! ## What an update comes to -/

/-- The program that is one update. -/
def Program.updating (t : SlotId) (revise : Value → Program Value) : Program Value :=
  .update t revise ofOutcome

theorem Program.toAction_updating (t : SlotId) (revise : Value → Program Value) :
    (updating t revise).toAction = t.update fun v => (revise v).toAction := by
  show ((t.update fun v => (revise v).run LexEnv.invoke).attempt >>= fun outcome =>
    (ofOutcome outcome).run LexEnv.invoke) = _
  simp only [run_ofOutcome]
  exact attempt_bind_ofOutcome _

/-- How an update of a slot by a function ends, told by the one call of the function with the value
that the slot held. -/
structure SlotId.Updated (t : SlotId) (revise : Value → Program Value) (st : State)
    (outcome : Except Error Value) (st' : State) : Prop where
  /-- If the call answers a value, so does the update, and the slot holds this value; everything else
  is as the call left it. -/
  answered : ∀ r called,
    (revise (st.heap.slot t).value).toAction.run st = (.ok r, called) →
      outcome = .ok r ∧ called.heap.Stored t r st'.heap ∧ st' = { called with heap := st'.heap } ∧
      (Program.updating t revise).steps st =
        (revise (st.heap.slot t).value).steps st ++ [⟨.setSlotDirectly t r, called⟩]
  /-- If the call fails, the update fails with the same error and leaves what the call left: in the
  slot the last value that the call wrote there, or the old one. -/
  failed : ∀ e called,
    (revise (st.heap.slot t).value).toAction.run st = (.error e, called) →
      outcome = .error e ∧ st' = called ∧
      st'.heap.slot t = ⟨.mutable, (lastWritten t
        ((revise (st.heap.slot t).value).events st)).getD (st.heap.slot t).value⟩ ∧
      (Program.updating t revise).steps st = (revise (st.heap.slot t).value).steps st

namespace SlotId

section

variable {t : SlotId} {st called : State} (revise : Value → Program Value)
  (hk : (st.heap.slot t).kind = .mutable)

include hk

/-- The steps of an update are those of the one call of its function, and the write of the answer if
there is one. -/
theorem steps_updating :
    (Program.updating t revise).steps st =
      (revise (st.heap.slot t).value).steps st ++
        match ((revise (st.heap.slot t).value).toAction.run st).1 with
        | .ok r => [⟨.setSlotDirectly t r, ((revise (st.heap.slot t).value).toAction.run st).2⟩]
        | .error _ => [] := by
  have nothing : ∀ (r : Except Error Value) (st : State),
      (Program.ofOutcome r).stepsBy LexEnv.invoke invokeSteps st = [] := by
    intro r st
    cases r <;> rfl
  show t.updateSteps _ _ st ++ (Program.ofOutcome _).stepsBy LexEnv.invoke invokeSteps _ = _
  rw [nothing, List.append_nil, updateSteps, hk]
  rfl

/-- An update whose function answers ends with its write, whatever the function did to the slot. -/
theorem run_update_answered {r : Value}
    (call : (revise (st.heap.slot t).value).toAction.run st = (.ok r, called)) :
    (t.update fun v => (revise v).toAction).run st = (.ok r, ((t.store r).run called).2) := by
  rw [run_update_mutable hk, run_bind, call]
  rfl

theorem run_update_failed {e : Error}
    (call : (revise (st.heap.slot t).value).toAction.run st = (.error e, called)) :
    (t.update fun v => (revise v).toAction).run st = (.error e, called) := by
  rw [run_update_mutable hk, run_bind, call]

theorem updated {outcome : Except Error Value} {st' : State}
    (ran : (t.update fun v => (revise v).toAction).run st = (outcome, st')) :
    t.Updated revise st outcome st' where
  answered r called call := by
    have mutable := (revise (st.heap.slot t).value).mutable hk
    rw [call] at mutable
    rw [run_update_answered revise hk call] at ran
    cases ran
    refine ⟨rfl, stored_store mutable r, rfl, ?_⟩
    rw [steps_updating revise hk, call]
  failed e called call := by
    have held := (revise (st.heap.slot t).value).slot_of_mutable hk
    rw [call] at held
    rw [run_update_failed revise hk call] at ran
    cases ran
    refine ⟨rfl, rfl, held, ?_⟩
    rw [steps_updating revise hk, call, List.append_nil]

end

/-- An update calls its function once, with the value that the slot holds. What the function answers
is what the slot holds then, over everything that the function and updates inside it wrote there; all
else is as the function left it. If the function fails, the update fails with its error and writes
nothing itself. However it ended, the slot can be set and updated later as it could before. -/
theorem update_result_wins {t : SlotId} {st : State} (revise : Value → Program Value)
    (hk : (st.heap.slot t).kind = .mutable) :
    let ended := (t.update fun v => (revise v).toAction).run st
    t.Updated revise st ended.1 ended.2 ∧
    ∀ es later, ended.2.Run es later →
      (∀ v, ∃ st', (t.set v).run later = (.ok (), st') ∧ later.heap.Stored t v st'.heap) ∧
      ∀ again : Value → Program Value,
        let ended := (t.update fun v => (again v).toAction).run later
        t.Updated again later ended.1 ended.2 := by
  intro ended
  refine ⟨updated revise hk rfl, fun es later run => ?_⟩
  have mutable : (ended.2.heap.slot t).kind = .mutable := by
    have kept := (Program.updating t revise).mutable hk
    rwa [Program.toAction_updating] at kept
  have still := run.mutable mutable
  exact ⟨fun v => exists_run_set still v, fun again => updated again still rfl⟩

/-- Makes two mutable slots. -/
def pairOfSlots : Program Unit := do
  let _ ← .exec (.createSlot .mutable (.int 1))
  let _ ← .exec (.createSlot .mutable (.int 2))

/-- Sets and updates the slot that is being updated, with an update inside that fails, and passes the
old value on to the other slot. -/
def meddling (old : Value) : Program Value :=
  .perform (.setSlot ⟨0⟩ (.int 10)) fun _ =>
  .update ⟨0⟩ (fun _ => .perform (.setSlot ⟨0⟩ (.int 20)) fun _ => .done (.int 30)) fun _ =>
  .update ⟨0⟩ (fun _ => .perform (.setSlot ⟨0⟩ (.int 40)) fun _ => .fail (.raised "inside")) fun _ =>
  .perform (.setSlot ⟨1⟩ old) fun _ => .done (.int 50)

/-- Does the same and fails at the end. -/
def meddlingInVain (old : Value) : Program Value := do
  let _ ← meddling old
  .fail (.raised "after all")

theorem update_result_wins_meddling :
    ∃ st, st = (pairOfSlots.toAction.run .initial).2 ∧ (st.heap.slot ⟨0⟩).kind = .mutable ∧
      (∃ st', (update ⟨0⟩ fun v => (meddling v).toAction).run st = (.ok (.int 50), st') ∧
        st'.heap.slot ⟨0⟩ = ⟨.mutable, .int 50⟩ ∧ st'.heap.slot ⟨1⟩ = ⟨.mutable, .int 1⟩) ∧
      ∃ st', (update ⟨0⟩ fun v => (meddlingInVain v).toAction).run st =
          (.error (.raised "after all"), st') ∧
        st'.heap.slot ⟨0⟩ = ⟨.mutable, .int 40⟩ := by
  obtain ⟨st, hst⟩ : ∃ st, st = (pairOfSlots.toAction.run .initial).2 := ⟨_, rfl⟩
  have hk : (st.heap.slot ⟨0⟩).kind = .mutable := by
    rw [hst]
    decide +kernel
  refine ⟨st, hst, hk, ?_, ?_⟩
  · obtain ⟨answered, -⟩ := (update_result_wins meddling hk).1
    have call : ((meddling (st.heap.slot ⟨0⟩).value).toAction.run st).1 = .ok (.int 50) ∧
        ((meddling (st.heap.slot ⟨0⟩).value).toAction.run st).2.heap.slot ⟨1⟩ =
          ⟨.mutable, .int 1⟩ := by
      rw [hst]
      decide +kernel
    rcases ran : (meddling (st.heap.slot ⟨0⟩).value).toAction.run st with ⟨r, called⟩
    rw [ran] at call
    obtain ⟨rfl, passedOn⟩ := call
    obtain ⟨outcome, stored, -, -⟩ := answered _ _ ran
    refine ⟨_, Prod.ext outcome rfl, stored.value, ?_⟩
    exact (Cell.slot.inj (stored.others.cell (.slot ⟨1⟩) (by decide))).trans passedOn
  · obtain ⟨-, failed⟩ := (update_result_wins meddlingInVain hk).1
    have call : ((meddlingInVain (st.heap.slot ⟨0⟩).value).toAction.run st).1 =
        .error (.raised "after all") := by
      rw [hst]
      decide +kernel
    obtain ⟨outcome, -, held, -⟩ := failed _ _ (Prod.ext call rfl)
    refine ⟨_, Prod.ext outcome rfl, held.trans ?_⟩
    rw [hst]
    decide +kernel

end SlotId

end LexEnv
