import LexEnv.Proofs.Nesting
import Mathlib.Control.Monad.Basic

/-!
# Blocks

A block leaves the scope that it entered however its body ends. What that comes to depends on how
often the body itself entered and left scopes: its net number shifts the depth, and if there is no
scope left to leave, the block ends with an error of its own in place of the body's outcome.

A body that enters and leaves by blocks only settles the stack (`Program.settles`): blocks inside it
are balanced wherever it stops. Main statement: `StackId.block_accounts`.
-/

namespace LexEnv

open LexEnv.Action

/-! ## Commands are no blocks -/

/-- How a scope is entered or left by an event, if it is. -/
def Event.passage? : Event → Option Passage
  | .entered passage _ => some passage
  | .exited passage _ => some passage
  | _ => none

section

variable {e : Event}

theorem Event.eq_of_mem_ifDone {α : Type} {outcome : Except Error α} {e' : Event}
    (he : e ∈ Event.ifDone outcome e') : e = e' := by
  cases outcome with
  | ok a => exact List.mem_singleton.mp he
  | error err => exact absurd he List.not_mem_nil

theorem Event.passage?_of_mem_ifDone {α : Type} {outcome : Except Error α} {e' : Event}
    (he : e ∈ Event.ifDone outcome e') : e.passage? = e'.passage? :=
  congrArg passage? (eq_of_mem_ifDone he)

namespace ScopeId

variable {via : Option StackId} {c : ScopeId}

theorem passage?_of_mem_keyEvents {key : Key} {t : SlotId} {h : Heap}
    (he : e ∈ c.keyEvents via key t h) : e.passage? = none := by
  unfold keyEvents at he
  split at he
  · rw [List.mem_singleton.mp he]
    rfl
  · exact absurd he List.not_mem_nil

theorem passage?_of_mem_bindEvents {name : Value} {t : SlotId} {h : Heap}
    (he : e ∈ c.bindEvents via name t h) : e.passage? = none := by
  unfold bindEvents at he
  split at he
  · exact passage?_of_mem_keyEvents he
  · exact absurd he List.not_mem_nil

theorem passage?_of_mem_defineEvents {kind : SlotKind} {name v : Value} {h : Heap}
    (he : e ∈ c.defineEvents via kind name v h) : e.passage? = none := by
  unfold defineEvents at he
  split at he
  · rcases List.mem_cons.mp he with rfl | bound
    · rfl
    · exact passage?_of_mem_keyEvents bound
  · exact absurd he List.not_mem_nil

theorem passage?_of_mem_defineMadeEvents {name : String} (made : Action Value) {st : State}
    (he : e ∈ c.defineMadeEvents name made st) : e.passage? = none := by
  unfold defineMadeEvents at he
  split at he
  · exact passage?_of_mem_defineEvents he
  · exact absurd he List.not_mem_nil

end ScopeId

namespace StackId

theorem passage?_of_mem_assignEvents {s : StackId} {name v : Value} {st : State}
    (he : e ∈ s.assignEvents name v st) : e.passage? = none := by
  unfold assignEvents at he
  split at he
  · exact Event.passage?_of_mem_ifDone he
  · exact absurd he List.not_mem_nil

theorem passage?_of_mem_captureEvents {s : StackId} {names : List Value} {st : State}
    (he : e ∈ s.captureEvents names st) : e.passage? = none := by
  unfold captureEvents at he
  split at he
  · rw [List.mem_singleton.mp he]
    rfl
  · exact absurd he List.not_mem_nil

end StackId

/-- No command is a block: what a command enters or leaves, it enters or leaves on its own. -/
theorem Command.passage?_of_mem_events {α : Type} (c : Command α) {st : State}
    (he : e ∈ c.events st) : e.passage? ≠ some .block := by
  have other : ∀ {passage : Option Passage}, e.passage? = passage → passage ≠ some .block →
      e.passage? ≠ some .block := fun eq ne => eq ▸ ne
  have single : ∀ {e' : Event}, e ∈ [e'] → e.passage? = e'.passage? := fun mem =>
    congrArg Event.passage? (List.mem_singleton.mp mem)
  cases c with
  | createSlot kind v => exact other (single he) nofun
  | setSlot t v => exact other (Event.passage?_of_mem_ifDone he) nofun
  | setSlotDirectly t v => exact other (Event.passage?_of_mem_ifDone he) nofun
  | createScope bindings => exact other (single he) nofun
  | scopeDefineConst c name v => exact other (ScopeId.passage?_of_mem_defineEvents he) nofun
  | scopeDefineMut c name v => exact other (ScopeId.passage?_of_mem_defineEvents he) nofun
  | scopeBind c name t => exact other (ScopeId.passage?_of_mem_bindEvents he) nofun
  | scopeDefineFunc c name native =>
    exact other (ScopeId.passage?_of_mem_defineMadeEvents (Value.newFunc name native) he) nofun
  | scopeDefineClass c name type =>
    exact other (ScopeId.passage?_of_mem_defineMadeEvents (Value.newClass name type) he) nofun
  | scopeCopy c => exact other (single he) nofun
  | createStack base maxDepth memoryLimit => exact other (single he) nofun
  | enter s => exact other (Event.passage?_of_mem_ifDone he) nofun
  | exit s => exact other (Event.passage?_of_mem_ifDone he) nofun
  | defineConst s name v => exact other (ScopeId.passage?_of_mem_defineEvents he) nofun
  | defineMut s name v => exact other (ScopeId.passage?_of_mem_defineEvents he) nofun
  | bind s name t => exact other (ScopeId.passage?_of_mem_bindEvents he) nofun
  | assign s name v => exact other (StackId.passage?_of_mem_assignEvents he) nofun
  | capture s names => exact other (StackId.passage?_of_mem_captureEvents he) nofun
  | _ => exact absurd he List.not_mem_nil

end

/-! ## Blocks only -/

/-- Whether an event is the entering or the leaving of a scope of a stack without a block. -/
def Event.bare (s : StackId) : Event → Bool
  | .entered .bare s' => s' = s
  | .exited .bare s' => s' = s
  | _ => false

/-- If nothing enters or leaves a stack without a block, then the stack, if there is one, is there
and the same before and after. -/
def Heap.Settled (s : StackId) (h : Heap) (es : List Event) (h' : Heap) : Prop :=
  s.index < h.scopeStacks.size → (∀ e ∈ es, e.bare s = false) →
    s.index < h'.scopeStacks.size ∧ h'.stack s = h.stack s

namespace Heap.Settled

variable {s : StackId} {h h' h'' : Heap} {es fs : List Event}

theorem append (first : Settled s h es h') (second : Settled s h' fs h'') :
    Settled s h (es ++ fs) h'' := by
  intro hs quiet
  obtain ⟨hs', same⟩ := first hs fun e he => quiet e (List.mem_append_left _ he)
  obtain ⟨hs'', same'⟩ := second hs' fun e he => quiet e (List.mem_append_right _ he)
  exact ⟨hs'', same'.trans same⟩

/-- Events that belong to no block settle a stack. -/
theorem of_evolves (run : h.Evolves es h') (free : ∀ e ∈ es, e.passage? ≠ some .block) :
    Settled s h es h' := by
  intro hs quiet
  refine ⟨run.exists_stack hs, run.stack_of_still hs fun e he => ?_⟩
  have blockless := free e he
  have bare := quiet e he
  cases e with
  | entered passage s' =>
    refine ⟨decide_eq_false ?_, rfl⟩
    rintro rfl
    cases passage with
    | bare => exact absurd bare (by simp [Event.bare])
    | block => exact blockless rfl
  | exited passage s' =>
    refine ⟨rfl, decide_eq_false ?_⟩
    rintro rfl
    cases passage with
    | bare => exact absurd bare (by simp [Event.bare])
    | block => exact blockless rfl
  | _ => exact ⟨rfl, rfl⟩

/-- Nothing happens. -/
theorem none (same : h'.environment = h.environment) : Settled s h [] h' :=
  of_evolves (.none same) fun _ he => absurd he List.not_mem_nil

end Heap.Settled

/-! ## Programs settle a stack -/

/-- A block is balanced if its body settles the stack, whichever stack the block is of. -/
theorem StackId.settled_block {s s' : StackId} {st inside ended : State} {es : List Event}
    (entered : s'.enter.run st = (.ok (), inside))
    (settled : Heap.Settled s inside.heap es ended.heap) :
    Heap.Settled s st.heap
      (.entered .block s' :: (es ++ Event.ifDone (s'.exit.run ended).1 (.exited .block s')))
      (s'.exit.run ended).2.heap := by
  intro hs quiet
  have entering := evolves_entered .block entered
  obtain ⟨exist, same⟩ := settled (entering.exists_stack hs) fun e mem =>
    quiet e (List.mem_cons_of_mem _ (List.mem_append_left _ mem))
  have leaving := evolves_exit s' ended .block
  refine ⟨leaving.exists_stack exist, ?_⟩
  by_cases eq : s' = s
  · subst eq
    rw [stack_exited exist, same, stack_entered entered, Stack.pop_push]
  · have before := entering.stack_of_still hs fun e mem => by
      rw [List.mem_singleton.mp mem]
      exact ⟨decide_eq_false eq, rfl⟩
    have after' := leaving.stack_of_still exist fun e mem => by
      rw [Event.eq_of_mem_ifDone mem]
      exact ⟨rfl, decide_eq_false eq⟩
    exact after'.trans (same.trans before)

theorem compositional_settled (s : StackId) :
    Compositional fun st es st' => Heap.Settled s st.heap es st'.heap where
  silent same := .none same
  append first second := first.append second
  command c st := .of_evolves (c.evolves st) fun _ he => c.passage?_of_mem_events he
  write _ settled _ := settled.append fun hs _ => ⟨hs, rfl⟩
  block entered settled := StackId.settled_block entered settled

/-- Whatever a program does, it settles every stack: blocks are balanced wherever it ends. -/
theorem Program.settles {α : Type} (s : StackId) (p : Program α) (st : State) :
    Heap.Settled s st.heap (p.events st) (p.toAction.run st).2.heap :=
  (compositional_settled s).program p st

/-! ## Accounting for a block -/

namespace StackId

section

variable {α : Type} {s : StackId} {body : ScopeId → Action α} {st st' : State}

/-- A block ends as its body did if the body left it a scope to leave. -/
theorem block_of_pos (entered : s.enter.run st = (.ok (), st'))
    (deep : 0 < (((body (st'.heap.stack s).active).run st').2.heap.stack s).depth) :
    ((s.block body).run st).1 = ((body (st'.heap.stack s).active).run st').1 := by
  rw [run_block_of_ok entered]
  simp only [exit_eq_ok deep]

/-- A block fails on its own account if there is no scope left to leave. -/
theorem block_of_zero (entered : s.enter.run st = (.ok (), st'))
    (shallow : (((body (st'.heap.stack s).active).run st').2.heap.stack s).depth = 0) :
    ((s.block body).run st).1 = .error .underflow := by
  rw [run_block_of_ok entered]
  simp only [exit_eq_error shallow]

/-- A block takes the active scope off what its body left, if there is another one. -/
theorem stack_block (entered : s.enter.run st = (.ok (), st'))
    (hs : s.index < ((body (st'.heap.stack s).active).run st').2.heap.scopeStacks.size) :
    ((s.block body).run st).2.heap.stack s =
      (((body (st'.heap.stack s).active).run st').2.heap.stack s).pop := by
  rw [run_block_of_ok entered]
  exact stack_exited hs

end

/-- The accounts of a block. If it cannot be entered, nothing happens. If it was entered, the net
number `k` of scopes that its body entered tells how deep the stack is afterwards, and whether the
block ends as its body did or with an underflow in its place; if the body did not dig into what it
found and came back, the stack is the one from before. A program that enters and leaves a stack by
blocks only leaves the stack as it found it, however it ends. -/
theorem block_accounts (s : StackId) :
    (∀ {α : Type} (body : ScopeId → Program α) (st : State),
      let block := (s.block fun top => (body top).toAction).run st
      let d : Int := (st.heap.stack s).depth
      (∀ e st', s.enter.run st = (.error e, st') → block = (.error e, st)) ∧
      ∀ st', s.enter.run st = (.ok (), st') →
        let p := body (st'.heap.stack s).active
        let k := netEntered s (p.events st')
        0 ≤ d + 1 + k ∧
        (1 ≤ d + 1 + k → block.1 = (p.toAction.run st').1 ∧
          ((block.2.heap.stack s).depth : Int) = d + k) ∧
        (d + 1 + k = 0 → block.1 = .error .underflow ∧ (block.2.heap.stack s).depth = 0) ∧
        (k = 0 →
          st'.heap.Along (fun h e => d + 1 ≤ ((e.act h).stack s).depth) (p.events st') →
          block.2.heap.stack s = st.heap.stack s)) ∧
    ∀ {α : Type} (p : Program α) (st : State), s.index < st.heap.scopeStacks.size →
      (∀ e ∈ p.events st, e.bare s = false) →
      (p.toAction.run st).2.heap.stack s = st.heap.stack s := by
  refine ⟨fun {α} body st => ⟨fun e st' refused => ?_, fun st' entered => ?_⟩,
    fun {α} p st hs quiet => (p.settles s st hs quiet).2⟩
  · rw [run_block_of_error refused, eq_of_enter_error refused]
  · intro p k
    have inside : s.index < st'.heap.scopeStacks.size :=
      (evolves_entered .block entered).exists_stack (exists_of_enter entered)
    have pushed := stack_entered entered
    have deeper : ((st'.heap.stack s).depth : Int) = (st.heap.stack s).depth + 1 := by
      rw [pushed, Stack.depth_push]
      rfl
    have run := p.evolves st'
    have depth := run.depth inside
    have popped : ((s.block fun top => (body top).toAction).run st).2.heap.stack s =
        ((p.toAction.run st').2.heap.stack s).pop :=
      stack_block entered (run.exists_stack inside)
    rw [deeper] at depth
    refine ⟨by rw [← depth]; exact Int.natCast_nonneg _, fun deep => ?_, fun shallow => ?_,
      fun back above => ?_⟩
    · have pos : 0 < ((p.toAction.run st').2.heap.stack s).depth := by omega
      refine ⟨block_of_pos entered pos, ?_⟩
      rw [popped, Stack.depth_pop]
      omega
    · have zero : ((p.toAction.run st').2.heap.stack s).depth = 0 := by omega
      refine ⟨block_of_zero entered zero, ?_⟩
      rw [popped, Stack.depth_pop, zero]
    · rw [popped]
      have beneath : (st.heap.stack s).Beneath ((p.toAction.run st').2.heap.stack s) := by
        rw [← Heap.stack_congr run.reached]
        refine Heap.beneath_after inside (pushed ▸ Stack.beneath_push _ _) ?_
        exact above.mono fun h e le => by omega
      exact beneath.pop_eq (by omega)

/-- Makes a stack and enters a scope of it. -/
def entering : Program StackId := do
  let s ← .exec (.createStack none 3 none)
  .exec (.enter s)
  return s

/-- Leaves more scopes than it entered and then fails. -/
def overdrawing (s : StackId) : Program Unit := do
  .exec (.exit s)
  .within s fun _ => .exec (.exit s)
  .exec (.defineMut s (.text "x") (.int 1))
  .exec (.assign s (.text "y") (.int 2))

/-- Fails in a block within blocks, at the greatest depth. -/
def overreaching (s : StackId) : Program Unit :=
  .within s fun _ => .within s fun _ => .within s fun _ => pure ()

theorem block_accounts_entering :
    ∃ st : State, st = (entering.toAction.run .initial).2 ∧
      ((block ⟨0⟩ fun _ => (overdrawing ⟨0⟩).toAction).run st).1 = .error .underflow ∧
      ((overreaching ⟨0⟩).toAction.run st).1 = .error (.depthLimit ⟨3, by decide +kernel⟩) ∧
      ((overreaching ⟨0⟩).toAction.run st).2.heap.stack ⟨0⟩ = st.heap.stack ⟨0⟩ := by
  obtain ⟨st, hst⟩ : ∃ st : State, st = (entering.toAction.run .initial).2 := ⟨_, rfl⟩
  obtain ⟨blocks, programs⟩ := block_accounts ⟨0⟩
  have entered : (enter ⟨0⟩).run st = (.ok (), ((enter ⟨0⟩).run st).2) := by
    subst hst
    exact Prod.ext (by decide +kernel) rfl
  obtain ⟨-, -, drawn, -⟩ := (blocks (fun _ => overdrawing ⟨0⟩) st).2 _ entered
  refine ⟨st, hst, (drawn ?_).1, ?_, programs (overreaching ⟨0⟩) st ?_ ?_⟩
  all_goals
    subst hst
    decide +kernel

end StackId

end LexEnv
