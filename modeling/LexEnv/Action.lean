import LexEnv.Heap
import LexEnv.NameMap
import LexEnv.Trace

/-!
# Actions

An operation of the library is an `Action`: from a state it yields an outcome, which is a result or
an error, and the state it leaves behind. An error does not undo anything; what an operation did
before it failed stays done.

The state is the heap, the trace, the amount of memory in use as last sampled, and the handles under
which a host keeps objects.
-/

namespace LexEnv

/-- What operations work on. -/
structure State where
  heap : Heap
  /-- The records of the trace, oldest first. -/
  trace : Array TraceRecord
  /-- The memory in use, in bytes. -/
  resident : Int
  /-- The objects that the host keeps by name. -/
  handles : NameMap Value

/-- The state in which nothing exists. -/
def State.initial : State := ⟨.empty, #[], 0, .empty⟩

/-- An operation: the outcome and the state it leaves. -/
def Action (α : Type) : Type := State → Except Error α × State

namespace Action

variable {α β : Type}

/-- Performs an operation. -/
def run (x : Action α) (s : State) : Except Error α × State := x s

instance : Monad Action where
  pure a := fun s => (.ok a, s)
  bind x f := fun s =>
    match x s with
    | (.ok a, s') => f a s'
    | (.error e, s') => (.error e, s')

/-- Fails and leaves the state as it is. -/
def fail (e : Error) : Action α := fun s => (.error e, s)

/-- Performs an operation and hands on its outcome, whatever it is. -/
def attempt (x : Action α) : Action (Except Error α) := fun s =>
  match x s with
  | (r, s') => (.ok r, s')

/-- Takes up an outcome: its result, or its error. -/
def ofOutcome : Except Error α → Action α
  | .ok a => pure a
  | .error e => fail e

/-- The state. -/
def state : Action State := fun s => (.ok s, s)

/-- Something read off the heap. -/
def read (f : Heap → α) : Action α := fun s => (.ok (f s.heap), s)

/-- Something read off the heap, if it can be read. -/
def inspect (f : Heap → Except Error α) : Action α := fun s => (f s.heap, s)

/-- Changes the heap. -/
def modifyHeap (f : Heap → Heap) : Action Unit := fun s => (.ok (), { s with heap := f s.heap })

/-- Adds an object to the heap. -/
def allocate (add : Heap → α × Heap) : Action α := fun s =>
  match add s.heap with
  | (a, heap) => (.ok a, { s with heap })

/-- Leaves a record in the trace. -/
def record (r : TraceRecord) : Action Unit := fun s =>
  (.ok (), { s with trace := s.trace.push r })

/-- Leaves a record that shows something, if it can be shown. -/
def recordShown (r : String → TraceRecord) (shown : Heap → Except Error String) : Action Unit :=
  fun s =>
    match shown s.heap with
    | .ok text => record (r text) s
    | .error _ => (.ok (), s)

/-! ## Running -/

@[simp] theorem run_pure (a : α) (s : State) : (pure a : Action α).run s = (.ok a, s) := rfl

theorem run_bind (x : Action α) (f : α → Action β) (s : State) :
    (x >>= f).run s =
      match x.run s with
      | (.ok a, s') => (f a).run s'
      | (.error e, s') => (.error e, s') := rfl

@[simp] theorem run_fail (e : Error) (s : State) : (fail e : Action α).run s = (.error e, s) := rfl

@[simp] theorem run_attempt (x : Action α) (s : State) :
    x.attempt.run s = (.ok (x.run s).1, (x.run s).2) := rfl

@[simp] theorem run_ofOutcome (r : Except Error α) (s : State) :
    (ofOutcome r).run s = (r, s) := by
  cases r <;> rfl

@[simp] theorem run_read (f : Heap → α) (s : State) : (read f).run s = (.ok (f s.heap), s) := rfl

@[simp] theorem run_inspect (f : Heap → Except Error α) (s : State) :
    (inspect f).run s = (f s.heap, s) := rfl

@[simp] theorem run_modifyHeap (f : Heap → Heap) (s : State) :
    (modifyHeap f).run s = (.ok (), { s with heap := f s.heap }) := rfl

/-- What has a text is recorded with it. -/
theorem run_recordShown (r : String → TraceRecord) (shown : Heap → Except Error String)
    (s : State) {text : String} (h : shown s.heap = .ok text) :
    (recordShown r shown).run s = (record (r text)).run s := by
  simp [recordShown, run, h]

/-- Taking up the outcome of an attempt is performing the operation. -/
theorem attempt_bind_ofOutcome (x : Action α) : x.attempt >>= ofOutcome = x := by
  funext s
  show (ofOutcome (x s).1).run (x s).2 = x s
  rw [run_ofOutcome]

theorem id_map' (x : Action α) : id <$> x = x := by
  funext s
  show (match x s with | (.ok a, s') => _ | (.error e, s') => _) = x s
  rcases x s with ⟨_ | _, _⟩ <;> rfl

theorem bind_assoc' {γ : Type} (x : Action α) (f : α → Action β) (g : β → Action γ) :
    x >>= f >>= g = x >>= fun a => f a >>= g := by
  funext s
  show (match (match x s with | (.ok a, s') => f a s' | (.error e, s') => _) with
    | (.ok b, s') => g b s' | (.error e, s') => _)
    = (match x s with | (.ok a, s') => _ | (.error e, s') => _)
  rcases x s with ⟨_ | _, _⟩ <;> rfl

instance : LawfulMonad Action :=
  LawfulMonad.mk' Action id_map' (fun _ _ => rfl) bind_assoc'

end Action

end LexEnv
