import LexEnv.Call
import LexEnv.Proofs.Looking
import LexEnv.Proofs.Object
import Mathlib.Logic.Relation

/-!
# What operations are built of

Every operation of the library is made of a few elementary actions: it reads off the heap, changes
an object, adds one, looks at the memory in use, leaves records and fails, one after the other.
`Action.Built` says so of an action, and keeps count of what the elementary actions may do: the
errors that they may fail with, the objects that they may change or add, and so on (`Powers`).

A law of operations is then a law of the elementary actions. What an action makes of a state is a
chain of permitted steps (`Action.Built.steps`), and what it fails with is permitted
(`Action.Built.failsAs`). So is the law that nobody reads the trace: what an operation answers, and
what it makes of the heap, does not depend on the records that were left before it
(`Action.Oblivious`).
-/

namespace LexEnv

open LexEnv.Action

/-! ## Errors and objects of some kind -/

/-- An error that is no refused write. -/
def Error.Other (e : Error) : Prop := ∀ v, e ≠ .constantWrite v

/-- The message of an error is a text. -/
def Error.Worded (e : Error) : Prop := ∃ s, e.message = .text s

/-- An error that is not of the script itself. -/
def Error.Unscripted (e : Error) : Prop := ∀ fault, e ≠ .eval fault

/-- An error as operations raise it: neither a refused write nor one of the script itself, and with a
text for a message. -/
structure Error.Ordinary (e : Error) : Prop where
  other : e.Other
  unscripted : e.Unscripted
  worded : e.Worded

theorem Error.OfLooking.ordinary {e : Error} (looking : e.OfLooking) : e.Ordinary := by
  cases looking <;> exact ⟨nofun, nofun, _, rfl⟩

theorem Error.OfEntering.ordinary {e : Error} (entering : e.OfEntering) : e.Ordinary := by
  cases entering <;> exact ⟨nofun, nofun, _, rfl⟩

/-- What names resolve by: slots, scopes and stacks. -/
def Object.Resolving : Object → Prop
  | .slot _ | .scope _ | .stack _ => True
  | _ => False

/-! ## Powers -/

/-- What an action may do: the errors it may fail with, the objects it may change and those it may
add, and whether it may leave records and take samples of the memory in use. -/
structure Powers where
  fails : Error → Prop
  changes : Object → Prop
  adds : Object → Prop
  records : Prop
  samples : Prop

namespace Powers

/-- Powers to do anything. -/
def all : Powers := ⟨fun _ => True, fun _ => True, fun _ => True, True, True⟩

/-- Some powers are no more than others. -/
structure Within (P Q : Powers) : Prop where
  fails : ∀ e, P.fails e → Q.fails e
  changes : ∀ o, P.changes o → Q.changes o
  adds : ∀ o, P.adds o → Q.adds o
  records : P.records → Q.records
  samples : P.samples → Q.samples

theorem within_all (P : Powers) : P.Within all :=
  ⟨fun _ _ => trivial, fun _ _ => trivial, fun _ _ => trivial, fun _ => trivial, fun _ => trivial⟩

/-- Powers to fail as operations do, but not to refuse a write. -/
class Failing (P : Powers) : Prop where
  ordinary : ∀ {e : Error}, e.Ordinary → P.fails e

/-- Powers to fail as a script does, with a text for a message. -/
class Faulting (P : Powers) : Prop where
  fault : ∀ {fault : EvalFault}, (Error.eval fault).Worded → P.fails (.eval fault)

/-- Powers to refuse a write, which leaves a record. -/
class Refusing (P : Powers) : Prop where
  refusal : ∀ v, P.fails (.constantWrite v)
  records : P.records

/-- Powers to make values. -/
class Making (P : Powers) : Prop where
  adds : ∀ {o : Object}, ¬o.Resolving → P.adds o

instance : all.Failing := ⟨fun _ => trivial⟩

instance : all.Faulting := ⟨fun _ => trivial⟩

instance : all.Refusing := ⟨fun _ => trivial, trivial⟩

/-- The same powers, but to fail with other errors. -/
def failingAs (P : Powers) (E : Error → Prop) : Powers := { P with fails := E }

instance (P : Powers) : (P.failingAs Error.Ordinary).Failing := ⟨id⟩

instance (P : Powers) [P.Making] (E : Error → Prop) : (P.failingAs E).Making :=
  ⟨Making.adds (P := P)⟩

theorem Within.failingAs {P Q : Powers} (within : P.Within Q) (E : Error → Prop) :
    (P.failingAs E).Within (Q.failingAs E) := { within with fails := fun _ => id }

/-- What one elementary action may make of a state. -/
inductive Step (P : Powers) (st : State) : State → Prop where
  | change {o : Object} {heap : Heap} (inside : P.changes o) (change : st.heap.Changes o heap) :
    Step P st { st with heap }
  | add {o : Object} {heap : Heap} (inside : P.adds o) (adds : st.heap.Adds o heap) :
    Step P st { st with heap }
  | record (records : P.records) (r : TraceRecord) : Step P st { st with trace := st.trace.push r }
  | sample (samples : P.samples) (resident : Int) : Step P st { st with resident }

theorem Step.of_failingAs {P : Powers} {E : Error → Prop} {st st' : State}
    (step : (P.failingAs E).Step st st') : P.Step st st' := by
  cases step with
  | change inside change => exact .change inside change
  | add inside adds => exact .add inside adds
  | record records r => exact .record (P := P) records r
  | sample samples resident => exact .sample (P := P) samples resident

end Powers

/-! ## Elementary actions -/

/-- An action made of elementary ones that do no more than they may. An attempt may fail in other
ways, and what follows on it sees an error of these. -/
inductive Action.Built : Powers → {α : Type} → Action α → Prop where
  | pure {P : Powers} {α : Type} (a : α) : Built P (Pure.pure a)
  | fail {P : Powers} {α : Type} {e : Error} (fails : P.fails e) :
    Built P (Action.fail e : Action α)
  | read {P : Powers} {α : Type} (f : Heap → α) : Built P (Action.read f)
  | inspect {P : Powers} {α : Type} {f : Heap → Except Error α}
    (fails : ∀ h, FailsAs P.fails (f h)) : Built P (Action.inspect f)
  | modifyHeap {P : Powers} {f : Heap → Heap} {o : Object} (inside : P.changes o)
    (change : ∀ h : Heap, h.Changes o (f h)) : Built P (Action.modifyHeap f)
  | allocate {P : Powers} {α : Type} {add : Heap → α × Heap} {new : Heap → Object}
    (inside : ∀ h, P.adds (new h)) (adds : ∀ h : Heap, h.Adds (new h) (add h).2) :
    Built P (Action.allocate add)
  | record {P : Powers} (records : P.records) (r : TraceRecord) : Built P (Action.record r)
  | recordShown {P : Powers} (records : P.records) (r : String → TraceRecord)
    (shown : Heap → Except Error String) : Built P (Action.recordShown r shown)
  | setResident {P : Powers} (samples : P.samples) (resident : Int) :
    Built P (Command.setResident resident)
  | withResident {P : Powers} {α : Type} {f : Int → Action α} (hf : ∀ n, Built P (f n)) :
    Built P (Action.state >>= fun st => f st.resident)
  | bind {P : Powers} {α β : Type} {x : Action α} {f : α → Action β} (hx : Built P x)
    (hf : ∀ a, Built P (f a)) : Built P (x >>= f)
  | attempt {P : Powers} {E : Error → Prop} {α β : Type} {x : Action α}
    {f : Except Error α → Action β} (hx : Built (P.failingAs E) x)
    (hf : ∀ r, FailsAs E r → Built P (f r)) : Built P (x.attempt >>= f)

namespace Action

variable {P Q : Powers} {α β : Type}

theorem Built.mono {x : Action α} (built : x.Built P) (within : P.Within Q) : x.Built Q := by
  induction built generalizing Q with
  | pure a => exact .pure a
  | fail fails => exact .fail (within.fails _ fails)
  | read f => exact .read f
  | inspect fails => exact .inspect fun h => (fails h).mono within.fails
  | modifyHeap inside change => exact .modifyHeap (within.changes _ inside) change
  | allocate inside adds => exact .allocate (fun h => within.adds _ (inside h)) adds
  | record records r => exact .record (within.records records) r
  | recordShown records r shown => exact .recordShown (within.records records) r shown
  | setResident samples resident => exact .setResident (within.samples samples) resident
  | withResident _ ih => exact .withResident fun n => ih n within
  | bind _ _ ihx ihf => exact .bind (ihx within) fun a => ihf a within
  | @attempt _ E _ _ _ _ _ _ ihx ihf =>
    exact .attempt (ihx (within.failingAs E)) fun r fails => ihf r fails within

/-- What an action fails with is permitted. -/
theorem Built.failsAs {x : Action α} (built : x.Built P) (st : State) :
    FailsAs P.fails (x.run st).1 := by
  induction built generalizing st with
  | pure a => exact .ok a
  | fail fails => exact .error fails
  | read f => exact .ok _
  | inspect fails => exact fails st.heap
  | modifyHeap | allocate | record | setResident => exact .ok _
  | recordShown _ r shown =>
    simp only [run, Action.recordShown]
    cases shown st.heap <;> exact .ok ()
  | withResident _ ih => exact ih st.resident st
  | @bind _ _ _ x _ _ _ ihx ihf =>
    have fails := ihx st
    rw [run_bind]
    rcases ran : x.run st with ⟨e | a, st'⟩
    · rw [ran] at fails
      exact .error (fails e rfl)
    · exact ihf a st'
  | attempt _ _ ihx ihf => exact ihf _ (ihx st) _

/-- What an action makes of a state is a chain of permitted steps. -/
theorem Built.steps {x : Action α} (built : x.Built P) (st : State) :
    Relation.ReflTransGen P.Step st (x.run st).2 := by
  induction built generalizing st with
  | pure | fail | read | inspect => exact .refl
  | modifyHeap inside change => exact .single (.change inside (change st.heap))
  | allocate inside adds => exact .single (.add (inside st.heap) (adds st.heap))
  | record records r => exact .single (.record records r)
  | recordShown records r shown =>
    simp only [run, Action.recordShown]
    cases shown st.heap with
    | ok text => exact .single (.record records (r text))
    | error e => exact .refl
  | setResident samples resident => exact .single (.sample samples resident)
  | withResident _ ih => exact ih st.resident st
  | @bind _ _ _ x _ _ _ ihx ihf =>
    have first := ihx st
    rw [run_bind]
    rcases ran : x.run st with ⟨e | a, st'⟩
    · rwa [ran] at first
    · rw [ran] at first
      exact first.trans (ihf a st')
  | attempt hx _ ihx ihf =>
    have first := Relation.ReflTransGen.mono (fun _ _ => Powers.Step.of_failingAs) _ _ (ihx st)
    exact first.trans (ihf _ (hx.failsAs st) _)

/-- What every permitted step keeps is kept. -/
theorem Built.keeps {R : State → State → Prop} (refl : ∀ st, R st st)
    (trans : ∀ {st st' st''}, R st st' → R st' st'' → R st st'')
    (step : ∀ {st st'}, P.Step st st' → R st st') {x : Action α} (built : x.Built P) (st : State) :
    R st (x.run st).2 := by
  generalize (x.run st).2 = st', built.steps st = steps
  induction steps with
  | refl => exact refl st
  | tail _ last ih => exact trans ih (step last)

/-! ## Nobody reads the trace -/

/-- An action that answers the same, and leaves the same behind but for the trace, whatever records
were left before. -/
def Oblivious (x : Action α) : Prop :=
  ∀ st trace, ∃ trace', x.run { st with trace } =
    ((x.run st).1, { (x.run st).2 with trace := trace' })

theorem Built.oblivious {x : Action α} (built : x.Built P) : x.Oblivious := by
  induction built with
  | pure | fail | read | inspect | modifyHeap | allocate | setResident =>
    exact fun st trace => ⟨trace, rfl⟩
  | record _ r => exact fun st trace => ⟨trace.push r, rfl⟩
  | recordShown _ r shown =>
    intro st trace
    simp only [run, Action.recordShown]
    cases shown st.heap with
    | ok text => exact ⟨trace.push (r text), rfl⟩
    | error e => exact ⟨trace, rfl⟩
  | withResident _ ih => exact fun st trace => ih st.resident st trace
  | bind _ _ ihx ihf =>
    intro st trace
    obtain ⟨trace', first⟩ := ihx st trace
    rw [run_bind, run_bind, first]
    rcases run _ st with ⟨r, st'⟩
    cases r with
    | ok a => exact ihf a st' trace'
    | error e => exact ⟨trace', rfl⟩
  | @attempt _ _ _ _ x f hx _ ihx ihf =>
    intro st trace
    obtain ⟨trace', same⟩ := ihx st trace
    have first : (x.attempt >>= f).run { st with trace } =
        (f (x.run { st with trace }).1).run (x.run { st with trace }).2 := rfl
    rw [first, same]
    exact ihf _ (hx.failsAs st) (x.run st).2 trace'

/-! ## Sequences of elementary actions -/

theorem built_fail [P.Failing] {e : Error} (ordinary : e.Ordinary) : (fail e : Action α).Built P :=
  .fail (Powers.Failing.ordinary ordinary)

theorem built_fault [P.Faulting] {fault : EvalFault} (worded : (Error.eval fault).Worded) :
    (fail (.eval fault) : Action α).Built P := .fail (Powers.Faulting.fault worded)

/-- What only looks at values. -/
theorem built_looking [P.Failing] {f : Heap → Except Error α} (looks : ∀ h, Looks (f h)) :
    (inspect f).Built P :=
  .inspect fun h => (looks h).mono fun _ is => Powers.Failing.ordinary is.ordinary

theorem built_ofOutcome {r : Except Error α} (fails : FailsAs P.fails r) :
    (ofOutcome r).Built P := by
  cases r with
  | ok a => exact .pure a
  | error e => exact .fail (fails e rfl)

theorem built_mapM {f : α → Action β} (hf : ∀ a, (f a).Built P) (as : List α) :
    (as.mapM f).Built P := by
  induction as with
  | nil => exact .pure []
  | cons a as ih =>
    rw [List.mapM_cons]
    exact .bind (hf a) fun b => .bind ih fun bs => .pure (b :: bs)

theorem built_foldlM {f : β → α → Action β} (hf : ∀ b a, (f b a).Built P) (b : β)
    (as : List α) : (as.foldlM f b).Built P := by
  induction as generalizing b with
  | nil => exact .pure b
  | cons a as ih =>
    rw [List.foldlM_cons]
    exact .bind (hf b a) ih

end Action

end LexEnv
