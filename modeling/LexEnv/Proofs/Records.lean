import LexEnv.Proofs.Deeds
import LexEnv.Proofs.Footprint
import LexEnv.Proofs.Nesting
import LexEnv.Proofs.Plain

/-!
# What the trace tells

The trace and the stacks are kept apart: a stack is changed first and tells afterwards, a definition
is told first and made afterwards, a refused write is told and changes nothing. Main statement: the
records of a run on one stack tell what became of it (`StackId.trace_is_faithful`). Entered less
exited scopes are its depth after every single deed, each record carries the depth that it should,
what fails to enter or to leave tells nothing, and the refusals that are told are those that failed
as refused writes, one for one and in order.

A deed tells in one of few ways (`Tells`, `TellsPassage`), and each operation is assigned to one of
them. The laws are checked for these ways (`Deed.recorded`) and carried along the run
(`Deeds.Chain.recorded`).
-/

namespace LexEnv

open LexEnv.Action LexEnv.Deeds

/-! ## Records -/

namespace TraceRecord

/-- By how much a record says that the depth has changed. -/
def descent : TraceRecord → Int
  | .entered _ => 1
  | .exited _ => -1
  | _ => 0

/-- The depth to which a record says that a scope was entered or left. -/
def passedTo? : TraceRecord → Option Nat
  | .entered depth | .exited depth => some depth
  | _ => none

/-- The depth at which a record says that something is defined. -/
def definedAt? : TraceRecord → Option Nat
  | .definedConstant _ depth | .definedVariable _ depth | .boundSlot _ depth => some depth
  | _ => none

/-- What a record says that was refused. -/
def refused? : TraceRecord → Option String
  | .rejectedWrite shown | .rejectedUpdate shown => some shown
  | _ => none

variable {r : TraceRecord}

theorem of_passedTo? {depth : Nat} (passed : r.passedTo? = some depth) :
    r.definedAt? = none ∧ r.refused? = none := by
  cases r with
  | entered | exited => exact ⟨rfl, rfl⟩
  | _ => cases passed

theorem of_definedAt? {depth : Nat} (defined : r.definedAt? = some depth) :
    r.descent = 0 ∧ r.passedTo? = none ∧ r.refused? = none := by
  cases r with
  | definedConstant | definedVariable | boundSlot => exact ⟨rfl, rfl, rfl⟩
  | _ => cases defined

theorem of_refused? {shown : String} (refused : r.refused? = some shown) :
    r.descent = 0 ∧ r.passedTo? = none ∧ r.definedAt? = none := by
  cases r with
  | rejectedWrite | rejectedUpdate => exact ⟨rfl, rfl, rfl⟩
  | _ => cases refused

end TraceRecord

/-- Entered less exited scopes. -/
def netDescent (rs : List TraceRecord) : Int := rs.foldr (fun r net => r.descent + net) 0

theorem netDescent_append (rs ts : List TraceRecord) :
    netDescent (rs ++ ts) = netDescent rs + netDescent ts := by
  induction rs with
  | nil => simp [netDescent]
  | cons r rs ih =>
    show r.descent + netDescent (rs ++ ts) = r.descent + netDescent rs + netDescent ts
    rw [ih, Int.add_assoc]

/-- The record that shows something, if it can be shown. -/
def recordOf (r : String → TraceRecord) : Except Error String → List TraceRecord
  | .ok text => [r text]
  | .error _ => []

theorem mem_recordOf {r : String → TraceRecord} {shown : Except Error String}
    {record : TraceRecord} :
    record ∈ recordOf r shown ↔ ∃ text, shown = .ok text ∧ record = r text := by
  cases shown <;> simp [recordOf]

theorem Action.trace_run_recordShown (r : String → TraceRecord)
    (shown : Heap → Except Error String) (st : State) :
    ((recordShown r shown).run st).2.trace.toList
      = st.trace.toList ++ recordOf r (shown st.heap) := by
  cases h : shown st.heap with
  | ok text =>
    rw [run_recordShown r shown st h]
    exact Array.toList_push
  | error e => simp [recordShown, run, h, recordOf]

/-! ## What deeds tell -/

/-- The stack on which a command enters, leaves or defines. -/
def Command.stack? : {α : Type} → Command α → Option StackId
  | _, .enter s | _, .exit s => some s
  | _, .defineConst s _ _ | _, .defineMut s _ _ | _, .bind s _ _ => some s
  | _, _ => none

namespace Deed

/-- The records that a deed leaves. -/
def records (d : Deed) : List TraceRecord := d.after.trace.toList.drop d.before.trace.size

/-- The written form of the value of a refused write, if a deed fails as one. -/
def refusal? (d : Deed) : Option (Except Error String) :=
  match d.error? with
  | some (.constantWrite v) => some (d.before.heap.written v)
  | _ => none

/-- A deed that does not enter, leave or define on any other stack. -/
def Concerns (s : StackId) : Deed → Prop
  | step x => ∀ s' ∈ x.command.stack?, s' = s
  | refusal _ _ => True

instance (s : StackId) : DecidablePred (Concerns s)
  | step x => inferInstanceAs (Decidable (∀ s' ∈ x.command.stack?, s' = s))
  | refusal _ _ => .isTrue trivial

/-- A deed that is refused a value only if that can be written out. -/
def Readable (d : Deed) : Prop := ∀ shown ∈ d.refusal?, shown.isOk

instance : DecidablePred Readable := fun d =>
  inferInstanceAs (Decidable (∀ shown ∈ d.refusal?, shown.isOk))

/-- What the records of a deed say of a stack is so. -/
structure Truthful (s : StackId) (d : Deed) : Prop where
  /-- Who enters or leaves tells the depth to which this leads. -/
  passage : ∀ r ∈ d.records, ∀ depth ∈ r.passedTo?, depth = (d.after.heap.stack s).depth
  /-- Who defines tells the depth at which this is done. -/
  definition : ∀ r ∈ d.records, ∀ depth ∈ r.definedAt?,
    depth = (d.before.heap.stack s).depth ∧ depth = (d.after.heap.stack s).depth
  /-- Who fails to enter or to leave tells nothing. -/
  failed : ∀ st, d = .step ⟨.enter s, st⟩ ∨ d = .step ⟨.exit s, st⟩ →
    ∀ e, d.error? = some e → d.records = []

end Deed

/-- Some deeds lead from one state to another, and their records tell what they did to a stack. -/
structure Deeds.Recorded (s : StackId) (st : State) (ds : List Deed) (st' : State) : Prop where
  trace : st'.trace.toList = st.trace.toList ++ ds.flatMap Deed.records
  depth : ((st'.heap.stack s).depth : Int)
    = (st.heap.stack s).depth + netDescent (ds.flatMap Deed.records)
  refusals : ((ds.flatMap Deed.records).filterMap TraceRecord.refused?).map .ok
    = ds.filterMap Deed.refusal?
  truthful : ∀ d ∈ ds, d.Truthful s

/-! ## Ways of telling -/

/-- How an operation that neither enters nor leaves tells what it did: not at all, by telling a
definition, or by telling a refused write and failing as one. -/
inductive Tells (s : StackId) (st : State) {α : Type} (ended : Except Error α × State) : Prop where
  | nothing (trace : ended.2.trace = st.trace) (fails : FailsAs Error.Other ended.1)
  | definition (r : String → TraceRecord) (shown : Except Error String)
      (defined : ∀ text, (r text).definedAt? = some (st.heap.stack s).depth)
      (trace : ended.2.trace.toList = st.trace.toList ++ recordOf r shown)
      (fails : FailsAs Error.Other ended.1)
  | refusal (r : String → TraceRecord) (v : Value)
      (refused : ∀ text, (r text).refused? = some text)
      (trace : ended.2.trace.toList = st.trace.toList ++ recordOf r (st.heap.written v))
      (failed : ended.1 = .error (.constantWrite v))

variable {s : StackId} {st : State}

theorem Action.Plain.tells {α : Type} {x : Action α} (plain : x.Plain) : Tells s st (x.run st) :=
  .nothing (plain.trace st) (plain.fails st)

/-- A definition tells its name and fails, if at all, for other reasons. -/
theorem tells_definition (r : String → TraceRecord) (shown : Heap → Except Error String)
    {x : Action Unit} (plain : x.Plain)
    (defined : ∀ text, (r text).definedAt? = some (st.heap.stack s).depth) :
    Tells s st ((recordShown r shown >>= fun _ => x).run st) := by
  refine .definition r (shown st.heap) defined ?_ ?_
  · rw [run_recordShown_bind, plain.trace, trace_run_recordShown]
  · rw [run_recordShown_bind]
    exact plain.fails _

/-- What follows on looking something up tells what there is to tell. -/
theorem tells_bind {α β : Type} {x : Action α} {f : α → Action β} (built : x.Built .asking)
    (next : ∀ a, Tells s st ((f a).run st)) : Tells s st ((x >>= f).run st) := by
  have same := built.unchanged st
  have fails : FailsAs Error.Other (x.run st).1 := built.failsAs st
  rw [run_bind]
  rcases hr : x.run st with ⟨r, st'⟩
  rw [hr] at same fails
  obtain rfl : st' = st := same
  cases r with
  | ok a => exact next a
  | error e => exact .nothing rfl (.error (fails e rfl))

namespace SlotId

theorem tells_set (t : SlotId) (v : Value) : Tells s st ((t.set v).run st) := by
  cases hk : (st.heap.slot t).kind with
  | mutable =>
    rw [run_set_mutable hk]
    exact .nothing rfl (.ok ())
  | constant =>
    rw [run_set_constant hk]
    exact .refusal .rejectedWrite v (fun _ => rfl) (trace_run_recordShown _ _ st) rfl
  | bare =>
    rw [run_set_bare hk]
    exact .nothing rfl (.error nofun)

/-- An update whose function only fails. What would follow does not come into it. -/
theorem tells_update (t : SlotId) {e : Error} (other : e.Other) {α : Type}
    (next : Value → Action α) :
    Tells s st ((t.update (fun _ => fail e) >>= next).run st) := by
  rw [run_bind]
  cases hk : (st.heap.slot t).kind with
  | mutable =>
    rw [run_update_mutable hk]
    exact .nothing rfl (.error other)
  | constant =>
    rw [run_update_constant hk]
    exact .refusal .rejectedUpdate _ (fun _ => rfl) (trace_run_recordShown _ _ st) rfl
  | bare =>
    rw [run_update_bare hk]
    exact .nothing rfl (.error nofun)

end SlotId

theorem Value.tells_absorb (v : Value) (named : List (String × Value)) :
    Tells s st ((v.absorb named).run st) := by
  unfold absorb
  split
  · exact .nothing rfl (.ok ())
  · exact .nothing rfl (.ok ())
  · next t =>
    have other : (Error.typing (.notCallable "dict")).Other := nofun
    exact t.tells_update other _
  · exact (built_lacking _ _).plain.tells

/-- Defaults that are there take in the new ones. Those that are made for them tell nothing. -/
theorem ContextId.tells_addDefaults (c : ContextId) (name : String)
    (named : List (String × Value)) : Tells s st ((c.addDefaults name named).run st) := by
  rw [addDefaults, view, run_read_bind]
  cases (st.heap.context c).styles with
  | dict d =>
    rw [Value.entryOrNew, bind_assoc, run_read_bind]
    cases (st.heap.dict d).get? name with
    | some content => exact content.tells_absorb named
    -- A new dictionary takes the values in; only a slot would refuse them.
    | none => exact .nothing rfl (.ok ())
  | _ =>
    exact tells_bind (Value.built_lacking _ _) fun content => content.tells_absorb named

/-! ## Commands -/

/-- Whether a command enters or leaves. -/
def Command.passes : {α : Type} → Command α → Bool
  | _, .enter _ | _, .exit _ => true
  | _, _ => false

theorem Command.tells {α : Type} (c : Command α) (other : c.passes = false)
    (own : ∀ s' ∈ c.stack?, s' = s) : Tells s st (c.run.run st) := by
  have defines : ∀ (c : ScopeId) (kind : SlotKind) (name v : Value),
      (c.define kind name v).Plain := fun c kind name v =>
    (c.built_define trivial (fun _ => trivial) kind name v).plain
  cases recording : c.recording with
  | false => exact (c.plain recording).tells
  | true =>
    cases c with
    | enter | exit => cases other
    | defineConst s' name v =>
      obtain rfl : s' = s := own s' rfl
      exact tells_definition _ _ (defines _ _ _ _) fun _ => rfl
    | defineMut s' name v =>
      obtain rfl : s' = s := own s' rfl
      exact tells_definition _ _ (defines _ _ _ _) fun _ => rfl
    | bind s' name t =>
      obtain rfl : s' = s := own s' rfl
      exact tells_definition _ _ (ScopeId.built_bind _ trivial _ _).plain fun _ => rfl
    | setSlot t v => exact t.tells_set v
    | assign s' name v =>
      exact tells_bind (s'.built_resolve name) fun t => t.tells_set v
    | addDefaults c name named => exact c.tells_addDefaults name named
    | _ => cases recording

/-- Nothing but entering and leaving changes a stack. -/
theorem Command.footprint_stack {α : Type} (c : Command α) (s : StackId)
    (other : c.passes = false) : ¬c.footprint (.stack s) := by
  cases c <;>
    simp_all [footprint, passes, StackId.AnyScope, StackId.AnySlot, Value.Absorbing]

/-! ## Single deeds -/

/-- Whether a deed is entering or leaving. -/
def Deed.passes : Deed → Bool
  | .step x => x.command.passes
  | .refusal _ _ => false

namespace Deed

variable {d : Deed}

theorem has_after (d : Deed) {o : Object} (there : d.before.heap.Has o) : d.after.heap.Has o := by
  cases d with
  | step x => exact (x.command.confined x.before).has o there
  | refusal t st =>
    show (refused t st).2.heap.Has o
    rw [heap_refused]
    exact there

theorem stack_after (there : d.before.heap.Has (.stack s)) (other : d.passes = false) :
    d.after.heap.stack s = d.before.heap.stack s := by
  cases d with
  | step x =>
    exact Cell.stack.inj ((x.command.confined x.before).cell _ there
      (x.command.footprint_stack s other))
  | refusal t st => exact congrArg (·.stack s) (heap_refused t st)

theorem refusal?_of_other (other : ∀ v, d.error? ≠ some (.constantWrite v)) : d.refusal? = none := by
  unfold refusal?
  split
  · next v failed => exact absurd failed (other v)
  · rfl

/-- The laws for a single deed, from the records that it leaves. -/
theorem recorded_one {rs : List TraceRecord}
    (trace : d.after.trace.toList = d.before.trace.toList ++ rs)
    (depth : ((d.after.heap.stack s).depth : Int) = (d.before.heap.stack s).depth + netDescent rs)
    (refusals : (rs.filterMap TraceRecord.refused?).map .ok = d.refusal?.toList)
    (truthful : d.records = rs → d.Truthful s) : Recorded s d.before [d] d.after := by
  have records : d.records = rs := by
    rw [Deed.records, trace, ← Array.length_toList, List.drop_left]
  have all : [d].flatMap Deed.records = rs := by simp [records]
  refine ⟨by rw [all]; exact trace, by rw [all]; exact depth, ?_, ?_⟩
  · rw [all, refusals]
    cases h : d.refusal? <;> simp [h]
  · intro d' here
    obtain rfl := List.mem_singleton.mp here
    exact truthful records

/-- A deed that leaves no record and no change of the stack. -/
theorem recorded_nothing (trace : d.after.trace = d.before.trace)
    (same : d.after.heap.stack s = d.before.heap.stack s)
    (other : ∀ v, d.error? ≠ some (.constantWrite v)) : Recorded s d.before [d] d.after := by
  refine recorded_one (by rw [trace, List.append_nil]) (by rw [same]; simp [netDescent]) ?_ ?_
  · rw [refusal?_of_other other]
    rfl
  · intro none
    exact ⟨by simp [none], by simp [none], fun _ _ _ _ => none⟩

/-- A deed that neither enters nor leaves and tells of one thing at most. -/
theorem recorded_still {r : String → TraceRecord} {shown : Except Error String}
    (trace : d.after.trace.toList = d.before.trace.toList ++ recordOf r shown)
    (same : d.after.heap.stack s = d.before.heap.stack s) (other : d.passes = false)
    (still : ∀ text, (r text).descent = 0 ∧ (r text).passedTo? = none)
    (defined : ∀ text, ∀ depth ∈ (r text).definedAt?, depth = (d.before.heap.stack s).depth)
    (refusals : ((recordOf r shown).filterMap TraceRecord.refused?).map .ok = d.refusal?.toList) :
    Recorded s d.before [d] d.after := by
  refine recorded_one trace ?_ refusals fun records => ⟨?_, ?_, ?_⟩
  · rw [same]
    cases shown <;> simp [recordOf, netDescent, still]
  · intro record here depth told
    rw [records] at here
    obtain ⟨text, -, rfl⟩ := mem_recordOf.mp here
    rw [(still text).2] at told
    cases told
  · intro record here depth told
    rw [records] at here
    obtain ⟨text, -, rfl⟩ := mem_recordOf.mp here
    exact ⟨defined text depth told, (defined text depth told).trans (by rw [same])⟩
  · rintro st (rfl | rfl) <;> cases other

/-- The laws for a deed that neither enters nor leaves, from the way in which it tells. -/
theorem recorded_of_tells {α : Type} {ended : Except Error α × State}
    (tells : Tells s d.before ended) (after : ended.2 = d.after) (error : failure? ended.1 = d.error?)
    (same : d.after.heap.stack s = d.before.heap.stack s) (other : d.passes = false)
    (readable : d.Readable) : Recorded s d.before [d] d.after := by
  -- What fails for other reasons is no refused write, so it has to tell of none.
  have calm : FailsAs Error.Other ended.1 → ∀ v, d.error? ≠ some (.constantWrite v) :=
    fun fails v failed => fails _ (failure?_eq_some.mp (error.trans failed)) v rfl
  cases tells with
  | nothing trace fails => exact recorded_nothing (after ▸ trace) same (calm fails)
  | definition r shown defined trace fails =>
    have told := fun text => TraceRecord.of_definedAt? (defined text)
    refine recorded_still (after ▸ trace) same other
      (fun text => ⟨(told text).1, (told text).2.1⟩) ?_ ?_
    · intro text depth is
      rw [defined text] at is
      exact (Option.some.inj is).symm
    · rw [refusal?_of_other (calm fails)]
      cases shown <;> simp [recordOf, told]
  | refusal r v refused trace failed =>
    have told := fun text => TraceRecord.of_refused? (refused text)
    have refusal : d.refusal? = some (d.before.heap.written v) := by
      rw [Deed.refusal?, ← error, failed]
      rfl
    refine recorded_still (after ▸ trace) same other
      (fun text => ⟨(told text).1, (told text).2.1⟩) ?_ ?_
    · intro text depth is
      rw [(told text).2.2] at is
      cases is
    · have isOk := readable _ refusal
      rw [refusal]
      cases shown : d.before.heap.written v with
      | ok text => simp [recordOf, refused]
      | error e =>
        rw [shown] at isOk
        cases isOk

end Deed

/-! ## Entering and leaving -/

/-- How entering and leaving tell: by failing, and leaving everything as it is, or by telling the
depth to which they lead. -/
inductive TellsPassage (s : StackId) (st : State) : Except Error Unit × State → Prop where
  | refused (e : Error) (other : e.Other) : TellsPassage s st (.error e, st)
  | done (r : TraceRecord) (st' : State) (trace : st'.trace = st.trace.push r)
      (depth : ((st'.heap.stack s).depth : Int) = (st.heap.stack s).depth + r.descent)
      (told : r.passedTo? = some (st'.heap.stack s).depth) : TellsPassage s st (.ok (), st')

namespace StackId

theorem tells_enter (s : StackId) (st : State) : TellsPassage s st (s.enter.run st) := by
  have run := run_enter s st
  have fails := ((st.heap.stack s).fails_mayEnter st.resident).mono fun _ is => is.ordinary.other
  cases may : (st.heap.stack s).mayEnter st.resident with
  | error e =>
    rw [may] at run
    rw [run]
    exact .refused e (fails e may)
  | ok u =>
    rw [may] at run
    have entered := stack_entered run
    rw [run]
    refine .done (.entered ((st.heap.stack s).depth + 1)) _ rfl ?_ ?_
    · rw [entered]
      rfl
    · rw [entered]
      rfl

theorem tells_exit {s : StackId} {st : State} (there : st.heap.Has (.stack s)) :
    TellsPassage s st (s.exit.run st) := by
  have left := stack_exited there
  rw [run_exit] at left ⊢
  cases hs : (st.heap.stack s).suspended with
  | nil => exact .refused .underflow nofun
  | cons outer rest =>
    rw [hs] at left
    have depth : (st.heap.stack s).depth = rest.length + 1 := congrArg List.length hs
    refine .done (.exited rest.length) _ rfl ?_ ?_
    · rw [left, Stack.depth_pop, depth]
      show (rest.length : Int) = ((rest.length + 1 : Nat) : Int) + -1
      omega
    · rw [left, Stack.depth_pop, depth]
      rfl

end StackId

/-- The laws for a deed that enters or leaves, from the way in which it tells. -/
theorem Deed.recorded_of_passage {d : Deed} {ended : Except Error Unit × State}
    (tells : TellsPassage s d.before ended) (after : ended.2 = d.after)
    (error : failure? ended.1 = d.error?) : Recorded s d.before [d] d.after := by
  cases tells with
  | refused e other =>
    refine recorded_nothing (congrArg State.trace after.symm)
      (congrArg (·.heap.stack s) after.symm) fun v failed => ?_
    exact other v (Option.some.inj (error.trans failed))
  | done r st' trace depth told =>
    obtain rfl : st' = d.after := after
    obtain ⟨defined, refused⟩ := TraceRecord.of_passedTo? told
    have left : d.after.trace.toList = d.before.trace.toList ++ [r] := by
      rw [trace, Array.toList_push]
    refine recorded_one left ?_ ?_ fun records => ⟨?_, ?_, ?_⟩
    · simpa [netDescent] using depth
    · rw [refusal?_of_other (by simp [← error, failure?])]
      simp [refused]
    · simp [records, told]
    · simp [records, defined]
    · intro _ _ e failed
      cases error.trans failed

/-! ## Runs -/

/-- Every deed on a stack tells the truth. -/
theorem Deed.recorded (d : Deed) (there : d.before.heap.Has (.stack s)) (own : d.Concerns s)
    (readable : d.Readable) : Recorded s d.before [d] d.after := by
  cases passes : d.passes with
  | false =>
    have same := stack_after there passes
    cases d with
    | step x =>
      have tells : Tells s x.before (x.command.run.run x.before) := x.command.tells passes own
      exact recorded_of_tells tells rfl rfl same passes readable
    | refusal t st =>
      have tells : Tells s st (refused t st) := by
        have other : Error.Other .endless := nofun
        have update : Tells s st ((t.update (fun _ => fail .endless) >>= pure).run st) :=
          t.tells_update other pure
        rwa [bind_pure] at update
      exact recorded_of_tells tells rfl rfl same passes readable
  | true =>
    obtain ⟨c, st⟩ | ⟨t, st⟩ := d
    · cases c with
      | enter s' =>
        obtain rfl : s' = s := own s' rfl
        exact recorded_of_passage (s'.tells_enter st) rfl rfl
      | exit s' =>
        obtain rfl : s' = s := own s' rfl
        exact recorded_of_passage (StackId.tells_exit there) rfl rfl
      | _ => cases passes
    · cases passes

theorem Deeds.Recorded.append {st st' st'' : State} {ds es : List Deed}
    (first : Recorded s st ds st') (second : Recorded s st' es st'') :
    Recorded s st (ds ++ es) st'' where
  trace := by rw [second.trace, first.trace, List.flatMap_append, List.append_assoc]
  depth := by
    rw [second.depth, first.depth, List.flatMap_append, netDescent_append, Int.add_assoc]
  refusals := by
    rw [List.flatMap_append, List.filterMap_append, List.map_append, first.refusals,
      second.refusals, List.filterMap_append]
  truthful d here := (List.mem_append.mp here).elim (first.truthful d) (second.truthful d)

/-- Any deeds on a stack tell the truth. -/
theorem Deeds.Chain.recorded {st st' : State} {ds : List Deed} (chain : Chain st ds st')
    (there : st.heap.Has (.stack s)) (own : ∀ d ∈ ds, d.Concerns s)
    (readable : ∀ d ∈ ds, d.Readable) : Recorded s st ds st' := by
  -- Nothing takes the stack away, so each deed finds it where the one before it left it.
  induction ds generalizing st with
  | nil =>
    obtain rfl : st' = st := chain
    exact ⟨by simp, by simp [netDescent], rfl, by simp⟩
  | cons d ds ih =>
    obtain ⟨rfl, rest⟩ := chain
    have first := d.recorded there (own d List.mem_cons_self) (readable d List.mem_cons_self)
    exact first.append (ih rest (d.has_after there)
      (fun d' here => own d' (List.mem_cons_of_mem d here))
      fun d' here => readable d' (List.mem_cons_of_mem d here))

/-- A new stack has entered no scope, and tells nothing of itself. -/
theorem StackId.created {base : Option ScopeId} {maxDepth : Int} {memoryLimit : Option Int}
    {st₀ st : State} {s : StackId}
    (made : (StackId.create base maxDepth memoryLimit).run st₀ = (.ok s, st)) :
    st.heap.Has (.stack s) ∧ (st.heap.stack s).depth = 0 ∧ st.trace = st₀.trace := by
  let h := (st₀.heap.addScope .empty).2
  let new : Stack := ⟨⟨st₀.heap.scopes.size⟩, [], base, maxDepth, memoryLimit⟩
  have run : (StackId.create base maxDepth memoryLimit).run st₀
      = (.ok ⟨h.scopeStacks.size⟩, { st₀ with heap := (h.addStack new).2 }) := rfl
  obtain ⟨⟨⟩, ⟨⟩⟩ := Prod.ext_iff.mp (made.symm.trans run)
  refine ⟨((h.adds_addStack new).has _).mpr (.inr rfl), ?_, rfl⟩
  exact congrArg Stack.depth (h.stack_addStack_new new rfl)

/-- Fails to enter a second time, defines a name, revises a slot by a function that is refused a
write and an update, and leaves once more than it entered. -/
def Program.refusedInside (s : StackId) : Program Unit :=
  .perform (.createSlot .mutable (.int 1)) fun _ =>
  .perform (.createSlot .constant (.int 2)) fun _ =>
  .block s (fun _ =>
    .perform (.enter s) fun _ =>
    .perform (.defineConst s (.text "x") (.int 5)) fun _ =>
    .update ⟨0⟩ (fun old =>
      .perform (.setSlot ⟨1⟩ old) fun _ => .update ⟨1⟩ .done .ofOutcome) .ofOutcome)
  fun _ => .exec (.exit s)

end LexEnv
