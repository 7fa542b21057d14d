import LexEnv.Proofs.Powers

/-!
# What operations may do

Every operation of the library, every command and every program is built of elementary actions. This
is said once for each, with the powers that it takes: reading arguments changes these arguments, a
definition changes a scope, and only slots refuse writes. `Command.powers` gives the powers of a
command; its footprint are the objects that it may change. Main statements: `Command.built` and
`Program.built`.

A law of operations needs no case for each of them then, but one for each kind of steps
(`Action.Built.keeps`).
-/

namespace LexEnv

open LexEnv.Action Powers

variable {P : Powers}

/-! ## Values -/

namespace Value

section

variable [P.Failing]

theorem built_lacking {α : Type} (v : Value) (operation : String) :
    (v.lacking operation : Action α).Built P :=
  .bind (.read _) fun _ => built_fail ⟨nofun, nofun, _, rfl⟩

theorem built_overloaded {α : Type} (operation : String) (takes given : Nat) :
    (overloaded operation takes given : Action α).Built P := built_fail ⟨nofun, nofun, _, rfl⟩

theorem built_atMostZero (v : Value) : v.atMostZero.Built P := by
  unfold atMostZero
  split
  · exact .pure _
  · exact .pure _
  · exact .pure _
  · exact .bind (.read _) fun _ => built_fail ⟨nofun, nofun, _, rfl⟩

end

section

variable [P.Making]

theorem built_newSequence (kind : SequenceKind) (items : List Value) :
    (newSequence kind items).Built P :=
  .bind (.allocate (fun _ => Making.adds id) fun h => h.adds_addSequence items) fun _ => .pure _

theorem built_newDict (entries : Table Value) : (newDict entries).Built P :=
  .bind (.allocate (fun _ => Making.adds id) fun h => h.adds_addDict entries) fun _ => .pure _

theorem built_addSerial : (allocate (·.addSerial)).Built P :=
  .allocate (fun _ => Making.adds id) Heap.adds_addSerial

theorem built_newFloat (x : Number.Binary64) : (newFloat x).Built P := by
  cases x with
  | nan => exact .bind built_addSerial fun _ => .pure _
  | finite => exact .pure _
  | infinite => exact .pure _

theorem built_newFunc (name : String) (native : Native) : (newFunc name native).Built P :=
  .bind built_addSerial fun _ => .pure _

variable [P.Failing]

theorem built_newClass (name : String) (type : HostType) : (newClass name type).Built P := by
  unfold newClass
  split
  · exact .bind built_addSerial fun _ => .pure _
  · exact built_fail ⟨nofun, nofun, _, rfl⟩

theorem built_combine (onInts : Int → Int → Int)
    (onFloats : Number.Binary64 → Number.Binary64 → Number.Binary64) (x y : Operand) :
    (combine onInts onFloats x y).Built P := by
  have toFloat : ∀ x : Operand, x.toFloat.Built P := by
    intro x
    unfold Operand.toFloat
    split
    · split
      · exact .pure _
      · exact built_fail ⟨nofun, nofun, _, rfl⟩
    · exact .pure _
  unfold combine
  split
  · exact .pure _
  · exact .bind (toFloat _) fun _ => .bind (toFloat _) fun _ => built_newFloat _

/-- Counting and repeating fail as overflow or exhaustion. -/
theorem built_repeat {v : Value} {n : Int} {x : Action Value} (h : v.repeat? n = some x) :
    x.Built P := by
  have counted : FailsAs Error.Ordinary (repetitions n) := .ite (.ok _) (.error ⟨nofun, nofun, _, rfl⟩)
  have repeated : ∀ {α : Type} (e : Error) (_ : e.Ordinary) (items : List α),
      FailsAs P.fails (repetitions n >>= fun n => repeatIn e n items) := by
    intro α e ordinary items
    refine (counted.bind fun n => ?_).mono fun _ => Failing.ordinary
    exact .ite (.ok _) (.ite (.error ordinary) (.ite (.error ⟨nofun, nofun, _, rfl⟩) (.ok _)))
  unfold repeat? at h
  split at h
  · cases h
    exact .bind (built_ofOutcome (repeated (.overflow .repeatedText) ⟨nofun, nofun, _, rfl⟩ _))
      fun _ => .pure _
  · cases h
    exact .bind (built_ofOutcome (repeated (.overflow .repeatedBytes) ⟨nofun, nofun, _, rfl⟩ _))
      fun _ => .pure _
  · cases h
    exact .bind (.inspect fun _ => repeated .exhausted ⟨nofun, nofun, _, rfl⟩ _)
      fun _ => built_newSequence _ _
  · cases h

theorem built_add (v w : Value) : (v.add w).Built P := by
  refine .bind (.read _) fun left => .bind (.read _) fun right => ?_
  split
  · exact .pure _
  · exact .pure _
  · exact built_fail ⟨nofun, nofun, _, rfl⟩
  · split
    · exact .bind (.read _) fun _ => built_newSequence _ _
    · exact built_fail ⟨nofun, nofun, _, rfl⟩
  · exact built_fail ⟨nofun, nofun, _, rfl⟩
  · exact built_fail ⟨nofun, nofun, _, rfl⟩
  · split
    · exact built_combine _ _ _ _
    · exact built_fail ⟨nofun, nofun, _, rfl⟩

theorem built_mul (v w : Value) : (v.mul w).Built P := by
  have repeated : ∀ (v : Value) (n : Int) {e : Error} (_ : e.Ordinary),
      ((v.repeat? n).getD (Action.fail e)).Built P := by
    intro v n e ordinary
    cases h : v.repeat? n with
    | none => exact built_fail ordinary
    | some x => exact built_repeat h
  refine .bind (.read _) fun left => .bind (.read _) fun right => ?_
  split
  · exact built_combine _ _ _ _
  · exact repeated _ _ ⟨nofun, nofun, _, rfl⟩
  · exact repeated _ _ ⟨nofun, nofun, _, rfl⟩
  · split
    · exact built_fail ⟨nofun, nofun, _, rfl⟩
    · split <;> exact built_fail ⟨nofun, nofun, _, rfl⟩

end

end Value

/-! ## Slots -/

namespace SlotId

theorem built_create (new : ∀ t, P.adds (.slot t)) (kind : SlotKind) (v : Value) :
    (create kind v).Built P := .allocate (fun _ => new _) fun h => h.adds_addSlot _

theorem built_store (t : SlotId) (own : P.changes (.slot t)) (v : Value) : (t.store v).Built P :=
  .modifyHeap own fun h => h.changes_setSlot t _

/-- A write that is refused leaves a record. -/
theorem built_refusal [P.Refusing] {α : Type} (r : String → TraceRecord)
    (shown : Heap → Except Error String) (v : Value) :
    (do recordShown r shown; fail (.constantWrite v) : Action α).Built P :=
  .bind (.recordShown Refusing.records r shown) fun _ => .fail (Refusing.refusal v)

variable [P.Failing]

theorem built_isConstant (t : SlotId) : t.isConstant.Built P := by
  refine .bind (.read _) fun kind => ?_
  cases kind with
  | mutable => exact .pure _
  | constant => exact .pure _
  | bare => exact built_fail ⟨nofun, nofun, _, rfl⟩

theorem built_setDirectly (t : SlotId) (own : P.changes (.slot t)) (v : Value) :
    (t.setDirectly v).Built P := by
  refine .bind (.read _) fun kind => ?_
  cases kind with
  | mutable => exact t.built_store own v
  | constant => exact built_fail ⟨nofun, nofun, _, rfl⟩
  | bare => exact built_fail ⟨nofun, nofun, _, rfl⟩

variable [P.Refusing]

theorem built_set (t : SlotId) (own : P.changes (.slot t)) (v : Value) : (t.set v).Built P := by
  refine .bind (.read _) fun kind => ?_
  cases kind with
  | mutable => exact t.built_store own v
  | constant => exact built_refusal _ _ v
  | bare => exact built_fail ⟨nofun, nofun, _, rfl⟩

theorem built_update (t : SlotId) (own : P.changes (.slot t)) {revise : Value → Action Value}
    (revised : ∀ v, (revise v).Built P) : (t.update revise).Built P := by
  refine .bind (.read _) fun old => .bind (.read _) fun kind => ?_
  cases kind with
  | mutable => exact .bind (revised old) fun new => .bind (t.built_store own new) fun _ => .pure new
  | constant => exact built_refusal _ _ old
  | bare => exact built_fail ⟨nofun, nofun, _, rfl⟩

/-- An update whose function fails at once changes nothing. -/
theorem built_update_fail (t : SlotId) {e : Error} (ordinary : e.Ordinary) :
    (t.update fun _ => fail e).Built P := by
  refine .bind (.read _) fun old => .bind (.read _) fun kind => ?_
  cases kind with
  | mutable =>
    show (fail e : Action Value).Built P
    exact built_fail ordinary
  | constant => exact built_refusal _ _ old
  | bare => exact built_fail ⟨nofun, nofun, _, rfl⟩

end SlotId

/-! ## Scopes -/

namespace ScopeId

theorem built_create (new : ∀ c, P.adds (.scope c)) (bindings : Scope) :
    (create bindings).Built P := .allocate (fun _ => new _) fun h => h.adds_addScope bindings

theorem built_copy (new : ∀ c, P.adds (.scope c)) (c : ScopeId) : c.copy.Built P :=
  .bind (.read _) fun _ => built_create new _

variable [P.Failing]

theorem built_enumerate (c : ScopeId) : c.enumerate.Built P :=
  built_looking fun h => h.looks_enumerate _

theorem built_lookup (c : ScopeId) (name : Value) : (c.lookup name).Built P :=
  built_looking fun h => (h.looks_key name).bind fun key => h.looks_find? key _

theorem built_bindKey (c : ScopeId) (own : P.changes (.scope c)) (key : Key) (t : SlotId) :
    (c.bindKey key t).Built P :=
  .bind (built_looking fun h => h.looks_put key t _) fun bindings =>
    .modifyHeap own fun h => h.changes_setScope c bindings

theorem built_bind (c : ScopeId) (own : P.changes (.scope c)) (name : Value) (t : SlotId) :
    (c.bind name t).Built P :=
  .bind (built_looking fun h => h.looks_key name) fun key => c.built_bindKey own key t

theorem built_define (c : ScopeId) (own : P.changes (.scope c)) (new : ∀ t, P.adds (.slot t))
    (kind : SlotKind) (name v : Value) : (c.define kind name v).Built P :=
  .bind (built_looking fun h => h.looks_key name) fun key =>
    .bind (SlotId.built_create new kind v) fun t => c.built_bindKey own key t

/-- Something is made and then bound to a name. -/
theorem built_defineMade (c : ScopeId) (own : P.changes (.scope c)) (new : ∀ t, P.adds (.slot t))
    (name : String) {made : Action Value} (built : made.Built P) :
    (made >>= c.defineConst (.text name)).Built P :=
  .bind built fun v => c.built_define own new .constant _ v

end ScopeId

/-! ## Stacks -/

namespace StackId

theorem built_create (scopes : ∀ c, P.adds (.scope c)) (scopeStacks : ∀ s, P.adds (.stack s))
    (base : Option ScopeId) (maxDepth : Int) (memoryLimit : Option Int) :
    (create base maxDepth memoryLimit).Built P :=
  .bind (ScopeId.built_create scopes _) fun _ =>
    .allocate (fun _ => scopeStacks _) fun h => h.adds_addStack _

theorem built_view (s : StackId) : s.view.Built P := .read _

theorem built_depth (s : StackId) : s.depth.Built P := .bind s.built_view fun _ => .pure _

theorem built_active (s : StackId) : s.active.Built P := .bind s.built_view fun _ => .pure _

variable [P.Failing]

theorem built_enter (s : StackId) (own : P.changes (.stack s)) (new : ∀ c, P.adds (.scope c))
    (records : P.records) : s.enter.Built P := by
  refine .bind s.built_view fun st => ?_
  -- The rest of the operation as a function of the memory in use.
  refine Built.withResident (f := fun resident => do
    ofOutcome (st.mayEnter resident)
    let fresh ← ScopeId.create .empty
    modifyHeap (·.setStack s { st with active := fresh, suspended := st.active :: st.suspended })
    record (.entered (st.depth + 1))) fun resident => ?_
  have refused : FailsAs P.fails (st.mayEnter resident) :=
    (st.fails_mayEnter resident).mono fun _ is => Failing.ordinary is.ordinary
  exact .bind (built_ofOutcome refused) fun _ => .bind (ScopeId.built_create new _) fun _ =>
    .bind (.modifyHeap own fun h => h.changes_setStack s _) fun _ => .record records _

theorem built_exit (s : StackId) (own : P.changes (.stack s)) (records : P.records) :
    s.exit.Built P := by
  refine .bind s.built_view fun st => ?_
  split
  · exact built_fail ⟨nofun, nofun, _, rfl⟩
  · exact .bind (.modifyHeap own fun h => h.changes_setStack s _) fun _ => .record records _

/-- A block does what its body does, besides entering and leaving. -/
theorem built_block {α : Type} (s : StackId) (own : P.changes (.stack s))
    (new : ∀ c, P.adds (.scope c)) (records : P.records) (any : ∀ e, P.fails e)
    {body : ScopeId → Action α} (inner : ∀ c, (body c).Built P) : (s.block body).Built P := by
  have within : P.Within (P.failingAs fun _ => True) :=
    ⟨fun _ _ => trivial, fun _ => id, fun _ => id, id, id⟩
  have enclosed : (s.enclose body).Built P := by
    refine .bind (s.built_enter own new records) fun _ => ?_
    refine .attempt ((Built.bind s.built_active inner).mono within) fun _ _ => ?_
    exact .attempt ((s.built_exit own records).mono within) fun _ _ => .pure _
  exact .bind enclosed fun _ =>
    .bind (built_ofOutcome fun e _ => any e) fun _ => built_ofOutcome fun e _ => any e

/-- A definition is recorded and goes to the active scope. -/
theorem built_define (s : StackId) (records : P.records) (own : ∀ c, P.changes (.scope c))
    (new : ∀ t, P.adds (.slot t)) (r : Stack → String → TraceRecord) (kind : SlotKind)
    (name v : Value) : (do
      let st ← s.view
      recordShown (r st) (·.display name)
      st.active.define kind name v : Action Unit).Built P :=
  .bind s.built_view fun _ => .bind (.recordShown records _ _) fun _ =>
    ScopeId.built_define _ (own _) new kind name v

theorem built_bind (s : StackId) (records : P.records) (own : ∀ c, P.changes (.scope c))
    (name : Value) (t : SlotId) : (s.bind name t).Built P :=
  .bind s.built_view fun _ => .bind (.recordShown records _ _) fun _ =>
    ScopeId.built_bind _ (own _) name t

theorem built_lookup (s : StackId) (name : Value) : (s.lookup name).Built P :=
  .bind s.built_view fun _ =>
    built_looking fun h => (h.looks_key name).bind fun key => h.looks_resolve key _

theorem built_resolve (s : StackId) (name : Value) : (s.resolve name).Built P := by
  refine .bind (s.built_lookup name) fun found => ?_
  cases found with
  | some t => exact .pure t
  | none =>
    exact .bind (built_looking fun h => h.looks_gapText name) fun _ =>
      built_fail ⟨nofun, nofun, _, rfl⟩

theorem built_get (s : StackId) (name : Value) : (s.get name).Built P :=
  .bind (s.built_resolve name) fun _ => .read _

theorem built_capture (s : StackId) (new : ∀ c, P.adds (.scope c)) (names : List Value) :
    (s.capture names).Built P := by
  refine .bind s.built_view fun st => .bind (built_looking fun h => ?_) fun _ =>
    ScopeId.built_create new _
  refine .foldlM (fun captured name => ?_) _ names
  refine (h.looks_key name).bind fun key => (h.looks_resolve key _).bind fun found => ?_
  cases found with
  | some t => exact h.looks_put key t captured
  | none => exact .ok captured

theorem built_visible (s : StackId) : s.visible.Built P :=
  .bind s.built_view fun _ => built_looking fun h => h.looks_visible _

variable [P.Refusing]

theorem built_assign (s : StackId) (own : ∀ t, P.changes (.slot t)) (name v : Value) :
    (s.assign name v).Built P := .bind (s.built_resolve name) fun t => t.built_set (own t) v

end StackId

/-! ## Arguments -/

theorem Arguments.worded_leftover {x : Arguments} {fault : EvalFault}
    (left : x.leftover? = some fault) : (Error.eval fault).Worded := by
  unfold leftover? at left
  split at left <;> cases left <;> exact ⟨_, rfl⟩

namespace ArgumentsId

theorem built_create [P.Making] (positional : List Value) (entries : List (String × Value)) :
    (create positional entries).Built P :=
  .allocate (fun _ => Making.adds id) fun h => h.adds_addArguments _

theorem built_finish [P.Faulting] (a : ArgumentsId) : a.finish.Built P := by
  refine .bind (.read _) fun x => ?_
  split
  · next left => exact built_fault (Arguments.worded_leftover left)
  · exact .pure _

variable (a : ArgumentsId) (own : P.changes (.arguments a))

include own

theorem built_store (x : Arguments) : (a.store x).Built P :=
  .modifyHeap own fun h => h.changes_setArguments a x

/-- Reading the first positional argument, whatever is done when there is none. -/
theorem built_readFirst {otherwise : Action Value} (built : otherwise.Built P) :
    (do
      match (← a.view).eat? with
      | some (v, rest) =>
        a.store rest
        return v
      | none => otherwise : Action Value).Built P := by
  refine .bind (.read _) fun x => ?_
  cases x.eat? with
  | some found => exact .bind (a.built_store own found.2) fun _ => .pure found.1
  | none => exact built

theorem built_eat : a.eat.Built P := a.built_readFirst own (.pure _)

theorem built_expect [P.Faulting] (what : String) : (a.expect what).Built P :=
  a.built_readFirst own (built_fault ⟨_, rfl⟩)

/-- Reading some of the arguments and leaving the others. -/
theorem built_take {α : Type} (take : Arguments → α) (rest : Arguments → Arguments) :
    (do
      let x ← a.view
      a.store (rest x)
      return take x : Action α).Built P :=
  .bind (.read _) fun _ => .bind (a.built_store own _) fun _ => .pure _

theorem built_named (name : String) (default : Value) : (a.named name default).Built P :=
  a.built_take own (fun x => (x.takeNamed name).1.getD default) fun x => (x.takeNamed name).2

theorem built_takeAllNamed : a.takeAllNamed.Built P :=
  a.built_take own (·.named) fun x => { x with named := [] }

theorem built_takeAllPositional : a.takeAllPositional.Built P :=
  a.built_take own (·.positional) fun x => { x with positional := [] }

end ArgumentsId

/-! ## Access to dictionaries -/

namespace Value

/-- What named entries can be put into. -/
def Absorbing (o : Object) : Prop := (∃ d, o = .dict d) ∨ ∃ c, o = .set c

instance : DecidablePred Absorbing
  | .dict d => .isTrue (.inl ⟨d, rfl⟩)
  | .set c => .isTrue (.inr ⟨c, rfl⟩)
  | .slot _ | .scope _ | .stack _ | .sequence _ | .arguments _ | .context _ | .serial _ =>
    .isFalse nofun

variable [P.Failing]

theorem built_entry (v : Value) (name : String) : (v.entry name).Built P := by
  unfold entry
  split
  · exact .read _
  · exact built_overloaded _ _ _
  · exact StackId.built_get _ _
  · exact built_lacking _ _

theorem built_entry? (v : Value) (name : String) : (v.entry? name).Built P := by
  unfold entry?
  split
  · exact .read _
  · exact built_overloaded _ _ _
  · exact built_overloaded _ _ _
  · exact built_lacking _ _

theorem built_refuse {α : Type} (use : Use) (target : Value) :
    (target.refuse use : Action α).Built P := by
  unfold refuse
  split
  · refine .bind (.read _) fun kind => ?_
    cases kind with
    | bare => exact built_lacking _ _
    | mutable => exact built_overloaded _ _ _
    | constant => exact built_overloaded _ _ _
  · exact built_lacking _ _

section

variable [P.Making]

theorem built_elements? (v : Value) : v.elements?.Built P := by
  unfold elements?
  split
  · exact .pure _
  · exact .pure _
  · exact .read _
  · exact .read _
  · exact .read _
  · refine .bind (ScopeId.built_enumerate _) fun bs => .bind (built_mapM ?_ bs) fun _ => .pure _
    exact fun _ => built_newSequence .tuple _
  · exact .pure _

theorem built_elements (v : Value) : v.elements.Built P := by
  refine .bind (built_elements? v) fun found => ?_
  cases found with
  | some vs => exact .pure vs
  | none => exact .bind (.read _) fun _ => built_fail ⟨nofun, nofun, _, rfl⟩

theorem built_entryParts (index : Nat) (element : Value) : (element.entryParts index).Built P := by
  have asked : element.elements?.Built (P.failingAs Error.Ordinary) := built_elements? element
  refine .attempt asked fun outcome ordinary => ?_
  split
  · exact .pure _
  · exact built_fail ⟨nofun, nofun, _, rfl⟩
  · exact built_fail ⟨nofun, nofun, _, rfl⟩
  · exact built_fail ⟨nofun, nofun, _, rfl⟩
  · exact built_fail (ordinary _ rfl)

theorem built_toEntries (v : Value) : v.toEntries.Built P := by
  unfold toEntries
  split
  · exact .read _
  · refine .bind (built_elements _) fun vs => built_foldlM (fun entries x => ?_) _ _
    exact .bind (built_entryParts x.2 x.1) fun part =>
      built_looking fun h => (h.looks_key part.1).bind fun key => h.looks_put key part.2 entries

end

variable (absorbing : ∀ o, Absorbing o → P.changes o)

include absorbing

theorem built_setEntry (v : Value) (name : String) (content : Value) :
    (v.setEntry name content).Built P := by
  unfold setEntry
  split
  · next d => exact .modifyHeap (absorbing _ (.inl ⟨d, rfl⟩)) fun h => h.changes_setDict d _
  · exact built_fail ⟨nofun, nofun, _, rfl⟩
  · exact .bind (.read _) fun _ => built_fail ⟨nofun, nofun, _, rfl⟩

theorem built_entryOrNew [P.Making] (v : Value) (name : String) : (v.entryOrNew name).Built P := by
  unfold entryOrNew
  split
  · refine .bind (.read _) fun found => ?_
    cases found with
    | some content => exact .pure content
    | none =>
      exact .bind (built_newDict _) fun fresh =>
        .bind (built_setEntry absorbing _ name fresh) fun _ => .pure fresh
  · exact built_lacking _ _

theorem built_absorb [P.Refusing] (v : Value) (entries : List (String × Value)) :
    (v.absorb entries).Built P := by
  unfold absorb
  split
  · next d => exact .modifyHeap (absorbing _ (.inl ⟨d, rfl⟩)) fun h => h.changes_setDict d _
  · next c => exact .modifyHeap (absorbing _ (.inr ⟨c, rfl⟩)) fun h => h.changes_setSet c _
  · exact .bind (SlotId.built_update_fail _ ⟨nofun, nofun, _, rfl⟩) fun _ => .pure _
  · exact built_lacking _ _

end Value

/-! ## Contexts -/

namespace ContextId

theorem built_create [P.Making] (stack : StackId) (styles output : Value) :
    (create stack styles output).Built P := by
  have given : ∀ {α : Type} (v : Value) (fresh : Action Value) (next : Value → Action α),
      fresh.Built P → (∀ w, (next w).Built P) →
      (if v = .none then fresh >>= next else pure v >>= next : Action α).Built P := by
    intro α v fresh next hfresh hnext
    split
    · exact .bind hfresh hnext
    · exact .bind (.pure v) hnext
  refine given styles _ _ (Value.built_newDict _) fun styles => ?_
  refine given output _ _ (Value.built_newSequence _ _) fun output => ?_
  exact .allocate (fun _ => Making.adds id) fun h => h.adds_addContext _

theorem built_stack (c : ContextId) : c.stack.Built P := .bind (.read _) fun _ => .pure _

variable [P.Failing]

theorem built_output (c : ContextId) : c.output.Built P := by
  refine .bind (.read _) fun x => ?_
  split
  · exact .pure _
  · exact Value.built_lacking _ _

theorem built_defaultOf (c : ContextId) (name key : String) : (c.defaultOf name key).Built P := by
  refine .bind (.read _) fun x => .bind (Value.built_entry? _ name) fun found => ?_
  cases found with
  | some v => exact Value.built_entry v key
  | none => exact .pure _

theorem built_defaults [P.Making] (c : ContextId) (name : String) : (c.defaults name).Built P := by
  refine .bind (.read _) fun x => .bind (Value.built_entry? _ name) fun found => ?_
  cases found with
  | some v => exact Value.built_toEntries v
  | none => exact .pure _

variable (absorbing : ∀ o, Value.Absorbing o → P.changes o)

include absorbing

theorem built_setDefaults (c : ContextId) (name : String) (v : Value) :
    (c.setDefaults name v).Built P :=
  .bind (.read _) fun _ => Value.built_setEntry absorbing _ name v

theorem built_addDefaults [P.Making] [P.Refusing] (c : ContextId) (name : String)
    (entries : List (String × Value)) : (c.addDefaults name entries).Built P :=
  .bind (.read _) fun _ => .bind (Value.built_entryOrNew absorbing _ name) fun v =>
    Value.built_absorb absorbing v entries

end ContextId

theorem SequenceId.built_append (c : SequenceId) (own : P.changes (.sequence c)) (v : Value) :
    (c.append v).Built P := .modifyHeap own fun h => h.changes_setSequence c _

/-! ## Commands -/

/-- What is some scope. -/
def StackId.AnyScope (o : Object) : Prop := ∃ c, o = .scope c

/-- What is some slot. -/
def StackId.AnySlot (o : Object) : Prop := ∃ t, o = .slot t

theorem StackId.anyScope (c : ScopeId) : AnyScope (.scope c) := ⟨c, rfl⟩

theorem StackId.anySlot (t : SlotId) : AnySlot (.slot t) := ⟨t, rfl⟩

instance : DecidablePred StackId.AnyScope
  | .scope c => .isTrue ⟨c, rfl⟩
  | .slot _ | .stack _ | .sequence _ | .set _ | .dict _ | .arguments _ | .context _ | .serial _ =>
    .isFalse nofun

instance : DecidablePred StackId.AnySlot
  | .slot t => .isTrue ⟨t, rfl⟩
  | .scope _ | .stack _ | .sequence _ | .set _ | .dict _ | .arguments _ | .context _ | .serial _ =>
    .isFalse nofun

namespace Command

variable {α : Type}

/-- The objects that a command may change. -/
def footprint : {α : Type} → Command α → Object → Prop
  | _, .setSlot t _, o => o = .slot t
  | _, .setSlotDirectly t _, o => o = .slot t
  | _, .scopeDefineConst c _ _, o => o = .scope c
  | _, .scopeDefineMut c _ _, o => o = .scope c
  | _, .scopeBind c _ _, o => o = .scope c
  | _, .scopeDefineFunc c _ _, o => o = .scope c
  | _, .scopeDefineClass c _ _, o => o = .scope c
  | _, .enter s, o => o = .stack s
  | _, .exit s, o => o = .stack s
  | _, .defineConst _ _ _, o => StackId.AnyScope o
  | _, .defineMut _ _ _, o => StackId.AnyScope o
  | _, .bind _ _ _, o => StackId.AnyScope o
  | _, .assign _ _ _, o => StackId.AnySlot o
  | _, .eat a, o => o = .arguments a
  | _, .expect a _, o => o = .arguments a
  | _, .named a _ _, o => o = .arguments a
  | _, .takeAllPositional a, o => o = .arguments a
  | _, .takeAllNamed a, o => o = .arguments a
  | _, .append lines _, o => o = .sequence lines
  | _, .setDefaults _ _ _, o => Value.Absorbing o
  | _, .addDefaults _ _ _, o => Value.Absorbing o
  | _, _, _ => False

instance (c : Command α) (o : Object) : Decidable (c.footprint o) := by
  cases c <;> dsimp only [footprint] <;> infer_instance

/-- Commands that may leave records: those by which stacks are entered, left and defined on, and those
that write into slots. -/
def recording : {α : Type} → Command α → Bool
  | _, .enter _ | _, .exit _ => true
  | _, .defineConst .. | _, .defineMut .. | _, .bind .. => true
  | _, .setSlot .. | _, .assign .. | _, .addDefaults .. => true
  | _, _ => false

/-- Commands that may add slots, scopes and stacks. -/
def extending : {α : Type} → Command α → Bool
  | _, .createSlot .. | _, .createScope _ | _, .scopeCopy _ | _, .createStack .. => true
  | _, .scopeDefineConst .. | _, .scopeDefineMut .. => true
  | _, .scopeDefineFunc .. | _, .scopeDefineClass .. => true
  | _, .enter _ | _, .defineConst .. | _, .defineMut .. | _, .capture .. => true
  | _, _ => false

/-- Commands that take a sample of the memory in use. -/
def sampling : {α : Type} → Command α → Bool
  | _, .sample _ => true
  | _, _ => false

/-- What a command may do. Its errors have a text for a message, and only one that may leave records
refuses a write. -/
def powers (c : Command α) : Powers where
  fails e := e.Worded ∧ (c.recording = false → e.Other)
  changes := c.footprint
  adds o := o.Resolving → c.extending = true
  records := c.recording = true
  samples := c.sampling = true

instance (c : Command α) : c.powers.Failing :=
  ⟨fun ordinary => ⟨ordinary.worded, fun _ => ordinary.other⟩⟩

instance (c : Command α) : c.powers.Faulting := ⟨fun worded => ⟨worded, fun _ => nofun⟩⟩

instance (c : Command α) : c.powers.Making := ⟨fun outside inside => absurd inside outside⟩

theorem refusing (c : Command α) (recording : c.recording = true) : c.powers.Refusing where
  refusal v := ⟨⟨_, rfl⟩, fun other => by simp [recording] at other⟩
  records := recording

/-- Every command does no more than it may. -/
theorem built (c : Command α) : c.run.Built c.powers := by
  cases c with
  | createSlot kind v => exact SlotId.built_create (fun _ _ => rfl) kind v
  | getSlot t => exact .read fun h => (h.slot t).value
  | slotIsConstant t => exact t.built_isConstant
  | setSlot t v =>
    have := refusing (.setSlot t v) rfl
    exact t.built_set rfl v
  | setSlotDirectly t v => exact t.built_setDirectly rfl v
  | createScope bindings => exact ScopeId.built_create (fun _ _ => rfl) _
  | scopeDefineConst c name v => exact c.built_define rfl (fun _ _ => rfl) _ _ _
  | scopeDefineMut c name v => exact c.built_define rfl (fun _ _ => rfl) _ _ _
  | scopeBind c name t => exact c.built_bind rfl _ _
  | scopeDefineFunc c name native =>
    exact c.built_defineMade rfl (fun _ _ => rfl) name (Value.built_newFunc name native)
  | scopeDefineClass c name type =>
    exact c.built_defineMade rfl (fun _ _ => rfl) name (Value.built_newClass name type)
  | scopeLookup c name => exact c.built_lookup name
  | scopeEnumerate c => exact c.built_enumerate
  | scopeCopy c => exact ScopeId.built_copy (fun _ _ => rfl) c
  | createStack base maxDepth memoryLimit =>
    exact StackId.built_create (fun _ _ => rfl) (fun _ _ => rfl) base maxDepth memoryLimit
  | depth s => exact s.built_depth
  | active s => exact s.built_active
  | enter s => exact s.built_enter rfl (fun _ _ => rfl) rfl
  | exit s => exact s.built_exit rfl rfl
  | defineConst s name v =>
    exact s.built_define rfl StackId.anyScope (fun _ _ => rfl) _ .constant name v
  | defineMut s name v =>
    exact s.built_define rfl StackId.anyScope (fun _ _ => rfl) _ .mutable name v
  | bind s name t => exact s.built_bind rfl StackId.anyScope name t
  | lookup s name => exact s.built_lookup name
  | get s name => exact s.built_get name
  | assign s name v =>
    have := refusing (.assign s name v) rfl
    exact s.built_assign StackId.anySlot name v
  | capture s names => exact s.built_capture (fun _ _ => rfl) names
  | visible s => exact s.built_visible
  | createArguments positional entries => exact ArgumentsId.built_create positional entries
  | arguments a => exact .read (·.args a)
  | eat a => exact a.built_eat rfl
  | expect a what => exact a.built_expect rfl what
  | named a name default => exact a.built_named rfl name default
  | takeAllPositional a => exact a.built_takeAllPositional rfl
  | takeAllNamed a => exact a.built_takeAllNamed rfl
  | finish a => exact a.built_finish
  | createContext stack styles output => exact ContextId.built_create stack styles output
  | contextStack c => exact c.built_stack
  | outputOf c => exact c.built_output
  | append lines line => exact lines.built_append rfl line
  | defaults c name => exact c.built_defaults name
  | defaultOf c name key => exact c.built_defaultOf name key
  | setDefaults c name v => exact ContextId.built_setDefaults (fun _ => id) c name v
  | addDefaults c name entries =>
    have := refusing (.addDefaults c name entries) rfl
    exact ContextId.built_addDefaults (fun _ => id) c name entries
  | newSequence kind items => exact Value.built_newSequence kind items
  | newDict entries => exact Value.built_newDict entries
  | newFloat x => exact Value.built_newFloat x
  | newFunc name native => exact Value.built_newFunc name native
  | newClass name type => exact Value.built_newClass name type
  | written v => exact built_looking fun h => h.looks_written v
  | display v => exact built_looking fun h => h.looks_display v
  | typeName v => exact .read (·.typeName v)
  | scriptType v => exact .read (·.scriptType v)
  | truth v => exact .read (·.truth v)
  | size? v => exact .read (·.scriptSize? v)
  | add v w => exact v.built_add w
  | mul v w => exact v.built_mul w
  | atMostZero v => exact v.built_atMostZero
  | sample resident => exact .setResident rfl resident

end Command

/-! ## Programs -/

namespace Program

theorem built_exec {α : Type} {c : Command α} {invoke : Invocation} (built : c.run.Built P) :
    ((exec c).run invoke).Built P := by
  rw [run_exec]
  exact built

theorem built_andThen {α β : Type} {p : Program α} {f : α → Program β} {invoke : Invocation}
    (first : (p.run invoke).Built P) (rest : ∀ a, ((f a).run invoke).Built P) :
    ((p >>= f).run invoke).Built P := by
  show ((p.andThen f).run invoke).Built P
  rw [run_andThen]
  exact .bind first rest

/-- A program is built of elementary actions if the invocations are that it meets. -/
theorem built_run {invoke : Invocation}
    (inner : ∀ use target context args, (invoke use target context args).Built .all) {α : Type}
    (p : Program α) : (p.run invoke).Built .all := by
  have attempted : ∀ {β γ : Type} {x : Action β} {f : Except Error β → Action γ},
      x.Built .all → (∀ r, (f r).Built .all) → (x.attempt >>= f).Built .all :=
    fun hx hf => .attempt (E := fun _ => True) hx fun r _ => hf r
  induction p with
  | done a => exact .pure a
  | fail e => exact .fail trivial
  | perform c next ih => exact attempted (c.built.mono c.powers.within_all) ih
  | update t revise next ihr ih => exact attempted (t.built_update trivial ihr) ih
  | block s body next ihb ih =>
    exact attempted (s.built_block trivial (fun _ => trivial) trivial (fun _ => trivial) ihb) ih
  | invoke use target context args next ih => exact attempted (inner use target context args) ih

theorem built_invokeWithin (nesting : Nat) (use : Use) (target : Value) (context : ContextId)
    (args : ArgumentsId) : (invokeWithin nesting use target context args).Built .all := by
  induction nesting generalizing use target context args with
  | zero => exact .fail trivial
  | succ nesting ih =>
    simp only [invokeWithin]
    cases target.body? use with
    | none => exact target.built_refuse use
    | some body =>
      exact .bind (built_run ih _) fun v => .bind args.built_finish fun _ => .pure v

/-- Every program is built of elementary actions. -/
theorem built {α : Type} (p : Program α) : p.toAction.Built .all :=
  built_run (fun use target context args =>
    .bind (.read _) fun nesting => built_invokeWithin nesting use target context args) p

end Program

end LexEnv
