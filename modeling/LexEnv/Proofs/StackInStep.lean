import LexEnv.Proofs.InStep
import LexEnv.Proofs.Looking

/-!
# Slots, scopes and stacks in step

The operations of the stack of an evaluation keep its runs in step. Those that write go to slots that
can be written, to scopes that the stack made and to the stack itself, and none of these is common
with other evaluations.
-/

namespace LexEnv

/-- The errors of entering carry no value. -/
theorem Stack.value?_of_mayEnter {x : Stack} {resident : Int} {e : Error}
    (refused : x.mayEnter resident = .error e) : e.value? = none := by
  cases x.fails_mayEnter resident e refused <;> rfl

/-- Bindings of names that are alike to slots that stand for each other. -/
def Link.Bound (L : Link) (e f : Value × SlotId) : Prop := L.Alike e.1 f.1 ∧ L.Slots e.2 f.2

namespace Evaluation

open LexEnv.Action Link

variable {E : Evaluation} {L M : Link}

/-! ## Slots -/

section

variable {s t : SlotId} (linked : L.Slots s t)

include linked

theorem inStep_get : E.InStep L Link.Alike s.get t.get :=
  inStep_read fun _ _ j => (j.mirrors.slot linked).2

theorem inStep_store {v w : Value} (alike : L.Alike v w) (own : s ∉ E.slots) :
    E.InStep L Whatever (s.store v) (t.store w) := by
  refine inStep_modifyHeap fun h g j => j.changed_other linked own nofun nofun nofun
    (h.changes_setSlot s _) (g.changes_setSlot t _) ?_
  rw [Heap.cell_setSlot (j.mirrors.exist linked).1, Heap.cell_setSlot (j.mirrors.exist linked).2]
  exact .slot (j.mirrors.slot linked).1 alike

/-- A slot that can be written is not common, so writing it is writing what belongs to the
evaluation. -/
theorem inStep_set {v w : Value} (alike : L.Alike v w) :
    E.InStep L Whatever (s.set v) (t.set w) := by
  intro st st' j
  have kinds := (j.mirrors.slot linked).1
  cases kind : (st.heap.slot s).kind with
  | mutable =>
    have own : s ∉ E.slots := fun mem => (j.settled.slots s mem).2 kind
    rw [SlotId.run_set_mutable kind, SlotId.run_set_mutable (kinds ▸ kind)]
    exact inStep_store linked alike own st st' j
  | constant =>
    rw [SlotId.set, SlotId.set, SlotId.kind, SlotId.kind, run_read_bind, run_read_bind, ← kinds, kind]
    exact ((inStep_recordShown _ _ _ _).bind fun M _ _ le _ =>
      inStep_fail (.constantWrite (alike.mono le))) st st' j
  | bare =>
    rw [SlotId.run_set_bare kind, SlotId.run_set_bare (kinds ▸ kind)]
    exact inStep_refuse rfl st st' j

end

/-! ## Scopes -/

theorem inStep_createSlot {kind : SlotKind} {v w : Value} (alike : L.Alike v w) :
    E.InStep L Link.Slots (allocate (·.addSlot ⟨kind, v⟩)) (allocate (·.addSlot ⟨kind, w⟩)) :=
  (inStep_allocate Object.slot (fun h => ⟨h.adds_addSlot ⟨kind, v⟩, h.cell_addSlot ⟨kind, v⟩⟩)
    (fun h => ⟨h.adds_addSlot ⟨kind, w⟩, h.cell_addSlot ⟨kind, w⟩⟩) (.slot rfl alike)).imp
      fun _ _ _ _ both => both.1

/-- Scopes that stand for each other and that the stack of the evaluation made. -/
def OwnScopes (E : Evaluation) (L : Link) (c d : ScopeId) : Prop := L.Scopes c d ∧ c ≠ E.base

theorem OwnScopes.mono {c d : ScopeId} (own : E.OwnScopes L c d) (le : L ≤ M) :
    E.OwnScopes M c d := ⟨le _ _ own.1, own.2⟩

theorem inStep_createScope {x y : Scope} (textual : x.Textual) (bindings : L.Tables L.Slots x y) :
    E.InStep L E.OwnScopes (ScopeId.create x) (ScopeId.create y) := by
  refine (inStep_allocate Object.scope (fun h => ⟨h.adds_addScope x, h.cell_addScope x⟩)
    (fun h => ⟨h.adds_addScope y, h.cell_addScope y⟩) (.scope textual bindings)).imp ?_
  rintro M c d - ⟨linked, h, g, j, new⟩
  refine ⟨linked, ?_⟩
  rintro rfl
  exact new j.settled.base

theorem inStep_bindKey {c d : ScopeId} (own : E.OwnScopes L c d) (name : String) {s t : SlotId}
    (linked : L.Slots s t) :
    E.InStep L Whatever (c.bindKey (.text name) s) (d.bindKey (.text name) t) := by
  refine (inStep_inspect (R := fun L x y => x.Textual ∧ L.Tables L.Slots x y)
    fun h g j => ?_).bind fun M x y le ⟨textual, bindings⟩ => inStep_modifyHeap fun h g j => ?_
  · obtain ⟨textual, bindings⟩ := j.mirrors.scope own.1
    rw [Heap.put_text, Heap.put_text]
    exact .ok ⟨textual.insert name s, bindings.insert name linked⟩
  · have linked := le _ _ own.1
    refine j.changed_other linked own.2 nofun nofun nofun (h.changes_setScope c x)
      (g.changes_setScope d y) ?_
    rw [Heap.cell_setScope (j.mirrors.exist linked).1,
      Heap.cell_setScope (j.mirrors.exist linked).2]
    exact .scope textual bindings

theorem inStep_key (name : String) :
    E.InStep L (fun _ k l => k = .text name ∧ l = .text name) (inspect (·.key (.text name)))
      (inspect (·.key (.text name))) := inStep_inspect fun _ _ _ => .ok ⟨rfl, rfl⟩

theorem inStep_define {c d : ScopeId} (own : E.OwnScopes L c d) (kind : SlotKind) (name : String)
    {v w : Value} (alike : L.Alike v w) :
    E.InStep L Whatever (c.define kind (.text name) v) (d.define kind (.text name) w) := by
  refine (inStep_key name).bind fun M k l le ⟨hk, hl⟩ => ?_
  subst hk hl
  refine (inStep_createSlot (alike.mono le)).bind fun N s t le' linked => ?_
  exact inStep_bindKey ((own.mono le).mono le') name linked

theorem inStep_bindName {c d : ScopeId} (own : E.OwnScopes L c d) (name : String) {s t : SlotId}
    (linked : L.Slots s t) :
    E.InStep L Whatever (c.bind (.text name) s) (d.bind (.text name) t) := by
  refine (inStep_key name).bind fun M k l le ⟨hk, hl⟩ => ?_
  subst hk hl
  exact inStep_bindKey (own.mono le) name (le _ _ linked)

/-! ## The stack -/

/-- Stacks that stand for each other, of which the first one has no scope that is common. -/
def OwnStacks (E : Evaluation) (L : Link) (x y : Stack) : Prop :=
  L.Stacks x y ∧ ∀ c ∈ x.own, c ≠ E.base

theorem inStep_viewStack : E.InStep L E.OwnStacks E.stack.view E.stack.view :=
  inStep_read fun _ _ j => ⟨j.mirrors.stack j.stack, j.settled.own⟩

theorem OwnStacks.active {x y : Stack} (own : E.OwnStacks L x y) :
    E.OwnScopes L x.active y.active := ⟨own.1.active, own.2 _ x.active_mem_own⟩

theorem OwnStacks.mono {x y : Stack} (own : E.OwnStacks L x y) (le : L ≤ M) : E.OwnStacks M x y :=
  ⟨own.1.mono le, own.2⟩

theorem inStep_setStack {x y : Stack} (own : E.OwnStacks L x y) :
    E.InStep L Whatever (modifyHeap (·.setStack E.stack x)) (modifyHeap (·.setStack E.stack y)) := by
  refine inStep_modifyHeap fun h g j => ?_
  have change := h.changes_setStack E.stack x
  have there := j.mirrors.exist j.stack
  refine j.changed j.stack id nofun change (g.changes_setStack E.stack y) ?_ ?_
  · rw [Heap.cell_setStack there.1, Heap.cell_setStack there.2]
    exact .stack own.1
  · have settled := j.settled
    refine ⟨(Cell.context.inj (change.cell (.context _) nofun)).trans settled.context,
      (change.has _).mpr settled.base, fun s mem => ?_, ?_, fun d is => ?_⟩
    · obtain ⟨there, kind⟩ := settled.slots s mem
      exact ⟨(change.has _).mpr there, kind⟩
    · rw [Cell.stack.inj (Heap.cell_setStack there.1 x)]
      exact own.2
    · exact settled.styles d is

theorem inStep_mayEnter {x y : Stack} (same : L.Stacks x y) (resident : Int) :
    E.InStep L (fun _ _ _ => True) (ofOutcome (x.mayEnter resident))
      (ofOutcome (y.mayEnter resident)) := by
  have may : x.mayEnter resident = y.mayEnter resident := by
    have depth : x.depth = y.depth := same.suspended.length_eq
    rw [Stack.mayEnter, Stack.mayEnter, depth, same.maxDepth, same.memoryLimit]
  rw [← may]
  refine inStep_ofOutcome ?_
  cases result : x.mayEnter resident with
  | ok u => exact .ok trivial
  | error e => exact .error (.plain (Stack.value?_of_mayEnter result))

/-- A sample of the memory in use is no part of a heap. -/
theorem inStep_setResident (resident : Int) :
    E.InStep L Whatever (Command.setResident resident) (Command.setResident resident) :=
  fun _ _ j => ⟨L, .refl L _, j, .ok trivial⟩

/-- Entering right after a sample of the memory in use depends on nothing but that sample. -/
theorem enter_sampled (s : StackId) (resident : Int) :
    (Command.setResident resident >>= fun _ => s.enter) = (do
      Command.setResident resident
      let st ← s.view
      ofOutcome (st.mayEnter resident)
      let fresh ← ScopeId.create .empty
      modifyHeap (·.setStack s { st with active := fresh, suspended := st.active :: st.suspended })
      record (.entered (st.depth + 1))) := rfl

theorem inStep_enter (resident : Int) :
    E.InStep L Whatever (Command.setResident resident >>= fun _ => E.stack.enter)
      (Command.setResident resident >>= fun _ => E.stack.enter) := by
  rw [enter_sampled]
  refine (inStep_setResident resident).bind fun L _ _ _ _ => ?_
  refine inStep_viewStack.bind fun L x y _ own => ?_
  refine (inStep_mayEnter own.1 resident).bind fun L₁ _ _ le₁ _ => ?_
  refine (inStep_createScope Table.textual_empty tables_empty).bind fun L₂ c d le₂ fresh => ?_
  obtain ⟨same, scopes⟩ := (own.mono le₁).mono le₂
  have entered : E.OwnStacks L₂ { x with active := c, suspended := x.active :: x.suspended }
      { y with active := d, suspended := y.active :: y.suspended } :=
    ⟨⟨fresh.1, .cons same.active same.suspended, same.base, same.maxDepth, same.memoryLimit⟩,
      List.forall_mem_cons.mpr ⟨fresh.2, scopes⟩⟩
  exact (inStep_setStack entered).bind fun _ _ _ _ _ => inStep_record _ _

theorem inStep_exit : E.InStep L Whatever E.stack.exit E.stack.exit := by
  refine inStep_viewStack.bind fun L x y _ own => ?_
  obtain ⟨same, scopes⟩ := own
  have suspended := same.suspended
  rw [Stack.own] at scopes
  cases hx : x.suspended with
  | nil =>
    rw [hx] at suspended
    rw [List.forall₂_nil_left_iff.mp suspended]
    exact inStep_refuse rfl
  | cons outer rest =>
    rw [hx] at suspended scopes
    obtain ⟨outer', rest', linked, rests, hy⟩ := List.forall₂_cons_left_iff.mp suspended
    rw [hy]
    have left : E.OwnStacks L { x with active := outer, suspended := rest }
        { y with active := outer', suspended := rest' } :=
      ⟨⟨linked, rests, same.base, same.maxDepth, same.memoryLimit⟩,
        fun c mem => scopes c (List.mem_cons_of_mem _ mem)⟩
    exact (inStep_setStack left).bind fun _ _ _ _ _ => inStep_record _ _

theorem inStep_active : E.InStep L Link.Scopes E.stack.active E.stack.active :=
  inStep_viewStack.bind fun _ _ _ _ own => inStep_pure own.active.1

/-- A block right after a sample of the memory in use starts with entering at that sample. -/
theorem block_sampled {α : Type} (s : StackId) (resident : Int) (body : ScopeId → Action α) :
    (Command.setResident resident >>= fun _ => s.block body) = (do
      Command.setResident resident >>= fun _ => s.enter
      let outcome ← (do body (← s.active)).attempt
      let left ← s.exit.attempt
      ofOutcome left
      ofOutcome outcome) := by
  simp only [StackId.block, StackId.enclose, bind_assoc, pure_bind]

theorem inStep_block {α β : Type} {R : Link → α → β → Prop}
    (mono : ∀ {M N : Link} {a b}, M ≤ N → R M a b → R N a b) (resident : Int)
    {body : ScopeId → Action α} {body' : ScopeId → Action β}
    (bodies : ∀ M c d, L ≤ M → M.Scopes c d → E.InStep M R (body c) (body' d)) :
    E.InStep L R (Command.setResident resident >>= fun _ => E.stack.block body)
      (Command.setResident resident >>= fun _ => E.stack.block body') := by
  rw [block_sampled, block_sampled]
  refine (inStep_enter resident).bind fun L₁ _ _ le _ => ?_
  refine (inStep_active.bind fun L₂ c d le₁ linked =>
    bodies L₂ c d (fun o p old => le₁ o p (le o p old)) linked).attempt.bind fun L₂ outcome outcome' _ outcomes => ?_
  refine inStep_exit.attempt.bind fun L₃ left left' le₁ both => ?_
  refine (inStep_ofOutcome both).bind fun L₄ _ _ le₂ _ => ?_
  exact inStep_ofOutcome ((outcomes.mono le₁ fun _ _ => mono le₁).mono le₂ fun _ _ => mono le₂)

theorem inStep_defineConst (name : String) {v w : Value} (alike : L.Alike v w) :
    E.InStep L Whatever (E.stack.defineConst (.text name) v) (E.stack.defineConst (.text name) w) :=
  inStep_viewStack.bind fun _ _ _ le own => (inStep_recordShown _ _ _ _).bind fun _ _ _ le' _ =>
    inStep_define (own.active.mono le') .constant name ((alike.mono le).mono le')

theorem inStep_defineMut (name : String) {v w : Value} (alike : L.Alike v w) :
    E.InStep L Whatever (E.stack.defineMut (.text name) v) (E.stack.defineMut (.text name) w) :=
  inStep_viewStack.bind fun _ _ _ le own => (inStep_recordShown _ _ _ _).bind fun _ _ _ le' _ =>
    inStep_define (own.active.mono le') .mutable name ((alike.mono le).mono le')

theorem inStep_bind (name : String) {s t : SlotId} (linked : L.Slots s t) :
    E.InStep L Whatever (E.stack.bind (.text name) s) (E.stack.bind (.text name) t) :=
  inStep_viewStack.bind fun _ _ _ le own => (inStep_recordShown _ _ _ _).bind fun _ _ _ le' _ =>
    inStep_bindName (own.active.mono le') name (le' _ _ (le _ _ linked))

/-! ## Names -/

theorem inStep_lookup (name : String) :
    E.InStep L (fun L => Option.Rel L.Slots) (E.stack.lookup (.text name))
      (E.stack.lookup (.text name)) := by
  intro st st' j
  rw [StackId.run_lookup_text, StackId.run_lookup_text]
  exact ⟨L, .refl L _, j, .ok (j.mirrors.resolved j.stack name)⟩

theorem inStep_resolve (name : String) :
    E.InStep L Link.Slots (E.stack.resolve (.text name)) (E.stack.resolve (.text name)) := by
  refine (inStep_lookup name).bind fun M found found' _ both => ?_
  cases both with
  | some linked => exact inStep_pure linked
  | none => exact inStep_refuse rfl

theorem inStep_getName (name : String) :
    E.InStep L Link.Alike (E.stack.get (.text name)) (E.stack.get (.text name)) :=
  (inStep_resolve name).bind fun _ _ _ _ linked => inStep_get linked

theorem inStep_assign (name : String) {v w : Value} (alike : L.Alike v w) :
    E.InStep L Whatever (E.stack.assign (.text name) v) (E.stack.assign (.text name) w) :=
  (inStep_resolve name).bind fun _ _ _ le linked => inStep_set linked (alike.mono le)

theorem inStep_capture (names : List String) :
    E.InStep L Link.Scopes (E.stack.capture (names.map .text)) (E.stack.capture (names.map .text)) := by
  intro st st' j
  rw [StackId.run_capture_text, StackId.run_capture_text]
  exact ((inStep_createScope (st.heap.textual_closure _ names)
    (j.mirrors.closure j.stack names)).imp fun _ _ _ _ own => own.1) st st' j

theorem inStep_visible :
    E.InStep L (fun L => List.Forall₂ L.Bound) E.stack.visible E.stack.visible := by
  intro st st' j
  obtain ⟨es, fs, hes, hfs, named⟩ := j.mirrors.visible j.stack
  have run : E.stack.visible.run st = (.ok (es.map fun e => (.text e.1, e.2)), st) :=
    congrArg (·, st) hes
  have run' : E.stack.visible.run st' = (.ok (fs.map fun e => (.text e.1, e.2)), st') :=
    congrArg (·, st') hfs
  rw [run, run']
  refine ⟨L, .refl L _, j, .ok ?_⟩
  refine List.forall₂_map_left_iff.mpr (List.forall₂_map_right_iff.mpr (named.imp fun e f both => ?_))
  exact ⟨both.1 ▸ .text e.1, both.2⟩

end Evaluation

end LexEnv
