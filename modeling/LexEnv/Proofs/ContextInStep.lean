import LexEnv.Proofs.StackInStep

/-!
# Arguments and contexts in step

What functions and classes of the library do with their arguments and with the context of their
evaluation keeps its runs in step. They write arguments that were made for a call, the output and the
styles of the evaluation, and the defaults of records.
-/

namespace LexEnv

/-- What the library defines, and what is no function or class at all. -/
def Value.isStandard : Value → Bool
  | .func ⟨_, .guest _, _⟩ => false
  | .cls ⟨_, template, _⟩ => template = .record
  | _ => true

namespace Link

variable {L : Link} {v w : Value}

/-- Conversions see numbers, texts and bytes, which are the same in values that are alike. -/
theorem Alike.toInteger? (alike : L.Alike v w) : v.toInteger? = w.toInteger? := by
  cases alike <;> rfl

theorem Alike.toFloat? (alike : L.Alike v w) : v.toFloat? = w.toFloat? := by
  cases alike <;> rfl

theorem Alike.isStandard (alike : L.Alike v w) : v.isStandard = w.isStandard := by
  cases alike with
  | func name native serials => cases native <;> rfl
  | _ => rfl

/-! ## Named things -/

section

variable {α β : Type} {R : α → β → Prop} {es : List (String × α)} {fs : List (String × β)}

theorem named_put (name : String) {a : α} {b : β} (r : R a b) (named : List.Forall₂ (Named R) es fs) :
    List.Forall₂ (Named R) (LexEnv.Entries.put name a es) (LexEnv.Entries.put name b fs) := by
  induction named with
  | nil => exact .cons ⟨rfl, r⟩ .nil
  | @cons e f es fs first rest ih =>
    obtain ⟨n, a'⟩ := e
    obtain ⟨n', b'⟩ := f
    obtain ⟨same, r'⟩ := first
    cases same
    rw [LexEnv.Entries.put, LexEnv.Entries.putBy, LexEnv.Entries.put, LexEnv.Entries.putBy]
    split
    · exact .cons ⟨rfl, r⟩ rest
    · exact .cons ⟨rfl, r'⟩ ih

theorem named_entries (named : List.Forall₂ (Named R) es fs) :
    List.Forall₂ (Named R) (LexEnv.Entries.ofList es) (LexEnv.Entries.ofList fs) :=
  List.rel_foldl (fun _ _ named e f both => by
    obtain ⟨n, a⟩ := e
    obtain ⟨n', b⟩ := f
    obtain ⟨same, r⟩ := both
    cases same
    exact named_put n r named) .nil named

theorem named_find? (name : String) (named : List.Forall₂ (Named R) es fs) :
    Option.Rel R (LexEnv.Entries.find? name es) (LexEnv.Entries.find? name fs) := by
  induction named with
  | nil => exact .none
  | @cons e f es fs first _ ih =>
    obtain ⟨n, a⟩ := e
    obtain ⟨n', b⟩ := f
    obtain ⟨same, r⟩ := first
    cases same
    rw [LexEnv.Entries.find?, LexEnv.Entries.find?]
    split
    · exact .some r
    · exact ih

theorem named_erase (name : String) (named : List.Forall₂ (Named R) es fs) :
    List.Forall₂ (Named R) (LexEnv.Entries.erase name es) (LexEnv.Entries.erase name fs) :=
  List.rel_filter (fun e f both => by
    show decide (e.1 ≠ name) = true ↔ decide (f.1 ≠ name) = true
    rw [both.1]) named

end

end Link

namespace Evaluation

open LexEnv.Action Link

variable {E : Evaluation} {L M : Link}

/-! ## Values -/

/-- Dictionaries that stand for each other and that are not the styles of the evaluation. -/
def OtherDicts (E : Evaluation) (L : Link) (v w : Value) : Prop :=
  ∃ d e, v = .dict d ∧ w = .dict e ∧ L (.dict d) (.dict e) ∧ E.content.styles ≠ .dict d

theorem OtherDicts.mono {v w : Value} (others : E.OtherDicts L v w) (le : L ≤ M) :
    E.OtherDicts M v w := by
  obtain ⟨d, e, hd, he, linked, ne⟩ := others
  exact ⟨d, e, hd, he, le _ _ linked, ne⟩

theorem OtherDicts.alike {v w : Value} (others : E.OtherDicts L v w) : L.Alike v w := by
  obtain ⟨d, e, rfl, rfl, linked, -⟩ := others
  exact .dict linked

theorem inStep_newDict {x y : Table Value} (entries : L.Tables L.Alike x y) :
    E.InStep L E.OtherDicts (Value.newDict x) (Value.newDict y) := by
  refine (inStep_allocate Object.dict (fun h => ⟨h.adds_addDict x, h.cell_addDict x⟩)
    (fun h => ⟨h.adds_addDict y, h.cell_addDict y⟩) (.dict entries)).bind fun M d e _ both =>
      inStep_pure ⟨d, e, rfl, rfl, both.1, fun styles => ?_⟩
  obtain ⟨h, g, j, new⟩ := both.2
  exact new (j.mirrors.exist (j.styles styles)).1

theorem inStep_newSequence (kind : SequenceKind) {vs ws : List Value}
    (items : List.Forall₂ L.Alike vs ws) :
    E.InStep L Link.Alike (Value.newSequence kind vs) (Value.newSequence kind ws) :=
  (inStep_allocate Object.sequence (fun h => ⟨h.adds_addSequence vs, h.cell_addSequence vs⟩)
    (fun h => ⟨h.adds_addSequence ws, h.cell_addSequence ws⟩) (.sequence items)).bind
      fun _ _ _ _ both => inStep_pure (.sequence kind both.1)

theorem inStep_newFloat (x : Number.Binary64) :
    E.InStep L Link.Alike (Value.newFloat x) (Value.newFloat x) := by
  cases x with
  | finite => exact inStep_pure (.float _ (.inl ⟨rfl, rfl⟩))
  | infinite => exact inStep_pure (.float _ (.inl ⟨rfl, rfl⟩))
  | nan =>
    have serials : E.InStep L (fun M m n => M (.serial m) (.serial n) ∧ E.Fresh L (.serial m))
        (allocate (·.addSerial)) (allocate (·.addSerial)) :=
      inStep_allocate Object.serial (fun h => ⟨h.adds_addSerial, rfl⟩)
        (fun h => ⟨h.adds_addSerial, rfl⟩) .serial
    exact serials.bind fun _ _ _ _ both => inStep_pure (.float _ (.inr both.1))

section

variable {v w : Value} (alike : L.Alike v w)

include alike

theorem inStep_typeName : E.InStep L (fun _ => Eq) (read (·.typeName v)) (read (·.typeName w)) :=
  inStep_read fun _ _ j => j.mirrors.typeName alike

theorem inStep_scriptType :
    E.InStep L (fun _ => Eq) (read (·.scriptType v)) (read (·.scriptType w)) :=
  inStep_read fun _ _ j => j.mirrors.scriptType alike

theorem inStep_truth : E.InStep L (fun _ => Eq) (read (·.truth v)) (read (·.truth w)) :=
  inStep_read fun _ _ j => j.mirrors.truth alike

theorem inStep_scriptSize? :
    E.InStep L (fun _ => Eq) (read (·.scriptSize? v)) (read (·.scriptSize? w)) :=
  inStep_read fun _ _ j => j.mirrors.scriptSize? alike

theorem inStep_written : E.InStep L (fun _ => Eq) (inspect (·.written v)) (inspect (·.written w)) := by
  refine inStep_inspect fun h g j => ?_
  obtain ⟨same, plain⟩ := j.mirrors.written alike
  rw [← same]
  cases written : h.written v with
  | ok s => exact .ok rfl
  | error e => exact .error (.plain (plain e written))

theorem inStep_display : E.InStep L (fun _ => Eq) (inspect (·.display v)) (inspect (·.display w)) := by
  have written := inStep_written (E := E) alike
  cases alike with
  | text s => exact inStep_inspect fun _ _ _ => .ok rfl
  | _ => exact written

theorem inStep_lacking {α β : Type} {R : Link → α → β → Prop} (operation : String) :
    E.InStep L R (v.lacking operation) (w.lacking operation) :=
  (inStep_typeName alike).bind fun _ _ _ _ same => same ▸ inStep_refuse rfl

end

/-! ## Arguments -/

/-- Unread arguments that stand for each other. -/
def Unread (L : Link) (a b : ArgumentsId) : Prop := L (.arguments a) (.arguments b)

theorem inStep_createArguments {vs ws : List Value} {es fs : List (String × Value)}
    (positional : List.Forall₂ L.Alike vs ws) (named : List.Forall₂ (Named L.Alike) es fs) :
    E.InStep L Unread (ArgumentsId.create vs es) (ArgumentsId.create ws fs) :=
  (inStep_allocate Object.arguments (fun h => ⟨h.adds_addArguments _, h.cell_addArguments _⟩)
    (fun h => ⟨h.adds_addArguments _, h.cell_addArguments _⟩)
    (.arguments ⟨positional, named_entries named⟩)).imp fun _ _ _ _ both => both.1

section

variable {a b : ArgumentsId} (linked : Unread L a b)

include linked

theorem inStep_viewArguments : E.InStep L Link.Readings a.view b.view :=
  inStep_read fun _ _ j => j.mirrors.args linked

theorem inStep_storeArguments {x y : Arguments} (readings : L.Readings x y) :
    E.InStep L Whatever (a.store x) (b.store y) := by
  refine inStep_modifyHeap fun h g j => j.changed_other linked id nofun nofun nofun
    (h.changes_setArguments a x) (g.changes_setArguments b y) ?_
  rw [Heap.cell_setArguments (j.mirrors.exist linked).1,
    Heap.cell_setArguments (j.mirrors.exist linked).2]
  exact .arguments readings

/-- Reading the first positional argument, or doing something else if there is none. -/
theorem inStep_readFirst {x y : Action Value} (otherwise : ∀ M, L ≤ M → E.InStep M Link.Alike x y) :
    E.InStep L Link.Alike
      (do
        match (← a.view).eat? with
        | some (v, rest) =>
          a.store rest
          return v
        | none => x)
      (do
        match (← b.view).eat? with
        | some (v, rest) =>
          b.store rest
          return v
        | none => y) := by
  refine (inStep_viewArguments linked).bind fun M ⟨vs, es⟩ ⟨ws, fs⟩ le ⟨positional, named⟩ => ?_
  cases positional with
  | nil => exact otherwise M le
  | @cons v w vs ws first rest =>
    have unread : M.Readings ⟨vs, es⟩ ⟨ws, fs⟩ := ⟨rest, named⟩
    exact (inStep_storeArguments (le _ _ linked) unread).bind fun _ _ _ le _ =>
      inStep_pure (first.mono le)

theorem inStep_eat : E.InStep L Link.Alike a.eat b.eat :=
  inStep_readFirst linked fun _ _ => inStep_pure .none

theorem inStep_expect (what : String) : E.InStep L Link.Alike (a.expect what) (b.expect what) :=
  inStep_readFirst linked fun _ _ => inStep_refuse rfl

theorem inStep_named (name : String) {v w : Value} (alike : L.Alike v w) :
    E.InStep L Link.Alike (a.named name v) (b.named name w) := by
  refine (inStep_viewArguments linked).bind fun L₁ x y le readings => ?_
  have unread : L₁.Readings (x.takeNamed name).2 (y.takeNamed name).2 :=
    ⟨readings.positional, named_erase name readings.named⟩
  refine (inStep_storeArguments (le _ _ linked) unread).bind fun L₂ _ _ le' _ => ?_
  exact inStep_pure ((optionRel_getD (named_find? name readings.named) (alike.mono le)).mono le')

theorem inStep_takeAllNamed :
    E.InStep L (fun L => List.Forall₂ (Named L.Alike)) a.takeAllNamed b.takeAllNamed := by
  refine (inStep_viewArguments linked).bind fun L₁ x y le readings => ?_
  have unread : L₁.Readings { x with named := [] } { y with named := [] } :=
    ⟨readings.positional, .nil⟩
  exact (inStep_storeArguments (le _ _ linked) unread).bind fun L₂ _ _ le' _ =>
    inStep_pure (readings.mono le').named

theorem inStep_finish : E.InStep L Whatever a.finish b.finish := by
  refine (inStep_viewArguments linked).bind fun L₁ ⟨vs, es⟩ ⟨ws, fs⟩ le ⟨positional, named⟩ => ?_
  cases positional with
  | cons => exact inStep_refuse rfl
  | nil =>
    cases named with
    | nil => exact inStep_pure trivial
    | @cons e f _ _ first =>
      obtain ⟨n, v⟩ := e
      obtain ⟨n', w⟩ := f
      cases first.1
      exact inStep_refuse rfl

end

/-! ## The context -/

theorem inStep_viewContext :
    E.InStep L (fun L x y => x = E.content ∧ y = E.content ∧ L.Contexts E.content E.content)
      E.context.view E.context.view :=
  inStep_read fun _ _ j => ⟨j.settled.context, j.context, j.contents⟩

theorem inStep_contextStack :
    E.InStep L (fun _ s t => s = E.stack ∧ t = E.stack) E.context.stack E.context.stack := by
  refine inStep_viewContext.bind fun M x y _ ⟨hx, hy, _⟩ => ?_
  subst hx hy
  exact inStep_pure ⟨rfl, rfl⟩

theorem inStep_output :
    E.InStep L (fun L c d => L (.sequence c) (.sequence d)) E.context.output E.context.output := by
  refine inStep_viewContext.bind fun M x y _ ⟨hx, hy, contents⟩ => ?_
  subst hx hy
  have output := contents.output
  cases is : E.content.output with
  | sequence kind c =>
    rw [is] at output
    cases kind with
    | list =>
      cases output with
      | sequence _ linked => exact inStep_pure linked
    | tuple => exact inStep_lacking output "append"
  | _ =>
    rw [is] at output
    exact inStep_lacking output "append"

theorem inStep_append {c d : SequenceId} (linked : L (.sequence c) (.sequence d)) {v w : Value}
    (alike : L.Alike v w) : E.InStep L Whatever (c.append v) (d.append w) := by
  refine inStep_modifyHeap fun h g j => j.changed_other linked id nofun nofun nofun
    (h.changes_setSequence c _) (g.changes_setSequence d _) ?_
  rw [Heap.cell_setSequence (j.mirrors.exist linked).1,
    Heap.cell_setSequence (j.mirrors.exist linked).2]
  exact .sequence (List.rel_append (j.mirrors.sequence linked) (.cons alike .nil))

/-! ### The defaults of records -/

/-- The defaults of records are nothing or a dictionary that is not the styles themselves. -/
theorem inStep_recordEntry {d : DictId} (styles : E.content.styles = .dict d) :
    E.InStep L (fun L => Option.Rel (E.OtherDicts L)) (read fun h => (h.dict d).get? "record")
      (read fun h => (h.dict d).get? "record") := by
  refine inStep_read fun h g j => ?_
  rcases optionRel_cases ((j.mirrors.dict (j.styles styles)).get? "record") with
    ⟨hv, hw⟩ | ⟨v, w, hv, hw, both⟩
  · rw [hv, hw]
    exact .none
  · rw [hv, hw]
    obtain ⟨r, is, ne⟩ := j.settled.styles d styles v hv
    subst is
    cases both with
    | dict linked =>
      refine .some ⟨r, _, rfl, rfl, linked, fun same => ne ?_⟩
      exact Value.dict.inj (same.symm.trans styles)

theorem inStep_defaults :
    E.InStep L (fun L => L.Tables L.Alike) (E.context.defaults "record")
      (E.context.defaults "record") := by
  refine inStep_viewContext.bind fun M x y _ ⟨hx, hy, contents⟩ => ?_
  subst hx hy
  have styles := contents.styles
  cases is : E.content.styles with
  | dict d =>
    refine (inStep_recordEntry is).bind fun M₁ found found' _ both => ?_
    cases both with
    | none => exact inStep_pure tables_empty
    | some others =>
      obtain ⟨r, r', rfl, rfl, linked, -⟩ := others
      exact inStep_read fun _ _ j => j.mirrors.dict linked
  | slot s => exact inStep_refuse rfl
  | stack s => exact inStep_refuse rfl
  | _ =>
    rw [is] at styles
    exact (inStep_lacking (R := fun _ _ _ => False) styles "get").bind fun _ _ _ _ none => none.elim

/-- Another dictionary may become the defaults of records. -/
theorem inStep_setRecord {d : DictId} (styles : E.content.styles = .dict d) {v w : Value}
    (others : E.OtherDicts L v w) :
    E.InStep L Whatever ((Value.dict d).setEntry "record" v)
      ((Value.dict d).setEntry "record" w) := by
  refine inStep_modifyHeap fun h g j => ?_
  have linked := j.styles styles
  have there := j.mirrors.exist linked
  refine j.changed linked id nofun (h.changes_setDict d _) (g.changes_setDict d _) ?_ ?_
  · rw [Heap.cell_setDict there.1, Heap.cell_setDict there.2]
    exact .dict ((j.mirrors.dict linked).insert "record" others.alike)
  · have settled := j.settled
    refine ⟨settled.context, settled.base, settled.slots, settled.own, fun d' is u found => ?_⟩
    cases styles.symm.trans is
    rw [Cell.dict.inj (Heap.cell_setDict there.1 _), Table.get?_insert, if_pos rfl] at found
    cases found
    obtain ⟨r, _, rfl, -, -, ne⟩ := others
    exact ⟨r, rfl, fun same => ne (same ▸ styles)⟩

/-- The defaults of records, which become an empty dictionary if there are none. -/
theorem inStep_recordOrNew (styles : L.Alike E.content.styles E.content.styles) :
    E.InStep L E.OtherDicts (E.content.styles.entryOrNew "record")
      (E.content.styles.entryOrNew "record") := by
  cases is : E.content.styles with
  | dict d =>
    refine (inStep_recordEntry is).bind fun M found found' _ both => ?_
    cases both with
    | some others => exact inStep_pure others
    | none =>
      refine (inStep_newDict tables_empty).bind fun M₁ v w _ others => ?_
      exact (inStep_setRecord is others).bind fun M₂ _ _ le _ => inStep_pure (others.mono le)
  | _ =>
    rw [is] at styles
    exact inStep_lacking styles "setdefault"

theorem inStep_absorb {v w : Value} (others : E.OtherDicts L v w) {es fs : List (String × Value)}
    (named : List.Forall₂ (Named L.Alike) es fs) :
    E.InStep L Whatever (v.absorb es) (w.absorb fs) := by
  obtain ⟨d, e, rfl, rfl, linked, ne⟩ := others
  refine inStep_modifyHeap fun h g j => j.changed_other linked id nofun nofun ?_
    (h.changes_setDict d _) (g.changes_setDict e _) ?_
  · rintro d' styles same
    exact ne (styles.trans (congrArg Value.dict (Object.dict.inj same).symm))
  · rw [Heap.cell_setDict (j.mirrors.exist linked).1, Heap.cell_setDict (j.mirrors.exist linked).2]
    exact .dict ((j.mirrors.dict linked).insertAll named)

theorem inStep_addDefaults {es fs : List (String × Value)}
    (named : List.Forall₂ (Named L.Alike) es fs) :
    E.InStep L Whatever (E.context.addDefaults "record" es) (E.context.addDefaults "record" fs) := by
  refine inStep_viewContext.bind fun M x y le ⟨hx, hy, contents⟩ => ?_
  subst hx hy
  refine (inStep_recordOrNew contents.styles).bind fun M₁ v w le' others => inStep_absorb others ?_
  exact named.imp fun _ _ named => named.imp fun _ _ alike => (alike.mono le).mono le'

end Evaluation

end LexEnv
