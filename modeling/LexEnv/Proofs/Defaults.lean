import LexEnv.Proofs.Merging
import LexEnv.Proofs.Standard

/-!
# Defaults for records

The defaults for records are a dictionary that stands in a style map under the name of their class.
Contexts with the same style map share them, also if the map was empty when the contexts were made:
the first setting puts a dictionary there. Constructing a record makes a new dictionary of the
defaults and its own named arguments and leaves the defaults alone.

So the history of the settings decides what is constructed. A run of record calls is taken step by
step (`Heap.Progress`), and what stands in the style maps after it are the merged arguments of all
settings (`RecordCall.performed`). Main statement: `record_folds_history`.
-/

namespace LexEnv

open LexEnv.Action LexEnv.Program

/-! ## Style maps and what they hold -/

namespace Heap

/-- The style map of a context, if it is a dictionary. -/
def styleMap? (h : Heap) (c : ContextId) : Option DictId :=
  match (h.context c).styles with
  | .dict d => some d
  | _ => none

/-- The dictionary with the defaults for records in a style map, if it has one. -/
def recordDict? (h : Heap) (d : DictId) : Option DictId :=
  match (h.dict d).get? "record" with
  | some (.dict r) => some r
  | _ => none

/-- The defaults for records in a style map. -/
def recordDefaults (h : Heap) (d : DictId) : Table Value :=
  match h.recordDict? d with
  | some r => h.dict r
  | none => .empty

variable {h : Heap} {c : ContextId} {d r : DictId}

theorem styleMap?_eq_some_iff : h.styleMap? c = some d ↔ (h.context c).styles = .dict d := by
  unfold styleMap?
  split
  · next e is => simp [is]
  · next other =>
    constructor
    · nofun
    · exact fun is => absurd is (other d)

theorem recordDict?_eq_some_iff :
    h.recordDict? d = some r ↔ (h.dict d).get? "record" = some (.dict r) := by
  unfold recordDict?
  split
  · next e is => simp [is]
  · next other =>
    constructor
    · nofun
    · exact fun is => absurd is (other r)

/-- A context with a style map exists. -/
theorem has_of_styleMap? (styles : h.styleMap? c = some d) : h.Has (.context c) := by
  refine Nat.lt_of_not_le fun out => ?_
  rw [styleMap?_eq_some_iff, context, Array.getElem?_eq_none out] at styles
  cases styles

end Heap

/-! ## Putting defaults into a style map -/

/-- How named values are put over the defaults of a class in a style map: into the dictionary that
is there, or into a new one. -/
inductive Heap.AddsDefaults (h : Heap) (d : DictId) (name : String) (named : List (String × Value))
    (h' : Heap) : Prop where
  | present (r : DictId) (there : (h.dict d).get? name = some (.dict r))
      (confined : h.Confined (· = .dict r) h')
      (content : h.Has (.dict r) → h'.dict r = (h.dict r).insertAll named)
  | anew (r : DictId) (absent : (h.dict d).get? name = none) (fresh : ¬h.Has (.dict r))
      (made : h'.Has (.dict r)) (confined : h.Confined (· = .dict d) h')
      (entry : h'.dict d = (h.dict d).insert name (.dict r))
      (content : h'.dict r = Table.ofList named)

namespace ContextId

variable {c : ContextId} {st : State} {d : DictId} {name : String}

theorem run_entry? (styles : st.heap.styleMap? c = some d) {α : Type}
    (f : Option Value → Action α) :
    ((do f (← (← c.view).styles.entry? name)) : Action α).run st =
      (f ((st.heap.dict d).get? name)).run st := by
  rw [view, run_read_bind, Heap.styleMap?_eq_some_iff.mp styles]
  rfl

/-- Putting named values over the defaults of a class in a style map succeeds, unless something else
than a dictionary stands there. -/
theorem addDefaults_adds (styles : st.heap.styleMap? c = some d) (there : st.heap.Has (.dict d))
    (entry : ∀ v, (st.heap.dict d).get? name = some v → ∃ r, v = .dict r)
    (named : List (String × Value)) :
    ∃ h, (c.addDefaults name named).run st = (.ok (), { st with heap := h }) ∧
      st.heap.AddsDefaults d name named h := by
  have start : (c.addDefaults name named).run st =
      ((do (← (Value.dict d).entryOrNew name).absorb named) : Action Unit).run st := by
    rw [addDefaults, view, run_read_bind, Heap.styleMap?_eq_some_iff.mp styles]
  cases found : (st.heap.dict d).get? name with
  | some v =>
    obtain ⟨r, rfl⟩ := entry v found
    refine ⟨st.heap.setDict r ((st.heap.dict r).insertAll named), ?_, .present r found ?_ ?_⟩
    · rw [start, Value.entryOrNew, bind_assoc, run_read_bind, found]
      rfl
    · exact .of_changes (st.heap.changes_setDict r _) rfl
    · exact fun there => Cell.dict.inj (Heap.cell_setDict there _)
  | none =>
    let r : DictId := ⟨st.heap.dicts.size⟩
    let made := (st.heap.addDict .empty).2
    let entered := made.setDict d ((made.dict d).insert name (.dict r))
    have adds := st.heap.adds_addDict .empty
    have enters := made.changes_setDict d ((made.dict d).insert name (.dict r))
    have fills := entered.changes_setDict r ((entered.dict r).insertAll named)
    have new : made.Has (.dict r) := (adds.has _).mpr (.inr rfl)
    have still : entered.Has (.dict r) := (enters.has _).mpr new
    have other : (Object.dict d) ≠ .dict r := fun same => adds.new (same ▸ there)
    refine ⟨entered.setDict r ((entered.dict r).insertAll named), ?_,
      .anew r found adds.new ((fills.has _).mpr still) ⟨fun o old => ?_, fun o old kept => ?_⟩ ?_ ?_⟩
    · rw [start, Value.entryOrNew, bind_assoc, run_read_bind, found]
      rfl
    · exact (fills.has o).mpr ((enters.has o).mpr ((adds.has o).mpr (.inl old)))
    · have elder : o ≠ .dict r := fun same => adds.new (same ▸ old)
      rw [fills.cell o elder, enters.cell o kept, adds.cell o elder]
    · rw [Cell.dict.inj (fills.cell (.dict d) other),
        Cell.dict.inj (Heap.cell_setDict ((adds.has _).mpr (.inl there)) _),
        Cell.dict.inj (adds.cell (.dict d) other)]
    · rw [Cell.dict.inj (Heap.cell_setDict still _),
        Cell.dict.inj (enters.cell (.dict r) (Ne.symm other)),
        Cell.dict.inj (st.heap.cell_addDict .empty)]
      rfl

end ContextId

/-- Arguments that are made before and read after do not matter. -/
theorem Heap.AddsDefaults.during {h h₁ h₂ h₃ : Heap} {d : DictId} {name : String}
    {named : List (String × Value)} {a : ArgumentsId} (made : h.Adds (.arguments a) h₁)
    (adds : h₁.AddsDefaults d name named h₂) (read : h₂.Changes (.arguments a) h₃) :
    h.AddsDefaults d name named h₃ := by
  have before : ∀ x : DictId, h₁.dict x = h.dict x := fun x =>
    Cell.dict.inj (made.cell (.dict x) nofun)
  have after : ∀ x : DictId, h₃.dict x = h₂.dict x := fun x =>
    Cell.dict.inj (read.cell (.dict x) nofun)
  have has : ∀ x : DictId, h₁.Has (.dict x) ↔ h.Has (.dict x) := fun x =>
    (made.has _).trans (by simp)
  have around : ∀ {T : Object → Prop}, h₁.Confined T h₂ → h.Confined T h₃ := fun inner =>
    { has := fun o old => (read.has o).mpr (inner.has o ((made.has o).mpr (.inl old)))
      cell := fun o old other => by
        have elder : o ≠ .arguments a := fun same => made.new (same ▸ old)
        rw [read.cell o elder, inner.cell o ((made.has o).mpr (.inl old)) other,
          made.cell o elder] }
  cases adds with
  | present r there confined content =>
    refine .present r ?_ (around confined) fun old => ?_
    · rw [← before, there]
    · rw [after, content ((has r).mpr old), before]
  | anew r absent fresh new confined entry content =>
    refine .anew r ?_ ?_ ((read.has _).mpr new) (around confined) ?_ ?_
    · rw [← before, absent]
    · exact fun old => fresh ((has r).mpr old)
    · rw [after, entry, before]
    · rw [after, content]

/-! ## Calls of the class of records -/

/-- Setting the defaults for records or constructing a record, with named arguments only. -/
structure RecordCall where
  /-- Whether defaults are set; otherwise a record is constructed. -/
  sets : Bool
  context : ContextId
  named : List (String × Value)
  distinct : (Entries.keys named).Nodup

/-- A program whose first command succeeds goes on with the answer. -/
theorem Program.run_exec_of_ok {α β : Type} {invoke : Invocation} {c : Command α}
    {f : α → Program β} {st st' : State} {a : α} (ran : c.run.run st = (.ok a, st')) :
    ((exec c >>= f).run invoke).run st = ((f a).run invoke).run st' := by
  rw [run_exec_andThen, run_bind, ran]

/-- A call that has read all its arguments ends as its body did. -/
theorem Program.judged_of_read {a : ArgumentsId} {v : Value} {st : State}
    (read : st.heap.args a = ⟨[], []⟩) : judged a (.ok v, st) = (.ok v, st) := by
  rw [judged, read]
  rfl

namespace Template

variable {invoke : Invocation} {c : ContextId} {a : ArgumentsId} {st : State}

/-- The heap with no named arguments left. -/
def namedRead (h : Heap) (a : ArgumentsId) : Heap := h.setArguments a { h.args a with named := [] }

theorem run_setRecord_of_added {middle : State}
    (added : (c.addDefaults "record" (st.heap.args a).named).run st = (.ok (), middle)) :
    ((setRecord c a).run invoke).run st =
      (.ok .none, { middle with heap := namedRead middle.heap a }) := by
  have looked : (Command.arguments a).run.run st = (.ok (st.heap.args a), st) := rfl
  have adds : (Command.addDefaults c "record" (st.heap.args a).named).run.run st =
      (.ok (), middle) := added
  rw [setRecord, run_exec_of_ok looked, run_exec_of_ok adds]
  rfl

theorem run_constructRecord_of_defaults {defaults : Table Value}
    (found : (c.defaults "record").run st = (.ok defaults, st)) :
    ((constructRecord c a).run invoke).run st =
      (Value.newDict (defaults.insertAll (st.heap.args a).named)).run
        { st with heap := namedRead st.heap a } := by
  have taken : (Command.takeAllNamed a).run.run st =
      (.ok (st.heap.args a).named, { st with heap := namedRead st.heap a }) :=
    a.run_takeAllNamed st
  rw [constructRecord, run_exec_of_ok (c := .defaults c "record") found, run_exec_of_ok taken,
    run_exec]
  rfl

end Template

namespace RecordCall

variable (record : Class) (x : RecordCall)

/-- What the class of records is put to. -/
def use : Use := if x.sets then .set else .construct

/-- Performs a call. -/
def perform : Action Value := do
  invoke x.use (.cls record) x.context (← ArgumentsId.create [] x.named)

/-- Performs calls one after the other. -/
def performAll (calls : List RecordCall) : Action (List Value) := calls.mapM (perform record)

/-- What a call does with a style map, and what it answers. -/
inductive Effect (d : DictId) (h : Heap) : Value → Heap → Prop where
  | set {h' : Heap} (sets : x.sets = true) (adds : h.AddsDefaults d "record" x.named h') :
    Effect d h .none h'
  | construct {h' : Heap} (e : DictId) (constructs : x.sets = false) (fresh : ¬h.Has (.dict e))
      (made : h'.Has (.dict e)) (confined : h.Confined (fun _ => False) h')
      (content : h'.dict e = (h.recordDefaults d).insertAll x.named) : Effect d h (.dict e) h'

variable {record} {x} {st : State} {d : DictId}

/-- The defaults that a construction starts from. -/
theorem run_defaults {c : ContextId} (styles : st.heap.styleMap? c = some d)
    (entry : ∀ v, (st.heap.dict d).get? "record" = some v → ∃ r, v = .dict r) :
    (c.defaults "record").run st = (.ok (st.heap.recordDefaults d), st) := by
  rw [ContextId.defaults, ContextId.run_entry? styles]
  unfold Heap.recordDefaults Heap.recordDict?
  cases found : (st.heap.dict d).get? "record" with
  | some v =>
    obtain ⟨r, rfl⟩ := entry v found
    rfl
  | none => rfl

/-- A call succeeds unless something else than a dictionary stands under the defaults. -/
theorem performed_one (template : record.template = .record)
    (styles : st.heap.styleMap? x.context = some d) (there : st.heap.Has (.dict d))
    (entry : ∀ v, (st.heap.dict d).get? "record" = some v → ∃ r, v = .dict r) :
    ∃ answer st', (x.perform record).run st = (.ok answer, st') ∧
      x.Effect d st.heap answer st'.heap := by
  let a : ArgumentsId := ⟨st.heap.arguments.size⟩
  let given : Arguments := ⟨[], x.named⟩
  let st₁ : State := { st with heap := (st.heap.addArguments given).2 }
  have made : st.heap.Adds (.arguments a) st₁.heap := st.heap.adds_addArguments given
  have new : st₁.heap.Has (.arguments a) := (made.has _).mpr (.inr rfl)
  have args : st₁.heap.args a = given := Cell.arguments.inj (st.heap.cell_addArguments given)
  have start : (x.perform record).run st =
      (invoke x.use (.cls record) x.context a).run st₁ := by
    show (invoke x.use (.cls record) x.context a).run
      { st with heap := (st.heap.addArguments ⟨[], Entries.ofList x.named⟩).2 } = _
    rw [Entries.ofList_of_nodup x.distinct]
  have styles₁ : st₁.heap.styleMap? x.context = some d := styles
  rw [start]
  cases sets : x.sets with
  | true =>
    have use : x.use = .set := by rw [RecordCall.use, if_pos sets]
    have is : (Value.cls record).body? x.use = some Template.setRecord := by
      rw [use, Value.body?, template]
      rfl
    obtain ⟨nesting, ran⟩ := exists_run_invoke is x.context a st₁
    obtain ⟨h, added, adds⟩ := ContextId.addDefaults_adds styles₁ there entry x.named
    have unread : st₁.heap.args a = given := args
    have body : ((Template.setRecord x.context a).run (invokeWithin nesting)).run st₁ =
        (.ok .none, { st₁ with heap := Template.namedRead h a }) :=
      Template.run_setRecord_of_added (by rw [unread]; exact added)
    have kept := ContextId.confined_of_added added
    have same : h.args a = given :=
      (Cell.arguments.inj (kept.cell (.arguments a) new (by simp [Value.Absorbing]))).trans args
    have read : (Template.namedRead h a).args a = ⟨[], []⟩ := by
      rw [Template.namedRead, same]
      exact ArgumentsId.args_setArguments (kept.has _ new) _
    refine ⟨.none, { st₁ with heap := Template.namedRead h a }, ?_,
      .set sets (adds.during made (h.changes_setArguments a _))⟩
    rw [ran, body]
    exact judged_of_read read
  | false =>
    have use : x.use = .construct := by rw [RecordCall.use, sets]; rfl
    have is : (Value.cls record).body? x.use = some Template.constructRecord := by
      rw [use, Value.body?, template]
      rfl
    obtain ⟨nesting, ran⟩ := exists_run_invoke is x.context a st₁
    let read := Template.namedRead st₁.heap a
    let content := (st.heap.recordDefaults d).insertAll x.named
    have taken : st₁.heap.Changes (.arguments a) read := st₁.heap.changes_setArguments a _
    have adds := read.adds_addDict content
    have before : st.heap.Confined (fun _ => False) read :=
      { has := fun o old => (taken.has o).mpr ((made.has o).mpr (.inl old))
        cell := fun o old _ => by
          have elder : o ≠ .arguments a := fun same => made.new (same ▸ old)
          rw [taken.cell o elder, made.cell o elder] }
    have body : ((Template.constructRecord x.context a).run (invokeWithin nesting)).run st₁ =
        (.ok (.dict ⟨read.dicts.size⟩), { st₁ with heap := (read.addDict content).2 }) := by
      rw [Template.run_constructRecord_of_defaults (run_defaults styles₁ entry), args]
      rfl
    have none : (read.addDict content).2.args a = ⟨[], []⟩ := by
      show (st₁.heap.setArguments a { st₁.heap.args a with named := [] }).args a = _
      rw [args]
      exact ArgumentsId.args_setArguments new _
    refine ⟨_, { st₁ with heap := (read.addDict content).2 }, ?_,
      .construct ⟨read.dicts.size⟩ sets (fun old => adds.new (before.has _ old))
        ((adds.has _).mpr (.inr rfl)) (before.trans (.of_adds adds))
        (Cell.dict.inj (read.cell_addDict content))⟩
    rw [ran, body]
    exact judged_of_read none

end RecordCall

/-! ## Style maps apart -/

namespace Heap

/-- Style maps whose defaults for records, where there are any, are dictionaries of their own: none of
them is a style map, and none stands in two style maps. -/
structure RecordsApart (h : Heap) (maps : List DictId) : Prop where
  exist : ∀ d ∈ maps, h.Has (.dict d)
  entry : ∀ d ∈ maps, ∀ v, (h.dict d).get? "record" = some v →
    ∃ r, v = .dict r ∧ h.Has (.dict r) ∧ r ∉ maps
  unshared : ∀ d ∈ maps, ∀ e ∈ maps, ∀ r, h.recordDict? d = some r → h.recordDict? e = some r → d = e

/-- A dictionary that is neither a style map nor the defaults in one. -/
structure Unused (h : Heap) (maps : List DictId) (e : DictId) : Prop where
  exist : h.Has (.dict e)
  noMap : e ∉ maps
  noDefaults : ∀ d ∈ maps, h.recordDict? d ≠ some e

/-- What a record call makes of style maps that are apart: they still are, the defaults in each have
some named values put over them, and unused dictionaries stay unused and as they are. -/
structure Progress (maps : List DictId) (given : DictId → List (String × Value)) (h h' : Heap) :
    Prop where
  apart : h'.RecordsApart maps
  has : ∀ o, h.Has o → h'.Has o
  context : ∀ c, h.Has (.context c) → h'.context c = h.context c
  defaults : ∀ d ∈ maps, h'.recordDefaults d = (h.recordDefaults d).insertAll (given d)
  unused : ∀ e, h.Unused maps e → h'.Unused maps e ∧ h'.dict e = h.dict e

variable {h h' : Heap} {maps : List DictId}

theorem Progress.refl (apart : h.RecordsApart maps) : h.Progress maps (fun _ => []) h where
  apart := apart
  has _ := id
  context _ _ := rfl
  defaults _ _ := rfl
  unused _ unused := ⟨unused, rfl⟩

theorem Progress.trans {h'' : Heap} {given given' : DictId → List (String × Value)}
    (first : h.Progress maps given h') (second : h'.Progress maps given' h'') :
    h.Progress maps (fun d => given d ++ given' d) h'' where
  apart := second.apart
  has o there := second.has o (first.has o there)
  context c there := (second.context c (first.has _ there)).trans (first.context c there)
  defaults d mem := by
    rw [second.defaults d mem, first.defaults d mem, Table.insertAll_append]
  unused e unused := by
    obtain ⟨unused', same⟩ := first.unused e unused
    obtain ⟨unused'', same'⟩ := second.unused e unused'
    exact ⟨unused'', same'.trans same⟩

theorem recordDict?_congr {d : DictId} (same : h'.dict d = h.dict d) :
    h'.recordDict? d = h.recordDict? d := by
  rw [recordDict?, same, recordDict?]

/-- The defaults in one of the style maps exist, and are none of them. -/
theorem RecordsApart.of_recordDict? (apart : h.RecordsApart maps) {d r : DictId} (mem : d ∈ maps)
    (found : h.recordDict? d = some r) : h.Has (.dict r) ∧ r ∉ maps := by
  obtain ⟨r', is, there, other⟩ := apart.entry d mem _ (recordDict?_eq_some_iff.mp found)
  cases is
  exact ⟨there, other⟩

/-- A style map whose defaults are the same, and hold the same. -/
theorem RecordsApart.recordDefaults_congr (apart : h.RecordsApart maps) {d : DictId}
    (mem : d ∈ maps) (records : h'.recordDict? d = h.recordDict? d)
    (same : ∀ r, h.recordDict? d = some r → h.Has (.dict r) → r ∉ maps → h'.dict r = h.dict r) :
    h'.recordDefaults d = h.recordDefaults d := by
  unfold recordDefaults
  rw [records]
  cases found : h.recordDict? d with
  | none => rfl
  | some r =>
    obtain ⟨old, other⟩ := apart.of_recordDict? mem found
    exact same r found old other

/-- What changes no style map itself is told by what it makes of the defaults. -/
theorem Progress.of_maps_kept (apart : h.RecordsApart maps) {given : DictId → List (String × Value)}
    {T : Object → Prop} (confined : h.Confined T h') (contexts : ∀ c, ¬T (.context c))
    (map : ∀ d ∈ maps, h'.dict d = h.dict d)
    (defaults : ∀ d ∈ maps, h'.recordDict? d = h.recordDict? d →
      h'.recordDefaults d = (h.recordDefaults d).insertAll (given d))
    (unused : ∀ e, h.Unused maps e → h'.dict e = h.dict e) : h.Progress maps given h' := by
  have records : ∀ d ∈ maps, h'.recordDict? d = h.recordDict? d := fun d mem =>
    recordDict?_congr (map d mem)
  refine ⟨⟨fun d mem => confined.has _ (apart.exist d mem), fun d mem v found => ?_,
    fun d mem e mem' r first second => ?_⟩, confined.has,
    fun c there => Cell.context.inj (confined.cell (.context c) there (contexts c)),
    fun d mem => defaults d mem (records d mem),
    fun e free => ⟨⟨confined.has _ free.exist, free.noMap, fun d mem => ?_⟩, unused e free⟩⟩
  · rw [map d mem] at found
    obtain ⟨r, is, there, other⟩ := apart.entry d mem v found
    exact ⟨r, is, confined.has _ there, other⟩
  · rw [records d mem] at first
    rw [records e mem'] at second
    exact apart.unshared d mem e mem' r first second
  · rw [records d mem]
    exact free.noDefaults d mem

/-- What leaves all objects as they are is no progress. -/
theorem Progress.of_confined (apart : h.RecordsApart maps)
    (confined : h.Confined (fun _ => False) h') : h.Progress maps (fun _ => []) h' := by
  have dict : ∀ {d : DictId}, h.Has (.dict d) → h'.dict d = h.dict d := fun there =>
    Cell.dict.inj (confined.cell (.dict _) there id)
  refine .of_maps_kept apart confined (fun _ => id) (fun d mem => dict (apart.exist d mem))
    (fun d mem records => ?_) fun e unused => dict unused.exist
  exact apart.recordDefaults_congr mem records fun r _ old _ => dict old

/-- A dictionary that is made while nothing else changes is an unused one. -/
theorem unused_of_fresh (apart : h.RecordsApart maps) (confined : h.Confined (fun _ => False) h')
    {e : DictId} (fresh : ¬h.Has (.dict e)) (made : h'.Has (.dict e)) : h'.Unused maps e where
  exist := made
  noMap mem := fresh (apart.exist e mem)
  noDefaults d mem found := by
    have same : h'.dict d = h.dict d :=
      Cell.dict.inj (confined.cell (.dict d) (apart.exist d mem) id)
    rw [recordDict?_congr same] at found
    exact fresh (apart.of_recordDict? mem found).1

/-- Values put over the defaults in a style map that has some. -/
theorem Progress.present (apart : h.RecordsApart maps) {d r : DictId} (mem : d ∈ maps)
    (there : h.recordDict? d = some r) {named : List (String × Value)}
    (confined : h.Confined (· = .dict r) h')
    (content : h.Has (.dict r) → h'.dict r = (h.dict r).insertAll named) :
    h.Progress maps (fun e => if e = d then named else []) h' := by
  obtain ⟨exist, noMap⟩ := apart.of_recordDict? mem there
  have dict : ∀ {e : DictId}, h.Has (.dict e) → e ≠ r → h'.dict e = h.dict e := fun old other =>
    Cell.dict.inj (confined.cell (.dict _) old fun same => other (Object.dict.inj same))
  refine .of_maps_kept apart confined (fun _ => nofun)
    (fun e mem => dict (apart.exist e mem) fun same => noMap (same ▸ mem))
    (fun e mem' records => ?_)
    fun e unused => dict unused.exist fun same => unused.noDefaults d mem (same ▸ there)
  by_cases same : e = d
  · subst same
    unfold recordDefaults
    rw [records, there, if_pos rfl]
    exact content exist
  · rw [if_neg same]
    refine apart.recordDefaults_congr mem' records fun r' found old _ => dict old ?_
    -- Only one style map has these defaults.
    rintro rfl
    exact same (apart.unshared e mem' d mem r' found there)

/-- Values put into a style map that has no defaults yet. -/
theorem Progress.anew (apart : h.RecordsApart maps) {d r : DictId} (mem : d ∈ maps)
    (absent : (h.dict d).get? "record" = none) {named : List (String × Value)}
    (fresh : ¬h.Has (.dict r)) (made : h'.Has (.dict r)) (confined : h.Confined (· = .dict d) h')
    (entry : h'.dict d = (h.dict d).insert "record" (.dict r))
    (content : h'.dict r = Table.ofList named) :
    h.Progress maps (fun e => if e = d then named else []) h' := by
  have dict : ∀ {e : DictId}, h.Has (.dict e) → e ≠ d → h'.dict e = h.dict e := fun old other =>
    Cell.dict.inj (confined.cell (.dict _) old fun same => other (Object.dict.inj same))
  have here : h'.recordDict? d = some r := by
    rw [recordDict?_eq_some_iff, entry, Table.get?_insert, if_pos rfl]
  have noneBefore : h.recordDict? d = none := by
    rw [recordDict?, absent]
  have records : ∀ e ∈ maps, e ≠ d → h'.recordDict? e = h.recordDict? e := fun e mem other =>
    recordDict?_congr (dict (apart.exist e mem) other)
  -- What another style map holds was there before, so it is not the new dictionary.
  have elder : ∀ e ∈ maps, e ≠ d → h'.recordDict? e ≠ some r := by
    intro e mem other found
    rw [records e mem other] at found
    exact fresh (apart.of_recordDict? mem found).1
  refine ⟨⟨fun e mem => confined.has _ (apart.exist e mem), fun e mem v found => ?_,
    fun e inside e' inside' r' first second => ?_⟩, confined.has,
    fun c old => Cell.context.inj (confined.cell (.context c) old nofun), fun e mem' => ?_,
    fun e unused => ⟨⟨confined.has _ unused.exist, unused.noMap, fun e' mem' found => ?_⟩,
      dict unused.exist fun same => unused.noMap (same ▸ mem)⟩⟩
  · by_cases same : e = d
    · subst same
      rw [entry, Table.get?_insert, if_pos rfl] at found
      cases found
      exact ⟨r, rfl, made, fun inside => fresh (apart.exist r inside)⟩
    · rw [dict (apart.exist e mem) same] at found
      obtain ⟨r', is, old, other⟩ := apart.entry e mem v found
      exact ⟨r', is, confined.has _ old, other⟩
  · by_cases left : e = d <;> by_cases right : e' = d
    · rw [left, right]
    · subst left
      rw [here] at first
      cases first
      exact absurd second (elder e' inside' right)
    · subst right
      rw [here] at second
      cases second
      exact absurd first (elder e inside left)
    · rw [records e inside left] at first
      rw [records e' inside' right] at second
      exact apart.unshared e inside e' inside' r' first second
  · by_cases same : e = d
    · subst same
      unfold recordDefaults
      rw [here, noneBefore, if_pos rfl]
      exact content
    · rw [if_neg same]
      exact apart.recordDefaults_congr mem' (records e mem' same) fun r' _ old other =>
        dict old fun is => other (is ▸ mem)
  · by_cases same : e' = d
    · rw [same, here] at found
      cases found
      exact fresh unused.exist
    · rw [records e' mem' same] at found
      exact unused.noDefaults e' mem' found

end Heap

/-! ## Runs of record calls -/

namespace RecordCall

/-- What a call puts over the defaults in a style map. -/
def given (h : Heap) (x : RecordCall) (d : DictId) : List (String × Value) :=
  if x.sets ∧ h.styleMap? x.context = some d then x.named else []

/-- What some calls put over the defaults in a style map, one after the other. -/
def settings (h : Heap) (calls : List RecordCall) (d : DictId) : List (String × Value) :=
  calls.flatMap fun x => x.given h d

/-- All calls go through contexts whose style maps are among some. -/
def Styled (h : Heap) (maps : List DictId) (calls : List RecordCall) : Prop :=
  ∀ x ∈ calls, ∃ d ∈ maps, h.styleMap? x.context = some d

variable {record : Class} {x : RecordCall} {calls : List RecordCall} {maps : List DictId}
  {h h' : Heap} {st : State}

theorem Effect.progress {d : DictId} {answer : Value} (apart : h.RecordsApart maps)
    (mem : d ∈ maps) (styles : h.styleMap? x.context = some d) (effect : x.Effect d h answer h') :
    h.Progress maps (x.given h) h' := by
  cases effect with
  | set sets adds =>
    have is : x.given h = fun e => if e = d then x.named else [] := by
      funext e
      simp [given, sets, styles, eq_comm]
    rw [is]
    cases adds with
    | present r there confined content =>
      exact .present apart mem (Heap.recordDict?_eq_some_iff.mpr there) confined content
    | anew r absent fresh made confined entry content =>
      exact .anew apart mem absent fresh made confined entry content
  | construct e constructs fresh made confined content =>
    have is : x.given h = fun _ => [] := by
      funext e
      simp [given, constructs]
    rw [is]
    exact .of_confined apart confined

/-- Contexts keep their style maps. -/
theorem styleMap?_of_progress {f : DictId → List (String × Value)} (progress : h.Progress maps f h')
    {c : ContextId} {d : DictId} (styles : h.styleMap? c = some d) :
    h'.styleMap? c = h.styleMap? c := by
  rw [Heap.styleMap?, progress.context c (Heap.has_of_styleMap? styles), Heap.styleMap?]

theorem Styled.of_progress {f : DictId → List (String × Value)} (progress : h.Progress maps f h')
    (styled : Styled h maps calls) : Styled h' maps calls := by
  intro x mem
  obtain ⟨d, inside, styles⟩ := styled x mem
  exact ⟨d, inside, (styleMap?_of_progress progress styles).trans styles⟩

theorem settings_of_progress {f : DictId → List (String × Value)} (progress : h.Progress maps f h')
    (styled : Styled h maps calls) : settings h' calls = settings h calls := by
  funext d
  refine List.flatMap_congr fun x mem => ?_
  obtain ⟨e, -, styles⟩ := styled x mem
  rw [given, styleMap?_of_progress progress styles, given]

/-- One call, with style maps apart. -/
theorem performed_apart (template : record.template = .record) (apart : st.heap.RecordsApart maps)
    {d : DictId} (mem : d ∈ maps) (styles : st.heap.styleMap? x.context = some d) :
    ∃ answer st', (x.perform record).run st = (.ok answer, st') ∧
      x.Effect d st.heap answer st'.heap ∧ st.heap.Progress maps (x.given st.heap) st'.heap := by
  have entry : ∀ v, (st.heap.dict d).get? "record" = some v → ∃ r, v = .dict r := fun v found => by
    obtain ⟨r, is, -⟩ := apart.entry d mem v found
    exact ⟨r, is⟩
  obtain ⟨answer, st', ran, effect⟩ := performed_one template styles (apart.exist d mem) entry
  exact ⟨answer, st', ran, effect, effect.progress apart mem styles⟩

/-- A run of record calls succeeds and puts the arguments of its settings over the defaults. -/
theorem performed (template : record.template = .record) (apart : st.heap.RecordsApart maps)
    (styled : Styled st.heap maps calls) :
    ∃ answers st', (performAll record calls).run st = (.ok answers, st') ∧
      st.heap.Progress maps (settings st.heap calls) st'.heap := by
  induction calls generalizing st with
  | nil => exact ⟨[], st, rfl, .refl apart⟩
  | cons x calls ih =>
    obtain ⟨d, mem, styles⟩ := styled x List.mem_cons_self
    obtain ⟨answer, st₁, ran, -, progress⟩ := performed_apart template apart mem styles
    have rest : Styled st.heap maps calls := fun y mem => styled y (List.mem_cons_of_mem _ mem)
    obtain ⟨answers, st', run, later⟩ := ih progress.apart (rest.of_progress progress)
    rw [settings_of_progress progress rest] at later
    refine ⟨answer :: answers, st', ?_, progress.trans later⟩
    rw [performAll, List.mapM_cons, run_bind, ran]
    simp only
    rw [run_bind]
    rw [performAll] at run
    rw [run]
    rfl

end RecordCall

/-! ## Contexts with and without a style map -/

namespace ContextId

/-- A context that is made with a style map has this map, empty or not. -/
theorem created_with_styles (stack : StackId) (d : DictId) (output : Value) (st : State) :
    ∃ c st', (create stack (.dict d) output).run st = (.ok c, st') ∧
      st'.heap.styleMap? c = some d ∧ ∀ e, st'.heap.dict e = st.heap.dict e := by
  unfold create
  rw [if_neg (by nofun)]
  by_cases default : output = .none
  · simp only [if_pos default]
    refine ⟨_, _, rfl, ?_, fun e => rfl⟩
    simp [Heap.styleMap?_eq_some_iff, Heap.context]
  · simp only [if_neg default]
    refine ⟨_, _, rfl, ?_, fun e => rfl⟩
    simp [Heap.styleMap?_eq_some_iff, Heap.context]

/-- A context that is made without a style map has a new and empty one. -/
theorem created_without_styles (stack : StackId) (output : Value) (st : State) :
    ∃ c st' d, (create stack .none output).run st = (.ok c, st') ∧
      st'.heap.styleMap? c = some d ∧ ¬st.heap.Has (.dict d) ∧ st'.heap.dict d = .empty := by
  have adds := st.heap.adds_addDict .empty
  have content := Cell.dict.inj (st.heap.cell_addDict .empty)
  unfold create
  rw [if_pos rfl]
  by_cases default : output = .none
  · simp only [if_pos default]
    refine ⟨_, _, ⟨st.heap.dicts.size⟩, rfl, ?_, adds.new, content⟩
    simp [Heap.styleMap?_eq_some_iff, Heap.context]
  · simp only [if_neg default]
    refine ⟨_, _, ⟨st.heap.dicts.size⟩, rfl, ?_, adds.new, content⟩
    simp [Heap.styleMap?_eq_some_iff, Heap.context]

end ContextId

/-! ## The fold -/

namespace RecordCall

/-- What the fold of the settings says of a call with some calls before and some after it, for style
maps as they were at first. -/
structure Folds (record : Class) (st : State) (maps : List DictId) (past : List RecordCall)
    (x : RecordCall) (later : List RecordCall) (before : State) (answer : Value) (after st' : State) :
    Prop where
  /-- The calls before, the call itself and the calls after it succeed. -/
  led : ∃ answers, (performAll record past).run st = (.ok answers, before)
  called : (x.perform record).run before = (.ok answer, after)
  followed : ∃ answers, (performAll record later).run after = (.ok answers, st')
  /-- A construction answers a new dictionary of the first defaults, the arguments of the settings so
  far through the same style map and its own arguments; later calls leave it as it is. -/
  constructed : x.sets = false → ∃ e, answer = .dict e ∧ ¬before.heap.Has (.dict e) ∧
    (∀ d, st.heap.styleMap? x.context = some d →
      Entries.Merged ((st.heap.recordDefaults d).entries ++
        Entries.underTexts (settings st.heap past d ++ x.named)) (after.heap.dict e).entries) ∧
    st'.heap.dict e = after.heap.dict e
  /-- The defaults are the first ones and the arguments of all settings through their style map. -/
  defaults : ∀ d ∈ maps, Entries.Merged ((st.heap.recordDefaults d).entries ++
    Entries.underTexts (settings st.heap (past ++ x :: later) d)) (st'.heap.recordDefaults d).entries

/-- Record calls through style maps that are apart fold the settings. -/
theorem exists_folds {record : Class} (template : record.template = .record) {st : State}
    {maps : List DictId} (apart : st.heap.RecordsApart maps) {past later : List RecordCall}
    {x : RecordCall} (styled : Styled st.heap maps (past ++ x :: later)) :
    ∃ before answer after st', Folds record st maps past x later before answer after st' := by
  have styledPast : Styled st.heap maps past := fun y mem =>
    styled y (List.mem_append_left _ mem)
  have styledLater : Styled st.heap maps later := fun y mem =>
    styled y (List.mem_append_right _ (List.mem_cons_of_mem _ mem))
  obtain ⟨d, mem, styles⟩ := styled x (by simp)
  obtain ⟨answers, before, ran, first⟩ := performed template apart styledPast
  have styles₁ := (styleMap?_of_progress first styles).trans styles
  obtain ⟨answer, after, ran', effect, here⟩ :=
    performed_apart template first.apart mem styles₁
  have now := first.trans here
  obtain ⟨answers', st', ran'', last⟩ := performed template here.apart
    (styledLater.of_progress now)
  have whole := now.trans last
  refine ⟨before, answer, after, st', ⟨answers, ran⟩, ran', ⟨answers', ran''⟩,
    fun constructs => ?_, fun e inside => ?_⟩
  · cases effect with
    | set sets adds => simp [constructs] at sets
    | construct e constructs fresh made confined content =>
      have unused := Heap.unused_of_fresh first.apart confined fresh made
      refine ⟨e, rfl, fresh, fun d' styles' => ?_, (last.unused e unused).2⟩
      obtain rfl : d = d' := Option.some.inj (styles.symm.trans styles')
      rw [content, first.defaults d mem, ← Table.insertAll_append]
      exact Table.merged_insertAll _ _
  · have here : x.given before.heap = x.given st.heap := by
      funext e
      rw [given, styleMap?_of_progress first styles, given]
    have all : settings st.heap (past ++ x :: later) e =
        settings st.heap past e ++ x.given before.heap e ++
          settings after.heap later e := by
      rw [here, settings_of_progress now styledLater, settings,
        List.flatMap_append, List.flatMap_cons, List.append_assoc]
      rfl
    rw [whole.defaults e inside, all]
    exact Table.merged_insertAll _ _

end RecordCall

/-- A context that is made with a style map has this map, empty or not, and shares it with every
other context of the map; one that is made without has a map of its own.

With style maps apart, record calls through any contexts of them succeed, in whatever order they come.
What is constructed is a new dictionary: the defaults that stood in the style map at first, with the
arguments of all settings through this map so far and the call's own arguments put over them, in order.
Later calls leave this dictionary as it is. Constructions, and settings through other maps, do not come
into the defaults of a map. -/
theorem record_folds_history :
    (∀ (stack : StackId) (d : DictId) (output : Value) (st : State), ∃ c st',
      (ContextId.create stack (.dict d) output).run st = (.ok c, st') ∧
        st'.heap.styleMap? c = some d ∧ ∀ e, st'.heap.dict e = st.heap.dict e) ∧
    (∀ (stack : StackId) (output : Value) (st : State), ∃ c st' d,
      (ContextId.create stack .none output).run st = (.ok c, st') ∧
        st'.heap.styleMap? c = some d ∧ ¬st.heap.Has (.dict d) ∧ st'.heap.dict d = .empty) ∧
    ∀ {record : Class}, record.template = .record → ∀ {st : State} {maps : List DictId},
      st.heap.RecordsApart maps → ∀ {past later : List RecordCall} {x : RecordCall},
        RecordCall.Styled st.heap maps (past ++ x :: later) → ∃ before answer after st',
          RecordCall.Folds record st maps past x later before answer after st' :=
  ⟨ContextId.created_with_styles, ContextId.created_without_styles,
    fun template _ _ apart _ _ _ styled => RecordCall.exists_folds template apart styled⟩

/-- Makes two contexts that share an empty style map and one whose style map has defaults. -/
def sharingStyles : Program Unit := do
  let s ← .exec (.createStack none 3 none)
  let shared ← .exec (.newDict .empty)
  let defaults ← .exec (.newDict (.ofList [("a", .int 1)]))
  let own ← .exec (.newDict (.ofList [("record", defaults)]))
  let _ ← .exec (.createContext s shared .none)
  let _ ← .exec (.createContext s shared .none)
  let _ ← .exec (.createContext s own .none)

/-- A setting through the first context and one through the last. -/
def settingBoth : List RecordCall :=
  [⟨true, ⟨0⟩, [("b", .int 2), ("a", .int 3)], by decide⟩, ⟨true, ⟨2⟩, [("a", .int 4)], by decide⟩]

/-- A construction through the second context. -/
def constructing : RecordCall := ⟨false, ⟨1⟩, [("c", .int 5), ("b", .int 6)], by decide⟩

/-- A further setting through the second context. -/
def settingAgain : List RecordCall := [⟨true, ⟨1⟩, [("b", .int 7)], by decide⟩]

theorem record_folds_history_sharingStyles :
    ∃ (st before after st' : State) (e : DictId), st = (sharingStyles.toAction.run .initial).2 ∧
      (constructing.perform ⟨"record", .record, 0⟩).run before = (.ok (.dict e), after) ∧
      Entries.keys (st'.heap.dict e).entries = [.text "b", .text "a", .text "c"] ∧
      Entries.find? (.text "b") (st'.heap.dict e).entries = some (.int 6) ∧
      Entries.find? (.text "b") (st'.heap.recordDefaults ⟨0⟩).entries = some (.int 7) := by
  obtain ⟨st, hst⟩ : ∃ st, st = (sharingStyles.toAction.run .initial).2 := ⟨_, rfl⟩
  have apart : st.heap.RecordsApart [⟨0⟩, ⟨2⟩] := by
    have entries : (st.heap.dict ⟨0⟩).get? "record" = none ∧
        (st.heap.dict ⟨2⟩).get? "record" = some (.dict ⟨1⟩) := by
      rw [hst]
      decide +kernel
    have records : ∀ d ∈ [(⟨0⟩ : DictId), ⟨2⟩], ∀ e ∈ [(⟨0⟩ : DictId), ⟨2⟩],
        st.heap.recordDict? d = st.heap.recordDict? e → st.heap.recordDict? e = none ∨ d = e := by
      rw [hst]
      decide +kernel
    refine ⟨?_, fun d mem v found => ?_, fun d mem e mem' r first second => ?_⟩
    · rw [hst]
      decide +kernel
    · have there : st.heap.Has (.dict ⟨1⟩) := by
        rw [hst]
        decide +kernel
      rcases List.mem_pair.mp mem with rfl | rfl
      · rw [entries.1] at found
        cases found
      · rw [entries.2] at found
        cases found
        exact ⟨_, rfl, there, by decide⟩
    · rcases records d mem e mem' (first.trans second.symm) with none | same
      · rw [second] at none
        cases none
      · exact same
  have styles : st.heap.styleMap? ⟨0⟩ = some ⟨0⟩ ∧ st.heap.styleMap? ⟨1⟩ = some ⟨0⟩ ∧
      st.heap.styleMap? ⟨2⟩ = some ⟨2⟩ := by
    rw [hst]
    decide +kernel
  have defaults : (st.heap.recordDefaults ⟨0⟩).entries = [] := by
    rw [hst]
    decide +kernel
  have styled : RecordCall.Styled st.heap [⟨0⟩, ⟨2⟩]
      (settingBoth ++ constructing :: settingAgain) := by
    intro x mem
    simp only [settingBoth, constructing, settingAgain, List.cons_append, List.nil_append,
      List.mem_cons, List.not_mem_nil, or_false] at mem
    rcases mem with rfl | rfl | rfl | rfl
    · exact ⟨_, by decide, styles.1⟩
    · exact ⟨_, by decide, styles.2.2⟩
    · exact ⟨_, by decide, styles.2.1⟩
    · exact ⟨_, by decide, styles.2.1⟩
  obtain ⟨-, -, folds⟩ := record_folds_history
  have record : (⟨"record", .record, 0⟩ : Class).template = .record := rfl
  obtain ⟨before, answer, after, st', fold⟩ := folds record apart styled
  obtain ⟨e, rfl, -, merged, kept⟩ := fold.constructed rfl
  have made := merged ⟨0⟩ styles.2.1
  have all := fold.defaults ⟨0⟩ (by decide)
  have settings : RecordCall.settings st.heap settingBoth ⟨0⟩ =
        [("b", .int 2), ("a", .int 3)] ∧
      RecordCall.settings st.heap (settingBoth ++ constructing :: settingAgain) ⟨0⟩ =
        [("b", .int 2), ("a", .int 3), ("b", .int 7)] := by
    simp [RecordCall.settings, RecordCall.given, settingBoth, constructing, settingAgain, styles]
  rw [defaults, settings.1] at made
  rw [defaults, settings.2] at all
  refine ⟨st, before, after, st', e, hst, fold.called, ?_, ?_, ?_⟩
  · rw [kept, made.keys]
    decide
  · rw [kept, made.last]
    decide
  · rw [all.last]
    decide

/-! ### A style map that holds itself -/

/-- Makes a context whose style map is itself the defaults for records in it, and a dictionary
without entries. -/
def stylingItself : Program Unit := do
  let s ← .exec (.createStack none 3 none)
  let styles ← .exec (.newDict .empty)
  let c ← .exec (.createContext s styles .none)
  .exec (.setDefaults c "record" styles)
  let _ ← .exec (.newDict .empty)

/-- A setting in a style map that holds itself can replace the defaults by others. What is constructed
then has nothing of the former ones. -/
theorem replaced_defaults_are_forgotten :
    ∃ (st : State) (setting constructing : RecordCall) (e : DictId) (st' : State),
      st = (stylingItself.toAction.run .initial).2 ∧
      setting = ⟨true, ⟨0⟩, [("record", .dict ⟨1⟩)], by decide⟩ ∧
      constructing = ⟨false, ⟨0⟩, [("x", .int 1)], by decide⟩ ∧
      st.heap.styleMap? ⟨0⟩ = some ⟨0⟩ ∧ st.heap.recordDict? ⟨0⟩ = some ⟨0⟩ ∧
      (RecordCall.performAll ⟨"record", .record, 0⟩ [setting, constructing]).run st =
        (.ok [.none, .dict e], st') ∧
      ¬Entries.Merged ((st.heap.recordDefaults ⟨0⟩).entries ++
        Entries.underTexts (setting.named ++ constructing.named)) (st'.heap.dict e).entries := by
  obtain ⟨st, hst⟩ : ∃ st, st = (stylingItself.toAction.run .initial).2 := ⟨_, rfl⟩
  let calls : List RecordCall := [⟨true, ⟨0⟩, [("record", .dict ⟨1⟩)], by decide⟩,
    ⟨false, ⟨0⟩, [("x", .int 1)], by decide⟩]
  obtain ⟨st', hst'⟩ : ∃ st', st' =
      ((RecordCall.performAll ⟨"record", .record, 0⟩ calls).run st).2 := ⟨_, rfl⟩
  have maps : st.heap.styleMap? ⟨0⟩ = some ⟨0⟩ ∧ st.heap.recordDict? ⟨0⟩ = some ⟨0⟩ := by
    rw [hst]
    decide +kernel
  have defaults : (st.heap.recordDefaults ⟨0⟩).entries = [(.text "record", .dict ⟨0⟩)] := by
    rw [hst]
    decide +kernel
  have answers : ((RecordCall.performAll ⟨"record", .record, 0⟩ calls).run st).1 =
      .ok [.none, .dict ⟨2⟩] := by
    rw [hst]
    decide +kernel
  have made : (st'.heap.dict ⟨2⟩).entries = [(.text "x", .int 1)] := by
    rw [hst', hst]
    decide +kernel
  refine ⟨st, _, _, ⟨2⟩, st', hst, rfl, rfl, maps.1, maps.2, Prod.ext answers hst'.symm, ?_⟩
  intro merged
  have keys := merged.keys
  rw [defaults, made] at keys
  revert keys
  decide

end LexEnv
