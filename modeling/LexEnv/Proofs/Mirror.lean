import LexEnv.Proofs.Closure
import LexEnv.Proofs.Link

/-!
# Reading mirrored heaps

What is read off linked objects of two heaps that mirror each other is the same, up to the link: the
entries of tables, the names of scopes with their slots, what a name resolves to in a stack and what
is visible there.
-/

namespace LexEnv

namespace Link

variable {L : Link}

/-! ## Cells of linked objects -/

namespace Mirrors

variable {h g : Heap} (m : L.Mirrors h g)

include m

theorem slot {s t : SlotId} (linked : L.Slots s t) :
    (h.slot s).kind = (g.slot t).kind ∧ L.Alike (h.slot s).value (g.slot t).value := by
  have cells : L.Cells (.slot (h.slot s)) (.slot (g.slot t)) := m.cells linked
  cases cells with
  | slot kind value => exact ⟨kind, value⟩

theorem scope {c d : ScopeId} (linked : L.Scopes c d) :
    (h.scope c).Textual ∧ L.Tables L.Slots (h.scope c) (g.scope d) := by
  have cells : L.Cells (.scope (h.scope c)) (.scope (g.scope d)) := m.cells linked
  cases cells with
  | scope textual bindings => exact ⟨textual, bindings⟩

theorem stack {s t : StackId} (linked : L (.stack s) (.stack t)) :
    L.Stacks (h.stack s) (g.stack t) := by
  have cells : L.Cells (.stack (h.stack s)) (.stack (g.stack t)) := m.cells linked
  cases cells with
  | stack same => exact same

theorem sequence {c d : SequenceId} (linked : L (.sequence c) (.sequence d)) :
    List.Forall₂ L.Alike (h.sequence c) (g.sequence d) := by
  have cells : L.Cells (.sequence (h.sequence c)) (.sequence (g.sequence d)) := m.cells linked
  cases cells with
  | sequence items => exact items

theorem set {c d : SetId} (linked : L (.set c) (.set d)) : L.Tables Eq (h.set c) (g.set d) := by
  have cells : L.Cells (.set (h.set c)) (.set (g.set d)) := m.cells linked
  cases cells with
  | set elements => exact elements

theorem dict {d e : DictId} (linked : L (.dict d) (.dict e)) :
    L.Tables L.Alike (h.dict d) (g.dict e) := by
  have cells : L.Cells (.dict (h.dict d)) (.dict (g.dict e)) := m.cells linked
  cases cells with
  | dict entries => exact entries

theorem args {a b : ArgumentsId} (linked : L (.arguments a) (.arguments b)) :
    L.Readings (h.args a) (g.args b) := by
  have cells : L.Cells (.arguments (h.args a)) (.arguments (g.args b)) := m.cells linked
  cases cells with
  | arguments readings => exact readings

theorem context {c d : ContextId} (linked : L (.context c) (.context d)) :
    L.Contexts (h.context c) (g.context d) := by
  have cells : L.Cells (.context (h.context c)) (.context (g.context d)) := m.cells linked
  cases cells with
  | context contexts => exact contexts

end Mirrors

/-! ## Tables -/

section

variable {α β : Type} {R : α → β → Prop} {t : Table α} {u : Table β}

theorem Keys.eq_text_iff {k l : Key} (keys : L.Keys k l) (name : String) :
    k = .text name ↔ l = .text name := by
  cases keys with
  | text s => exact Iff.rfl
  | other _ _ => exact ⟨nofun, nofun⟩

theorem Tables.size_eq (tables : L.Tables R t u) : t.size = u.size := tables.length_eq

theorem Tables.keyValues (tables : L.Tables R t u) :
    List.Forall₂ L.Alike t.keyValues u.keyValues :=
  List.forall₂_map_left_iff.mpr <| List.forall₂_map_right_iff.mpr <|
    tables.imp fun _ _ entries => entries.1.value

/-- Under a text stand related things, or nothing in both. -/
theorem find?_entries (name : String) {es : List (Key × α)} {fs : List (Key × β)}
    (entries : List.Forall₂ (L.Entries R) es fs) :
    Option.Rel R (LexEnv.Entries.find? (.text name) es) (LexEnv.Entries.find? (.text name) fs) := by
  induction entries with
  | nil => exact .none
  | @cons e f es fs first _ ih =>
    rw [LexEnv.Entries.find?, LexEnv.Entries.find?]
    by_cases here : e.1 = .text name
    · rw [if_pos here, if_pos ((first.1.eq_text_iff name).mp here)]
      exact .some first.2
    · rw [if_neg here, if_neg fun there => here ((first.1.eq_text_iff name).mpr there)]
      exact ih

theorem put_entries (name : String) {a : α} {b : β} (r : R a b) {es : List (Key × α)}
    {fs : List (Key × β)} (entries : List.Forall₂ (L.Entries R) es fs) :
    List.Forall₂ (L.Entries R) (LexEnv.Entries.put (.text name) a es)
      (LexEnv.Entries.put (.text name) b fs) := by
  induction entries with
  | nil => exact .cons ⟨.text name, r⟩ .nil
  | @cons e f es fs first rest ih =>
    rw [LexEnv.Entries.put, LexEnv.Entries.putBy, LexEnv.Entries.put, LexEnv.Entries.putBy]
    by_cases here : e.1 = .text name
    · rw [if_pos (decide_eq_true here), if_pos (decide_eq_true ((first.1.eq_text_iff name).mp here))]
      exact .cons ⟨first.1, r⟩ rest
    · rw [if_neg (by simpa using here),
        if_neg (by simpa using fun there => here ((first.1.eq_text_iff name).mpr there))]
      exact .cons first ih

theorem Tables.get? (tables : L.Tables R t u) (name : String) :
    Option.Rel R (t.get? name) (u.get? name) := find?_entries name tables

theorem Tables.insert (tables : L.Tables R t u) (name : String) {a : α} {b : β} (r : R a b) :
    L.Tables R (t.insert name a) (u.insert name b) := put_entries name r tables

theorem Tables.insertAll {es : List (String × α)} {fs : List (String × β)}
    (tables : L.Tables R t u) (named : List.Forall₂ (Named R) es fs) :
    L.Tables R (t.insertAll es) (u.insertAll fs) := by
  induction named generalizing t u with
  | nil => exact tables
  | @cons e f es fs first _ ih =>
    obtain ⟨name, a⟩ := e
    obtain ⟨name', b⟩ := f
    obtain ⟨same, r⟩ := first
    cases same
    exact ih (tables.insert name r)

theorem tables_empty : L.Tables R .empty .empty := .nil

/-- The texts of a table are those of a table that is alike. -/
theorem Tables.textEntries {es : List (String × α)} (tables : L.Tables R t u)
    (entries : t.entries = es.map Table.textEntry) :
    ∃ fs, u.entries = fs.map Table.textEntry ∧ List.Forall₂ (Named R) es fs := by
  have both : List.Forall₂ (L.Entries R) (es.map Table.textEntry) u.entries := entries ▸ tables
  generalize u.entries = others at both
  clear tables entries
  induction es generalizing others with
  | nil =>
    cases both
    exact ⟨[], rfl, .nil⟩
  | cons e es ih =>
    obtain ⟨name, a⟩ := e
    cases both with
    | @cons _ f _ others first rest =>
      obtain ⟨fs, rfl, named⟩ := ih others rest
      obtain ⟨l, b⟩ := f
      cases first.1 with
      | text s => exact ⟨(name, b) :: fs, rfl, .cons ⟨rfl, first.2⟩ named⟩

theorem Tables.textual (tables : L.Tables R t u) (textual : t.Textual) : u.Textual := by
  obtain ⟨es, entries⟩ := textual
  obtain ⟨fs, entries', _⟩ := tables.textEntries entries
  exact ⟨fs, entries'⟩

end

/-! ## Changing and adding objects -/

section

variable {h g h' g' : Heap} {o p : Object} (m : L.Mirrors h g)

include m

theorem Mirrors.changed (linked : L o p) (change : h.Changes o h') (change' : g.Changes p g')
    (cells : L.Cells (h'.cell o) (g'.cell p)) : L.Mirrors h' g' := by
  refine ⟨fun {x y} xy => ⟨(change.has x).mpr (m.exist xy).1, (change'.has y).mpr (m.exist xy).2⟩,
    m.functional, m.injective, fun {x y} xy => ?_⟩
  by_cases here : x = o
  · subst here
    rw [m.functional xy linked]
    exact cells
  · have there : y ≠ p := fun same => here (m.injective xy (same ▸ linked))
    rw [change.cell x here, change'.cell y there]
    exact m.cells xy

/-- A link stays one-to-one with a pair of new objects. -/
theorem Mirrors.added (add : h.Adds o h') (add' : g.Adds p g')
    (cells : (L.add o p).Cells (h'.cell o) (g'.cell p)) : (L.add o p).Mirrors h' g' := by
  -- What was linked existed before, so neither of the new objects was.
  have here : ∀ {x y}, L x y → x ≠ o := fun xy same => add.new (same ▸ (m.exist xy).1)
  have there : ∀ {x y}, L x y → y ≠ p := fun xy same => add'.new (same ▸ (m.exist xy).2)
  refine ⟨fun {x y} => ?_, fun {x y z} => ?_, fun {x y z} => ?_, fun {x y} => ?_⟩
  · rintro (xy | ⟨rfl, rfl⟩)
    · exact ⟨(add.has x).mpr (.inl (m.exist xy).1), (add'.has y).mpr (.inl (m.exist xy).2)⟩
    · exact ⟨(add.has x).mpr (.inr rfl), (add'.has y).mpr (.inr rfl)⟩
  · rintro (xy | ⟨same, rfl⟩) (xz | ⟨same', rfl⟩)
    · exact m.functional xy xz
    · exact absurd same' (here xy)
    · exact absurd same (here xz)
    · rfl
  · rintro (xz | ⟨rfl, same⟩) (yz | ⟨rfl, same'⟩)
    · exact m.injective xz yz
    · exact absurd same' (there xz)
    · exact absurd same (there yz)
    · rfl
  · rintro (xy | ⟨rfl, rfl⟩)
    · rw [add.cell x (here xy), add'.cell y (there xy)]
      exact (m.cells xy).mono (L.le_add o p)
    · exact cells

end

/-! ## The linked part of each heap -/

section

variable {h g : Heap} (m : L.Mirrors h g)

include m

/-- The objects that stand for something are closed in their heap. -/
theorem Mirrors.source : (on L.source).Mirrors h h := by
  refine mirrors_on (fun o ⟨p, linked⟩ => (m.exist linked).1)
    (fun o ⟨p, linked⟩ => (m.cells linked).spans.1) fun c ⟨p, linked⟩ => ?_
  have cells : L.Cells (.scope (h.scope c)) (g.cell p) := m.cells linked
  generalize g.cell p = y at cells
  cases cells with
  | scope textual bindings => exact textual

/-- The objects that something stands for are closed in their heap. -/
theorem Mirrors.target : (on L.target).Mirrors g g := by
  refine mirrors_on (fun p ⟨o, linked⟩ => (m.exist linked).2)
    (fun p ⟨o, linked⟩ => (m.cells linked).spans.2) fun d ⟨o, linked⟩ => ?_
  have cells : L.Cells (h.cell o) (.scope (g.scope d)) := m.cells linked
  generalize h.cell o = x at cells
  cases cells with
  | scope textual bindings => exact bindings.textual textual

end

/-! ## Tables in ascending order -/

section

variable {α β : Type} {R : α → β → Prop} {t : Table α} {u : Table β}


theorem named_place {es : List (String × α)} {fs : List (String × β)} (name : String) {a : α} {b : β}
    (r : R a b) (named : List.Forall₂ (Named R) es fs) :
    List.Forall₂ (Named R) (NameMap.place name a es) (NameMap.place name b fs) := by
  induction named with
  | nil => exact .cons ⟨rfl, r⟩ .nil
  | @cons e f es fs first rest ih =>
    obtain ⟨n, a'⟩ := e
    obtain ⟨n', b'⟩ := f
    obtain ⟨same, r'⟩ := first
    cases same
    rw [NameMap.place, NameMap.place]
    split
    · exact .cons ⟨rfl, r⟩ (.cons ⟨rfl, r'⟩ rest)
    · split
      · exact .cons ⟨rfl, r⟩ rest
      · exact .cons ⟨rfl, r'⟩ ih

theorem named_ofList {es : List (String × α)} {fs : List (String × β)}
    (named : List.Forall₂ (Named R) es fs) :
    List.Forall₂ (Named R) (NameMap.ofList es).entries (NameMap.ofList fs).entries := by
  have start : List.Forall₂ (Named R) (NameMap.empty : NameMap α).entries
      (NameMap.empty : NameMap β).entries := .nil
  unfold NameMap.ofList
  generalize (NameMap.empty : NameMap α) = x at start
  generalize (NameMap.empty : NameMap β) = y at start
  induction named generalizing x y with
  | nil => exact start
  | @cons e f es fs first _ ih =>
    obtain ⟨n, a⟩ := e
    obtain ⟨n', b⟩ := f
    obtain ⟨same, r⟩ := first
    cases same
    exact ih _ _ (named_place n r start)

/-- Tables with texts only are listed under the same texts. -/
theorem Tables.ascending (tables : L.Tables R t u) (textual : t.Textual)
    (less less' : Value → Value → Except Error Bool) :
    ∃ es fs, t.ascending less = .ok (es.map fun e => (.text e.1, e.2)) ∧
      u.ascending less' = .ok (fs.map fun e => (.text e.1, e.2)) ∧
      List.Forall₂ (Named R) es fs := by
  obtain ⟨es, entries⟩ := textual
  obtain ⟨fs, entries', named⟩ := tables.textEntries entries
  refine ⟨(NameMap.ofList es).entries, (NameMap.ofList fs).entries, ?_, ?_, named_ofList named⟩
  · rw [Table.ascending, Table.texts?_of_entries entries]
  · rw [Table.ascending, Table.texts?_of_entries entries']

end

end Link

/-! ## What is visible -/

namespace Heap

/-- A binding with others put over it that do not hide it. -/
def unhidden (seen : Scope) (e : String × SlotId) : Scope :=
  match seen.get? e.1 with
  | some _ => seen
  | none => seen.insert e.1 e.2

/-- The bindings of a scope that some bindings do not hide, put to them. -/
def revealed (h : Heap) (seen : Scope) (c : ScopeId) : Except Error Scope := do
  (← h.enumerate (h.scope c)).foldlM (fun seen e => do
    let key ← h.key e.1
    match ← h.find? key seen with
    | some _ => return seen
    | none => h.put key e.2 seen) seen

theorem visible_eq (h : Heap) (chain : List ScopeId) :
    h.visible chain = chain.foldlM h.revealed .empty >>= h.enumerate := rfl

theorem revealed_text {h : Heap} {c : ScopeId} {es : List (String × SlotId)}
    (listed : h.enumerate (h.scope c) = .ok (es.map fun e => (.text e.1, e.2))) (seen : Scope) :
    h.revealed seen c = .ok (es.foldl unhidden seen) := by
  rw [revealed, listed]
  show (es.map fun e => (Value.text e.1, e.2)).foldlM _ seen = _
  clear listed
  induction es generalizing seen with
  | nil => rfl
  | cons e es ih =>
    rw [List.map_cons, List.foldlM_cons, List.foldl_cons, ← ih]
    show (h.find? (.text e.1) seen >>= _) >>= _ = _
    rw [find?_text, unhidden]
    cases seen.get? e.1 with
    | some t => rfl
    | none =>
      show (h.put (.text e.1) e.2 seen >>= _) = _
      rw [put_text]
      rfl

theorem textual_unhidden {seen : Scope} (textual : seen.Textual) (e : String × SlotId) :
    (unhidden seen e).Textual := by
  unfold unhidden
  cases seen.get? e.1 with
  | some t => exact textual
  | none => exact textual.insert e.1 e.2

theorem textual_foldl_unhidden {seen : Scope} (textual : seen.Textual)
    (es : List (String × SlotId)) : (es.foldl unhidden seen).Textual :=
  List.foldlRecOn es _ textual fun _ textual e _ => textual_unhidden textual e

end Heap

/-! ## Names of a stack -/

namespace Link

variable {L : Link}

theorem Tables.unhidden {x y : Scope} (tables : L.Tables L.Slots x y) {e f : String × SlotId}
    (named : Named L.Slots e f) : L.Tables L.Slots (Heap.unhidden x e) (Heap.unhidden y f) := by
  obtain ⟨name, s⟩ := e
  obtain ⟨name', t⟩ := f
  obtain ⟨same, slots⟩ := named
  cases same
  unfold Heap.unhidden
  rcases optionRel_cases (tables.get? name) with ⟨hx, hy⟩ | ⟨s', t', hx, hy, -⟩
  · simp only [hx, hy]
    exact tables.insert name slots
  · simp only [hx, hy]
    exact tables

namespace Mirrors

variable {h g : Heap} (m : L.Mirrors h g)

include m

/-- The scopes of look-ups stand for each other. -/
theorem chain {s t : StackId} (linked : L (.stack s) (.stack t)) :
    List.Forall₂ L.Scopes (h.stack s).chain (g.stack t).chain := by
  have same := m.stack linked
  exact .cons same.active (List.rel_append same.suspended (optionRel_toList same.base))

/-- A name resolves to slots that stand for each other, or in neither heap. -/
theorem resolved {s t : StackId} (linked : L (.stack s) (.stack t)) (name : String) :
    Option.Rel L.Slots (h.resolved s name) (g.resolved t name) := by
  have chain := m.chain linked
  unfold Heap.resolved
  generalize (h.stack s).chain = cs at chain
  generalize (g.stack t).chain = ds at chain
  induction chain with
  | nil => exact .none
  | @cons c d cs ds first _ ih =>
    rw [List.findSome?_cons, List.findSome?_cons]
    rcases optionRel_cases ((m.scope first).2.get? name) with ⟨hc, hd⟩ | ⟨s, t, hc, hd, slots⟩
    · rw [hc, hd]
      exact ih
    · rw [hc, hd]
      exact .some slots

/-- Closures over the same names bind slots that stand for each other. -/
theorem closure {s t : StackId} (linked : L (.stack s) (.stack t)) (names : List String) :
    L.Tables L.Slots (h.closure s names) (g.closure t names) := by
  have start : L.Tables L.Slots (.empty : Scope) (.empty : Scope) := tables_empty
  unfold Heap.closure
  refine List.rel_foldl (R := Eq) (P := L.Tables L.Slots) ?_ start (List.forall₂_eq_eq_eq ▸ rfl)
  intro x y tables name _ same
  subst same
  rcases optionRel_cases (m.resolved linked name) with ⟨hs, ht⟩ | ⟨s', t', hs, ht, slots⟩
  · simp only [hs, ht]
    exact tables
  · simp only [hs, ht]
    exact tables.insert name slots

/-- Linked scopes list the same names, with slots that stand for each other. -/
theorem enumerate {c d : ScopeId} (linked : L.Scopes c d) :
    ∃ es fs, h.enumerate (h.scope c) = .ok (es.map fun e => (.text e.1, e.2)) ∧
      g.enumerate (g.scope d) = .ok (fs.map fun e => (.text e.1, e.2)) ∧
      List.Forall₂ (Named L.Slots) es fs :=
  (m.scope linked).2.ascending (m.scope linked).1 h.less g.less

theorem revealed {cs ds : List ScopeId} (chain : List.Forall₂ L.Scopes cs ds) {x y : Scope}
    (tables : L.Tables L.Slots x y) (textual : x.Textual) :
    ∃ x' y', cs.foldlM h.revealed x = .ok x' ∧ ds.foldlM g.revealed y = .ok y' ∧
      L.Tables L.Slots x' y' ∧ x'.Textual := by
  induction chain generalizing x y with
  | nil => exact ⟨x, y, rfl, rfl, tables, textual⟩
  | @cons c d cs ds first _ ih =>
    obtain ⟨es, fs, hes, hfs, named⟩ := m.enumerate first
    have next : L.Tables L.Slots (es.foldl Heap.unhidden x) (fs.foldl Heap.unhidden y) :=
      List.rel_foldl (fun _ _ tables _ _ named => tables.unhidden named) tables named
    rw [List.foldlM_cons, List.foldlM_cons, Heap.revealed_text hes, Heap.revealed_text hfs]
    exact ih next (Heap.textual_foldl_unhidden textual es)

/-- The same names are visible, with slots that stand for each other. -/
theorem visible {s t : StackId} (linked : L (.stack s) (.stack t)) :
    ∃ es fs, h.visible (h.stack s).chain = .ok (es.map fun e => (.text e.1, e.2)) ∧
      g.visible (g.stack t).chain = .ok (fs.map fun e => (.text e.1, e.2)) ∧
      List.Forall₂ (Named L.Slots) es fs := by
  obtain ⟨x, y, hx, hy, tables, textual⟩ :=
    m.revealed (m.chain linked) tables_empty Table.textual_empty
  rw [Heap.visible_eq, Heap.visible_eq, hx, hy]
  exact tables.ascending textual h.less g.less

/-! ## Types, sizes and truth -/

variable {v w : Value} (alike : L.Alike v w)

include alike

theorem typeName : h.typeName v = g.typeName w := by
  cases alike with
  | slot linked => exact congrArg SlotKind.typeName (m.slot linked).1
  | _ => rfl

theorem scriptType : h.scriptType v = g.scriptType w := by
  cases alike with
  | slot linked => exact m.typeName (.slot linked)
  | sequence kind linked => cases kind <;> rfl
  | _ => rfl

theorem size? : h.size? v = g.size? w := by
  cases alike with
  | sequence kind linked => exact congrArg some (m.sequence linked).length_eq
  | set kind linked => exact congrArg some (m.set linked).size_eq
  | dict linked => exact congrArg some (m.dict linked).size_eq
  | scope linked => exact congrArg some (m.scope linked).2.size_eq
  | _ => rfl

theorem scriptSize? : h.scriptSize? v = g.scriptSize? w := by
  cases alike with
  | text s => rfl
  | sequence kind linked =>
    cases kind with
    | list => exact m.size? (.sequence .list linked)
    | tuple => rfl
  | dict linked => exact m.size? (.dict linked)
  | _ => rfl

theorem truth : h.truth v = g.truth w := by
  have size := m.size? alike
  cases alike with
  | none => rfl
  | bool b => rfl
  | int n => rfl
  | float x serials => rfl
  | _ => exact congrArg (· != some 0) size

end Mirrors

end Link

end LexEnv
