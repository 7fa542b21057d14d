import LexEnv.Ascending
import LexEnv.Proofs.Object
import LexEnv.Proofs.Parallel

/-!
# Links between heaps

A link says which objects of one heap stand for which objects of another. Along a link, values are
alike when they are of one kind, equal as far as they have no identity, and refer to objects that
stand for each other (`Link.Alike`); tables are alike entry by entry, and cells part by part.

One heap mirrors another along a link when the link is one-to-one and objects that stand for each
other hold the same (`Link.Mirrors`). What can be seen from an object of the one heap is then what can
be seen from its counterpart in the other one, however large the heaps are otherwise.
-/

namespace LexEnv

/-- The value that an error carries. -/
def Error.value? : Error → Option Value
  | .constantWrite v => some v
  | .eval (.given v) => some v
  | _ => none

/-- Which objects of a heap stand for which objects of another one. -/
def Link : Type := Object → Object → Prop

namespace Link

/-- A link with more objects. -/
instance : LE Link := ⟨fun L M => ∀ o p, L o p → M o p⟩

/-- The link of some objects with themselves. -/
def on (T : Object → Prop) : Link := fun o p => o = p ∧ T o

/-- A link with one more pair. -/
def add (L : Link) (o p : Object) : Link := fun x y => L x y ∨ x = o ∧ y = p

theorem le_add (L : Link) (o p : Object) : L ≤ L.add o p := fun _ _ => Or.inl

theorem add_self (L : Link) (o p : Object) : L.add o p o p := Or.inr ⟨rfl, rfl⟩

/-! ## Values and tables -/

/-- Slots that stand for each other. -/
def Slots (L : Link) (s t : SlotId) : Prop := L (.slot s) (.slot t)

/-- Scopes that stand for each other. -/
def Scopes (L : Link) (c d : ScopeId) : Prop := L (.scope c) (.scope d)

/-- Serial numbers that stand for each other. The one that identifies nothing stands for itself. -/
def Serials (L : Link) (m n : Nat) : Prop := m = 0 ∧ n = 0 ∨ L (.serial m) (.serial n)

/-- Values that are the same but for the objects that they refer to, which stand for each other. -/
inductive Alike (L : Link) : Value → Value → Prop where
  | none : Alike L .none .none
  | bool (b : Bool) : Alike L (.bool b) (.bool b)
  | int (n : Int) : Alike L (.int n) (.int n)
  | float (x : Number.Binary64) {m n : Nat} (serials : L.Serials m n) :
    Alike L (.float x m) (.float x n)
  | text (s : String) : Alike L (.text s) (.text s)
  | bytes (b : List UInt8) : Alike L (.bytes b) (.bytes b)
  | sequence (kind : SequenceKind) {c d : SequenceId} (linked : L (.sequence c) (.sequence d)) :
    Alike L (.sequence kind c) (.sequence kind d)
  | set (kind : SetKind) {c d : SetId} (linked : L (.set c) (.set d)) :
    Alike L (.set kind c) (.set kind d)
  | dict {d e : DictId} (linked : L (.dict d) (.dict e)) : Alike L (.dict d) (.dict e)
  | func (name : String) (native : Native) {m n : Nat} (serials : L.Serials m n) :
    Alike L (.func ⟨name, native, m⟩) (.func ⟨name, native, n⟩)
  | cls (name : String) (template : Template) {m n : Nat} (serials : L.Serials m n) :
    Alike L (.cls ⟨name, template, m⟩) (.cls ⟨name, template, n⟩)
  | slot {s t : SlotId} (linked : L.Slots s t) : Alike L (.slot s) (.slot t)
  | scope {c d : ScopeId} (linked : L.Scopes c d) : Alike L (.scope c) (.scope d)
  | stack {s t : StackId} (linked : L (.stack s) (.stack t)) : Alike L (.stack s) (.stack t)
  | arguments {a b : ArgumentsId} (linked : L (.arguments a) (.arguments b)) :
    Alike L (.arguments a) (.arguments b)
  | context {c d : ContextId} (linked : L (.context c) (.context d)) :
    Alike L (.context c) (.context d)

/-- Keys that are alike; they were stored with the same hash. -/
inductive Keys (L : Link) : Key → Key → Prop where
  | text (s : String) : Keys L (.text s) (.text s)
  | other {v w : Value} (alike : L.Alike v w) (hash : HashCode) :
    Keys L (.other v hash) (.other w hash)

section

variable {α β : Type}

/-- Entries under alike keys with related contents. -/
def Entries (L : Link) (R : α → β → Prop) (e : Key × α) (f : Key × β) : Prop :=
  L.Keys e.1 f.1 ∧ R e.2 f.2

/-- Tables with alike keys and related contents, in the same order. -/
def Tables (L : Link) (R : α → β → Prop) (t : Table α) (u : Table β) : Prop :=
  List.Forall₂ (L.Entries R) t.entries u.entries

/-- Named things that are related, under the same names. -/
def Named (R : α → β → Prop) (e : String × α) (f : String × β) : Prop := e.1 = f.1 ∧ R e.2 f.2

end

/-! ## Cells -/

/-- Stacks of scopes that stand for each other, with the same limits. -/
structure Stacks (L : Link) (x y : Stack) : Prop where
  active : L.Scopes x.active y.active
  suspended : List.Forall₂ L.Scopes x.suspended y.suspended
  base : Option.Rel L.Scopes x.base y.base
  maxDepth : x.maxDepth = y.maxDepth
  memoryLimit : x.memoryLimit = y.memoryLimit

/-- Arguments that are alike. -/
structure Readings (L : Link) (x y : Arguments) : Prop where
  positional : List.Forall₂ L.Alike x.positional y.positional
  named : List.Forall₂ (Named L.Alike) x.named y.named

/-- Contexts whose stacks stand for each other and whose styles and outputs are alike. -/
structure Contexts (L : Link) (x y : Context) : Prop where
  stack : L (.stack x.stack) (.stack y.stack)
  styles : L.Alike x.styles y.styles
  output : L.Alike x.output y.output

/-- Cells that hold the same. The names in a scope are texts. -/
inductive Cells (L : Link) : Cell → Cell → Prop where
  | slot {x y : Slot} (kind : x.kind = y.kind) (value : L.Alike x.value y.value) :
    Cells L (.slot x) (.slot y)
  | scope {x y : Scope} (textual : x.Textual) (bindings : L.Tables L.Slots x y) :
    Cells L (.scope x) (.scope y)
  | stack {x y : Stack} (same : L.Stacks x y) : Cells L (.stack x) (.stack y)
  | sequence {vs ws : List Value} (items : List.Forall₂ L.Alike vs ws) :
    Cells L (.sequence vs) (.sequence ws)
  | set {x y : Table Unit} (elements : L.Tables Eq x y) : Cells L (.set x) (.set y)
  | dict {x y : Table Value} (entries : L.Tables L.Alike x y) : Cells L (.dict x) (.dict y)
  | arguments {x y : Arguments} (readings : L.Readings x y) : Cells L (.arguments x) (.arguments y)
  | context {x y : Context} (contexts : L.Contexts x y) : Cells L (.context x) (.context y)
  | serial : Cells L .serial .serial

/-- Errors that are the same but for the value that they carry. -/
inductive Errors (L : Link) : Error → Error → Prop where
  | plain {e : Error} (none : e.value? = none) : Errors L e e
  | constantWrite {v w : Value} (alike : L.Alike v w) :
    Errors L (.constantWrite v) (.constantWrite w)
  | given {v w : Value} (alike : L.Alike v w) : Errors L (.eval (.given v)) (.eval (.given w))

/-- Outcomes that are both results and related, or both errors and the same. -/
inductive Outcomes (L : Link) {α β : Type} (R : α → β → Prop) :
    Except Error α → Except Error β → Prop where
  | ok {a : α} {b : β} (related : R a b) : Outcomes L R (.ok a) (.ok b)
  | error {e f : Error} (errors : L.Errors e f) : Outcomes L R (.error e) (.error f)

/-- A heap mirrors another along a link: the link is one-to-one, and linked objects exist and hold
the same. -/
structure Mirrors (L : Link) (h g : Heap) : Prop where
  exist : ∀ {o p}, L o p → h.Has o ∧ g.Has p
  functional : ∀ {o p q}, L o p → L o q → p = q
  injective : ∀ {o p q}, L o q → L p q → o = p
  cells : ∀ {o p}, L o p → L.Cells (h.cell o) (g.cell p)

theorem Outcomes.imp {L : Link} {α β : Type} {R S : α → β → Prop} {r : Except Error α}
    {r' : Except Error β} (outcomes : L.Outcomes R r r') (imp : ∀ a b, R a b → S a b) :
    L.Outcomes S r r' := by
  cases outcomes with
  | ok related => exact .ok (imp _ _ related)
  | error errors => exact .error errors

/-! ## Longer links -/

section

variable {L M : Link} {α β : Type}

theorem Serials.mono {m n : Nat} (serials : L.Serials m n) (le : L ≤ M) : M.Serials m n :=
  serials.imp_right (le _ _)

theorem Alike.mono {v w : Value} (alike : L.Alike v w) (le : L ≤ M) : M.Alike v w := by
  cases alike with
  | none => exact .none
  | bool b => exact .bool b
  | int n => exact .int n
  | float x serials => exact .float x (serials.mono le)
  | text s => exact .text s
  | bytes b => exact .bytes b
  | sequence kind linked => exact .sequence kind (le _ _ linked)
  | set kind linked => exact .set kind (le _ _ linked)
  | dict linked => exact .dict (le _ _ linked)
  | func name native serials => exact .func name native (serials.mono le)
  | cls name template serials => exact .cls name template (serials.mono le)
  | slot linked => exact .slot (le _ _ linked)
  | scope linked => exact .scope (le _ _ linked)
  | stack linked => exact .stack (le _ _ linked)
  | arguments linked => exact .arguments (le _ _ linked)
  | context linked => exact .context (le _ _ linked)

theorem Keys.mono {k l : Key} (keys : L.Keys k l) (le : L ≤ M) : M.Keys k l := by
  cases keys with
  | text s => exact .text s
  | other alike hash => exact .other (alike.mono le) hash

theorem Tables.mono {R S : α → β → Prop} {t : Table α} {u : Table β} (tables : L.Tables R t u)
    (le : L ≤ M) (imp : ∀ a b, R a b → S a b) : M.Tables S t u :=
  tables.imp fun _ _ entries => ⟨entries.1.mono le, imp _ _ entries.2⟩

theorem Named.imp {R S : α → β → Prop} {e : String × α} {f : String × β} (named : Named R e f)
    (imp : ∀ a b, R a b → S a b) : Named S e f := ⟨named.1, imp _ _ named.2⟩

theorem Stacks.mono {x y : Stack} (same : L.Stacks x y) (le : L ≤ M) : M.Stacks x y where
  active := le _ _ same.active
  suspended := same.suspended.imp fun _ _ => le _ _
  base := optionRel_imp same.base fun _ _ => le _ _
  maxDepth := same.maxDepth
  memoryLimit := same.memoryLimit

theorem Readings.mono {x y : Arguments} (readings : L.Readings x y) (le : L ≤ M) :
    M.Readings x y where
  positional := readings.positional.imp fun _ _ alike => alike.mono le
  named := readings.named.imp fun _ _ named => named.imp fun _ _ alike => alike.mono le

theorem Contexts.mono {x y : Context} (contexts : L.Contexts x y) (le : L ≤ M) :
    M.Contexts x y where
  stack := le _ _ contexts.stack
  styles := contexts.styles.mono le
  output := contexts.output.mono le

theorem Cells.mono {x y : Cell} (cells : L.Cells x y) (le : L ≤ M) : M.Cells x y := by
  cases cells with
  | slot kind value => exact .slot kind (value.mono le)
  | scope textual bindings => exact .scope textual (bindings.mono le fun _ _ => le _ _)
  | stack same => exact .stack (same.mono le)
  | sequence items => exact .sequence (items.imp fun _ _ alike => alike.mono le)
  | set elements => exact .set (elements.mono le fun _ _ => id)
  | dict entries => exact .dict (entries.mono le fun _ _ alike => alike.mono le)
  | arguments readings => exact .arguments (readings.mono le)
  | context contexts => exact .context (contexts.mono le)
  | serial => exact .serial

theorem Errors.mono {e f : Error} (errors : L.Errors e f) (le : L ≤ M) : M.Errors e f := by
  cases errors with
  | plain none => exact .plain none
  | constantWrite alike => exact .constantWrite (alike.mono le)
  | given alike => exact .given (alike.mono le)

theorem Outcomes.mono {R S : α → β → Prop} {r : Except Error α} {r' : Except Error β}
    (outcomes : L.Outcomes R r r') (le : L ≤ M) (imp : ∀ a b, R a b → S a b) :
    M.Outcomes S r r' := by
  cases outcomes with
  | ok related => exact .ok (imp _ _ related)
  | error errors => exact .error (errors.mono le)

end

/-! ## Objects linked with themselves -/

section

variable {T : Object → Prop}

theorem on_self {o : Object} (inside : T o) : on T o o := ⟨rfl, inside⟩

theorem serials_on {n : Nat} (inside : ∀ o ∈ Object.ofSerial n, T o) : (on T).Serials n n := by
  by_cases zero : n = 0
  · exact .inl ⟨zero, zero⟩
  · exact .inr (on_self (inside _ (by simp [Object.ofSerial, zero])))

theorem alike_on {v : Value} (inside : ∀ o ∈ v.objects, T o) : (on T).Alike v v := by
  cases v with
  | none => exact .none
  | bool b => exact .bool b
  | int n => exact .int n
  | float x n => exact .float x (serials_on inside)
  | text s => exact .text s
  | bytes b => exact .bytes b
  | func f => exact .func f.name f.native (serials_on inside)
  | cls c => exact .cls c.name c.template (serials_on inside)
  | sequence kind c => exact .sequence kind (on_self (inside _ List.mem_cons_self))
  | set kind c => exact .set kind (on_self (inside _ List.mem_cons_self))
  | dict d => exact .dict (on_self (inside _ List.mem_cons_self))
  | slot s => exact .slot (on_self (inside _ List.mem_cons_self))
  | scope c => exact .scope (on_self (inside _ List.mem_cons_self))
  | stack s => exact .stack (on_self (inside _ List.mem_cons_self))
  | arguments a => exact .arguments (on_self (inside _ List.mem_cons_self))
  | context c => exact .context (on_self (inside _ List.mem_cons_self))

theorem keys_on {k : Key} (inside : ∀ o ∈ k.value.objects, T o) : (on T).Keys k k := by
  cases k with
  | text s => exact .text s
  | other v hash => exact .other (alike_on inside) hash

theorem tables_on {α : Type} {R : α → α → Prop} {t : Table α}
    (inside : ∀ e ∈ t.entries, (∀ o ∈ e.1.value.objects, T o) ∧ R e.2 e.2) :
    (on T).Tables R t t :=
  List.forall₂_same.mpr fun e mem => ⟨keys_on (inside e mem).1, (inside e mem).2⟩

/-- What refers to some objects only is the same as itself along their link. -/
theorem cells_on {x : Cell} (inside : ∀ o ∈ x.parts, T o)
    (textual : ∀ bindings, x = .scope bindings → bindings.Textual) : (on T).Cells x x := by
  cases x with
  | slot x => exact .slot rfl (alike_on inside)
  | scope x =>
    refine .scope (textual x rfl) (tables_on fun e mem => ⟨fun o ho => ?_, on_self ?_⟩)
    · exact inside o (List.mem_flatMap.mpr ⟨e, mem, List.mem_cons_of_mem _ ho⟩)
    · exact inside _ (List.mem_flatMap.mpr ⟨e, mem, List.mem_cons_self⟩)
  | stack x =>
    have scope : ∀ c ∈ x.active :: x.suspended ++ x.base.toList, T (.scope c) := fun c mem =>
      inside _ (List.mem_map_of_mem mem)
    refine .stack ⟨on_self (scope _ (by simp)), ?_, ?_, rfl, rfl⟩
    · exact List.forall₂_same.mpr fun c mem => on_self (scope c (by simp [mem]))
    · cases hb : x.base with
      | none => exact .none
      | some b => exact .some (on_self (scope b (by simp [hb])))
  | sequence items =>
    exact .sequence (List.forall₂_same.mpr fun v mem =>
      alike_on fun o ho => inside o (List.mem_flatMap.mpr ⟨v, mem, ho⟩))
  | set x =>
    exact .set (tables_on fun e mem =>
      ⟨fun o ho => inside o (List.mem_flatMap.mpr ⟨e, mem, ho⟩), rfl⟩)
  | dict x =>
    refine .dict (tables_on fun e mem => ⟨fun o ho => ?_, alike_on fun o ho => ?_⟩)
    · exact inside o (List.mem_flatMap.mpr ⟨e, mem, List.mem_append_left _ ho⟩)
    · exact inside o (List.mem_flatMap.mpr ⟨e, mem, List.mem_append_right _ ho⟩)
  | arguments x =>
    refine .arguments ⟨List.forall₂_same.mpr fun v mem => alike_on fun o ho => ?_,
      List.forall₂_same.mpr fun e mem => ⟨rfl, alike_on fun o ho => ?_⟩⟩
    · exact inside o (List.mem_append_left _ (List.mem_flatMap.mpr ⟨v, mem, ho⟩))
    · exact inside o (List.mem_append_right _ (List.mem_flatMap.mpr ⟨e, mem, ho⟩))
  | context x =>
    refine .context ⟨on_self (inside _ List.mem_cons_self), alike_on fun o ho => ?_,
      alike_on fun o ho => ?_⟩
    · exact inside o (List.mem_cons_of_mem _ (List.mem_append_left _ ho))
    · exact inside o (List.mem_cons_of_mem _ (List.mem_append_right _ ho))
  | serial => exact .serial

/-- A heap mirrors itself along the link of objects that exist, refer to each other only, and whose
scopes bind texts. -/
theorem mirrors_on {h : Heap} (exist : ∀ o, T o → h.Has o)
    (closed : ∀ o, T o → ∀ p ∈ (h.cell o).parts, T p)
    (textual : ∀ c, T (.scope c) → (h.scope c).Textual) : (on T).Mirrors h h where
  exist := fun {o p} linked => by
    obtain ⟨rfl, inside⟩ := linked
    exact ⟨exist o inside, exist o inside⟩
  functional linked linked' := linked.1.symm.trans linked'.1
  injective linked linked' := linked.1.trans linked'.1.symm
  cells := fun {o p} linked => by
    obtain ⟨rfl, inside⟩ := linked
    refine cells_on (closed o inside) fun bindings held => ?_
    cases o with
    | scope c =>
      cases held
      exact textual c inside
    | _ => cases held

end

/-! ## The linked objects of each heap -/

section

variable {L : Link}

/-- All of some objects stand for something, and something stands for all of some others. -/
def Spans (L : Link) (os ps : List Object) : Prop :=
  (∀ o ∈ os, ∃ p, L o p) ∧ ∀ p ∈ ps, ∃ o, L o p

theorem spans_nil : L.Spans [] [] := ⟨nofun, nofun⟩

theorem spans_cons {o p : Object} (linked : L o p) {os ps : List Object} (spans : L.Spans os ps) :
    L.Spans (o :: os) (p :: ps) :=
  ⟨List.forall_mem_cons.mpr ⟨⟨p, linked⟩, spans.1⟩, List.forall_mem_cons.mpr ⟨⟨o, linked⟩, spans.2⟩⟩

theorem spans_one {o p : Object} (linked : L o p) : L.Spans [o] [p] := spans_cons linked spans_nil

theorem Spans.append {os ps os' ps' : List Object} (first : L.Spans os ps)
    (second : L.Spans os' ps') : L.Spans (os ++ os') (ps ++ ps') :=
  ⟨List.forall_mem_append.mpr ⟨first.1, second.1⟩, List.forall_mem_append.mpr ⟨first.2, second.2⟩⟩

theorem spans_flatMap {α β : Type} {f : α → List Object} {f' : β → List Object} {as : List α}
    {bs : List β} (all : List.Forall₂ (fun a b => L.Spans (f a) (f' b)) as bs) :
    L.Spans (as.flatMap f) (bs.flatMap f') := by
  induction all with
  | nil => exact spans_nil
  | cons first _ ih => exact first.append ih

theorem Serials.spans {m n : Nat} (serials : L.Serials m n) :
    L.Spans (Object.ofSerial m) (Object.ofSerial n) := by
  constructor
  · intro o mem
    unfold Object.ofSerial at mem
    split at mem
    · cases mem
    · next ne =>
      rw [List.mem_singleton.mp mem]
      exact ⟨_, serials.resolve_left fun zero => ne zero.1⟩
  · intro p mem
    unfold Object.ofSerial at mem
    split at mem
    · cases mem
    · next ne =>
      rw [List.mem_singleton.mp mem]
      exact ⟨_, serials.resolve_left fun zero => ne zero.2⟩

theorem Alike.spans {v w : Value} (alike : L.Alike v w) : L.Spans v.objects w.objects := by
  cases alike with
  | none => exact spans_nil
  | bool b => exact spans_nil
  | int n => exact spans_nil
  | float x serials => exact serials.spans
  | text s => exact spans_nil
  | bytes b => exact spans_nil
  | func name native serials => exact serials.spans
  | cls name template serials => exact serials.spans
  | sequence kind linked => exact spans_one linked
  | set kind linked => exact spans_one linked
  | dict linked => exact spans_one linked
  | slot linked => exact spans_one linked
  | scope linked => exact spans_one linked
  | stack linked => exact spans_one linked
  | arguments linked => exact spans_one linked
  | context linked => exact spans_one linked

theorem Keys.value {k l : Key} (keys : L.Keys k l) : L.Alike k.value l.value := by
  cases keys with
  | text s => exact .text s
  | other alike _ => exact alike

theorem spans_scopes {cs ds : List ScopeId} (scopes : List.Forall₂ L.Scopes cs ds) :
    L.Spans (cs.map .scope) (ds.map .scope) := by
  induction scopes with
  | nil => exact spans_nil
  | cons first _ ih => exact spans_cons first ih

/-- The parts of cells that hold the same are linked. -/
theorem Cells.spans {x y : Cell} (cells : L.Cells x y) : L.Spans x.parts y.parts := by
  cases cells with
  | slot kind value => exact value.spans
  | scope textual bindings =>
    exact spans_flatMap (bindings.imp fun e f entries => spans_cons entries.2 entries.1.value.spans)
  | stack same =>
    exact spans_scopes (.cons same.active
      (List.rel_append same.suspended (optionRel_toList same.base)))
  | sequence items => exact spans_flatMap (items.imp fun v w alike => alike.spans)
  | set elements => exact spans_flatMap (elements.imp fun e f entries => entries.1.value.spans)
  | dict entries =>
    exact spans_flatMap (entries.imp fun e f entry => entry.1.value.spans.append entry.2.spans)
  | arguments readings =>
    exact (spans_flatMap (readings.positional.imp fun v w alike => alike.spans)).append
      (spans_flatMap (readings.named.imp fun e f named => named.2.spans))
  | context contexts =>
    exact spans_cons contexts.stack (contexts.styles.spans.append contexts.output.spans)
  | serial => exact spans_nil

/-- The objects of the first heap that stand for something. -/
def source (L : Link) (o : Object) : Prop := ∃ p, L o p

/-- The objects of the second heap that something stands for. -/
def target (L : Link) (p : Object) : Prop := ∃ o, L o p

end

end Link

end LexEnv
