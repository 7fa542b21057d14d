import LexEnv.Proofs.SameContents
import LexEnv.Proofs.ScopeHash
import LexEnv.Proofs.Separation
import LexEnv.Script.Step

/-!
# Equality of scopes

Two scopes are equal when they denote the same form (`Heap.Denotes.decides_equal`), so on scopes with
values built without cycles, whose keys have not changed since they went in, equality is an
equivalence relation. The form of a value shows what the slots in it hold, and neither their kinds nor
which cells they are: heaps with the same containers, in which scopes have the same values under the
same names, answer every comparison alike (`Heap.Formed.denotes_recelled`).

For keys that did change there is no such law: of two sets with such a key one may equal the other
and not the other way round (`Heap.equal_not_symmetric`).

Main statement: `State.scope_equality`.
-/

namespace LexEnv

open LexEnv.Action

namespace Heap

variable {h h' h'' : Heap} {v : Value} {f g : Form} {a b c : ScopeId}

/-! ## Comparing forms -/

/-- A scope that denotes a form is equal to itself. -/
theorem Denotes.equal_self (hf : h.Denotes (.scope c) f) :
    h.equal (.scope c) (.scope c) = .ok true := by
  obtain ⟨k, reach⟩ := h.exists_reach
  cases hf with
  | number hq => cases hq
  | scope _ _ sorted =>
    rw [equal, reach, equalWithin]
    simp only [sorted]
    exact sameItems_self _ _

/-- Comparing two scopes decides whether they denote the same form. -/
theorem Denotes.decides_equal (hf : h.Denotes (.scope a) f) (hg : h.Denotes (.scope b) g) :
    Decides (h.equal (.scope a) (.scope b)) (f = g) := by
  by_cases one : a = b
  · subst one
    rw [hf.equal_self]
    exact .yes (hf.unique hg)
  · have compared := hf.decides_same hg hf.within_reach hg.within_reach
    rwa [sameBy, if_neg fun same => one (Value.scope.inj same)] at compared

/-- Equality is an equivalence relation on scopes with values built without cycles. -/
theorem equivalence_equal (h : Heap) : Equivalence fun a b : {c : ScopeId // h.Formed (.scope c)} =>
    h.equal (.scope a) (.scope b) = .ok true := by
  constructor
  · intro a
    obtain ⟨f, hf⟩ := a.2.denotes
    exact hf.equal_self
  · intro a b equal
    obtain ⟨f, hf⟩ := a.2.denotes
    obtain ⟨g, hg⟩ := b.2.denotes
    have same : f = g := (hf.decides_equal hg).holds equal
    exact (hg.decides_equal hf).eq_true same.symm
  · intro a b c equal equal'
    obtain ⟨f, hf⟩ := a.2.denotes
    obtain ⟨g, hg⟩ := b.2.denotes
    obtain ⟨e, he⟩ := c.2.denotes
    have same : f = g := (hf.decides_equal hg).holds equal
    have same' : g = e := (hg.decides_equal he).holds equal'
    exact (hf.decides_equal he).eq_true (same.trans same')

/-- Two such scopes compare in either order, and alike. -/
theorem Formed.equal_comm (ha : h.Formed (.scope a)) (hb : h.Formed (.scope b)) :
    ∃ eq, h.equal (.scope a) (.scope b) = .ok eq ∧ h.equal (.scope b) (.scope a) = .ok eq := by
  obtain ⟨f, hf⟩ := ha.denotes
  obtain ⟨g, hg⟩ := hb.denotes
  by_cases same : f = g
  · exact ⟨true, (hf.decides_equal hg).eq_true same, (hg.decides_equal hf).eq_true same.symm⟩
  · exact ⟨false, (hf.decides_equal hg).eq_false same,
      (hg.decides_equal hf).eq_false fun eq => same eq.symm⟩

/-! ## Other cells -/

/-- A heap with the same containers, in which scopes have the same values under the same names,
whatever cells hold them and of which kinds these are. -/
structure Recelled (h h' : Heap) : Prop where
  sequences : h'.sequences = h.sequences
  sets : h'.sets = h.sets
  dicts : h'.dicts = h.dicts
  scopes : h'.scopes.size = h.scopes.size
  textual : ∀ c, (h'.scope c).Textual ↔ (h.scope c).Textual
  contents : ∀ c name, h'.contentOf c name = h.contentOf c name

namespace Recelled

theorem trans (first : h.Recelled h') (next : h'.Recelled h'') : h.Recelled h'' where
  sequences := next.sequences.trans first.sequences
  sets := next.sets.trans first.sets
  dicts := next.dicts.trans first.dicts
  scopes := next.scopes.trans first.scopes
  textual c := (next.textual c).trans (first.textual c)
  contents c name := (next.contents c name).trans (first.contents c name)

variable (same : h.Recelled h')

include same

theorem sequence (c : SequenceId) : h'.sequence c = h.sequence c := by
  rw [Heap.sequence, same.sequences, Heap.sequence]

theorem set (c : SetId) : h'.set c = h.set c := by rw [Heap.set, same.sets, Heap.set]

theorem dict (d : DictId) : h'.dict d = h.dict d := by rw [Heap.dict, same.dicts, Heap.dict]

theorem hashable (hv : h.Hashable v) : h'.Hashable v := by
  induction hv with
  | none => exact .none
  | number hq => exact .number hq
  | text s => exact .text s
  | bytes b => exact .bytes b
  | func f => exact .func f
  | cls c => exact .cls c
  | scope c => exact .scope c
  | tuple c inside _ ih =>
    refine .tuple c (same.sequences ▸ inside) fun v mem => ih v ?_
    rwa [same.sequence] at mem
  | frozen c inside _ ih =>
    refine .frozen c (same.sets ▸ inside) fun e mem => ih e ?_
    rwa [same.set] at mem

theorem keyed {k : Key} (hk : h.Keyed k f) : h'.Keyed k f := ⟨same.hashable hk.hashable, hk.stored⟩

end Recelled

/-- The entries of a sorted map of slots, each with the value that its slot holds. -/
theorem entries_contents (h : Heap) (m : NameMap SlotId) :
    (h.contents m).entries = m.entries.map fun b => (b.1, (h.slot b.2).value) := rfl

/-- A value denotes what it did after slots were replaced by slots that hold the same. -/
theorem Formed.denotes_recelled (formed : h.Formed v) (same : h.Recelled h')
    (hf : h.Denotes v f) : h'.Denotes v f := by
  induction formed generalizing f with
  | none => cases hf with
    | none => exact .none
    | number hq => cases hq
  | bool b => cases hf with
    | number hq => exact .number hq
  | int n => cases hf with
    | number hq => exact .number hq
  | float x serial => cases hf with
    | number hq => exact .number hq
  | text s => cases hf with
    | text => exact .text s
    | number hq => cases hq
  | bytes b => cases hf with
    | bytes => exact .bytes b
    | number hq => cases hq
  | func x => cases hf with
    | func => exact .func x
    | number hq => cases hq
  | cls x => cases hf with
    | cls => exact .cls x
    | number hq => cases hq
  | sequence kind c _ _ ih => cases hf with
    | number hq => cases hq
    | sequence _ _ inside items =>
      refine .sequence kind c (same.sequences ▸ inside) ?_
      rw [same.sequence]
      refine (forall₂_mem items).imp ?_
      rintro v f ⟨hv, mem, _⟩
      exact ih v mem hv
  | set kind c _ _ _ ih => cases hf with
    | number hq => cases hq
    | set _ _ inside elements keyed distinct =>
      refine .set kind c (same.sets ▸ inside) ?_ ?_ distinct
      · rw [same.set]
        refine (forall₂_mem elements).imp ?_
        rintro e f ⟨he, mem, _⟩
        exact ih e mem he
      · rw [same.set]
        exact keyed.imp fun e f hk => same.keyed hk
  | dict d _ _ _ _ ihk ihc => cases hf with
    | number hq => cases hq
    | dict _ inside keys contents keyed distinct =>
      refine .dict d (same.dicts ▸ inside) ?_ ?_ ?_ distinct
      · rw [same.dict]
        refine (forall₂_mem keys).imp ?_
        rintro e p ⟨he, mem, _⟩
        exact ihk e mem he
      · rw [same.dict]
        refine (forall₂_mem contents).imp ?_
        rintro e p ⟨he, mem, _⟩
        exact ihc e mem he
      · rw [same.dict]
        exact keyed.imp fun e p hk => same.keyed hk
  | scope c _ textual _ ih => cases hf with
    | number hq => cases hq
    | @scope _ bs ps inside sorted names contents =>
      -- Both heaps list the scope as the sorted map of its contents, and that is one map.
      obtain ⟨m, listed, answers⟩ := textual.sorted
      obtain ⟨m', listed', answers'⟩ := ((same.textual c).mpr textual).sorted
      have one : h'.contents m' = h.contents m := by
        refine NameMap.ext_get? fun name => ?_
        rw [ListedAs.get?_contents ⟨listed', answers'⟩, ListedAs.get?_contents ⟨listed, answers⟩,
          same.contents]
      have texts : Function.Injective fun b : String × SlotId => (Value.text b.1, b.2) := by
        rintro ⟨n, t⟩ ⟨n', t'⟩ eq
        cases eq
        rfl
      have entries : bs = m.entries := List.map_injective_iff.mpr texts
        (Except.ok.inj ((sorted h.less).symm.trans (listed h.less)))
      subst entries
      have parts : List.Forall₂ (fun x p => p.1 = .text x.1 ∧ h'.Denotes x.2 p.2)
          (h.contents m).entries ps := by
        rw [entries_contents, List.forall₂_map_left_iff]
        refine (forall₂_mem (forall₂_and names contents)).imp ?_
        rintro b p ⟨⟨hn, hc⟩, mem, _⟩
        have bound : (h.scope c).get? b.1 = some b.2 := by
          rw [← answers]
          exact NameMap.mem_entries.mp mem
        exact ⟨hn, ih _ (Table.mem_of_get? bound) hc⟩
      rw [← one, entries_contents, List.forall₂_map_left_iff] at parts
      exact .scope c (same.scopes ▸ inside) listed' (parts.imp fun _ _ hp => hp.1)
        (parts.imp fun _ _ hp => hp.2)

/-- Replacing slots by slots that hold the same changes no comparison of scopes. -/
theorem Recelled.equal_eq (same : h.Recelled h') (ha : h.Formed (.scope a))
    (hb : h.Formed (.scope b)) : h'.equal (.scope a) (.scope b) = h.equal (.scope a) (.scope b) := by
  obtain ⟨f, hf⟩ := ha.denotes
  obtain ⟨g, hg⟩ := hb.denotes
  obtain ⟨eq, compared, iff⟩ := hf.decides_equal hg
  obtain ⟨eq', compared', iff'⟩ :=
    (ha.denotes_recelled same hf).decides_equal (hb.denotes_recelled same hg)
  rw [compared, compared', Bool.eq_iff_iff.mpr (iff'.trans iff.symm)]

/-! ## Replacing a slot -/

theorem textual_insert_iff {t : Scope} {name : String} {s : SlotId} :
    (t.insert name s).Textual ↔ t.Textual := by
  constructor
  · intro textual
    rw [Table.textual_iff] at textual ⊢
    rintro ⟨k, s'⟩ mem
    by_cases here : k = .text name
    · rw [here]
      rfl
    · exact textual (k, s') (Table.mem_insert.mpr (by rwa [if_neg here]))
  · exact fun textual => textual.insert name s

/-- A name that has a value is a name of a scope that exists. -/
theorem exists_of_contentOf {name : String} (held : h.contentOf c name = some v) :
    c.index < h.scopes.size := by
  by_contra out
  rw [contentOf, scope_of_size_le (Nat.not_lt.mp out)] at held
  cases held

/-- Binding a name to another slot that holds the same. -/
theorem recelled_setScope {name : String} {t : SlotId}
    (held : h.contentOf c name = some (h.slot t).value) :
    h.Recelled (h.setScope c ((h.scope c).insert name t)) where
  sequences := rfl
  sets := rfl
  dicts := rfl
  scopes := h.size_scopes_setScope c _
  textual d := by
    by_cases here : d = c
    · subst here
      rw [scope_setScope h d d _ (exists_of_contentOf held), if_pos rfl]
      exact textual_insert_iff
    · rw [scope_setScope_of_ne h _ here]
  contents d n := by
    by_cases here : d = c
    · subst here
      rw [contentOf, get?_setScope_insert (exists_of_contentOf held)]
      split
      · next same =>
        subst same
        exact held.symm
      · rfl
    · rw [contentOf, scope_setScope_of_ne h _ here, contentOf]
      rfl

/-- A new slot is the slot of no name. -/
theorem WellFormed.recelled_addSlot (hwf : h.WellFormed) (x : Slot) :
    h.Recelled (h.addSlot x).2 where
  sequences := rfl
  sets := rfl
  dicts := rfl
  scopes := rfl
  textual _ := .rfl
  contents c name := by
    rw [contentOf, contentOf]
    refine Option.map_congr fun t bound => ?_
    rw [slot_addSlot_of_lt h x (hwf.slots c _ (Table.mem_of_get? bound))]

end Heap

/-! ## Any scopes -/

/-- On the scopes of a heap that have values built without cycles, equality is an equivalence
relation; it has an answer in either order, which inequality negates, and the answer stays the same
in any heap where scopes have the same values under the same names. Binding a name to another slot
that holds the same leads to such a heap, and so does defining it again with the value that it has,
as a slot of whatever kind. -/
theorem State.scope_equality (st : State) :
    (Equivalence fun a b : {c : ScopeId // st.heap.Formed (.scope c)} =>
      st.heap.equal (.scope a) (.scope b) = .ok true) ∧
    (∀ a b, st.heap.Formed (.scope a) → st.heap.Formed (.scope b) → ∃ eq,
      st.heap.equal (.scope a) (.scope b) = .ok eq ∧
      st.heap.equal (.scope b) (.scope a) = .ok eq ∧
      (Script.showEquality (.scope a) (.scope b)).run st =
        (.ok [("eq", .datum (.bool eq)), ("ne", .datum (.bool !eq))], st) ∧
      ∀ h', st.heap.Recelled h' → h'.equal (.scope a) (.scope b) = .ok eq) ∧
    ∀ c name v, st.heap.contentOf c name = some v →
      (∀ t, (st.heap.slot t).value = v → ∃ h',
        (c.bind (.text name) t).run st = (.ok (), { st with heap := h' }) ∧
        (h'.scope c).get? name = some t ∧ st.heap.Recelled h') ∧
      (st.heap.WellFormed → ∀ kind, ∃ h' t,
        (c.define kind (.text name) v).run st = (.ok (), { st with heap := h' }) ∧
        (h'.scope c).get? name = some t ∧ h'.slot t = ⟨kind, v⟩ ∧ st.heap.Recelled h') := by
  refine ⟨st.heap.equivalence_equal, fun a b ha hb => ?_, fun c name v held => ⟨?_, ?_⟩⟩
  · obtain ⟨eq, compared, compared'⟩ := ha.equal_comm hb
    refine ⟨eq, compared, compared', ?_, fun h' same => ?_⟩
    · rw [Script.showEquality, run_inspect, compared]
      rfl
    · rw [same.equal_eq ha hb, compared]
  · intro t holds
    refine ⟨_, c.run_bind_text st name t, ?_, Heap.recelled_setScope (holds.symm ▸ held)⟩
    rw [Heap.get?_setScope_insert (Heap.exists_of_contentOf held), if_pos rfl]
  · intro hwf kind
    have added := hwf.recelled_addSlot ⟨kind, v⟩
    have new := st.heap.slot_addSlot_new ⟨kind, v⟩ (t := ⟨st.heap.slots.size⟩) rfl
    have held' := (added.contents c name).trans held
    refine ⟨_, _, c.run_define_text st name kind v, ?_, new,
      added.trans (Heap.recelled_setScope (by rw [held', new]))⟩
    rw [Heap.get?_setScope_insert (Heap.exists_of_contentOf held'), if_pos rfl]

/-- Three scopes with a list of the same scope and the same number, which is of another type in each
list, and a spare slot with what that scope has in it. -/
def listing : Action Unit := do
  let shared ← ScopeId.create .empty
  let undefined ← Value.newFloat .nan
  shared.defineMut (.text "n") undefined
  let a ← ScopeId.create .empty
  let b ← ScopeId.create .empty
  let c ← ScopeId.create .empty
  a.defineConst (.text "x") (← Value.newList [.scope shared, .int 1])
  b.defineMut (.text "x") (← Value.newList [.scope shared, .bool true])
  c.define .bare (.text "x") (← Value.newList [.scope shared, .float (.ofInt 1) 0])
  let _ ← SlotId.create .constant undefined

theorem State.scope_equality_listing : ∃ st, st = (listing.run .initial).2 ∧
    (∀ c ∈ [(⟨1⟩ : ScopeId), ⟨2⟩, ⟨3⟩], st.heap.Formed (.scope c)) ∧
    st.heap.equal (.scope ⟨1⟩) (.scope ⟨2⟩) = .ok true ∧
    st.heap.equal (.scope ⟨2⟩) (.scope ⟨3⟩) = .ok true ∧
    st.heap.equal (.scope ⟨1⟩) (.scope ⟨3⟩) = .ok true ∧
    st.heap.contentOf ⟨0⟩ "n" = some (.float .nan 1) ∧ (st.heap.slot ⟨4⟩).value = .float .nan 1 ∧
    ∃ h', ((⟨0⟩ : ScopeId).bind (.text "n") ⟨4⟩).run st = (.ok (), { st with heap := h' }) ∧
      h'.equal (.scope ⟨1⟩) (.scope ⟨3⟩) = .ok true := by
  obtain ⟨st, hst⟩ : ∃ st, st = (listing.run .initial).2 := ⟨_, rfl⟩
  have shared : st.heap.Formed (.scope ⟨0⟩) := by
    subst hst
    exact Heap.Formed.scope_one (by decide) rfl (.float .nan 1)
  have items : ∀ (l : SequenceId) (v : Value), l.index < st.heap.sequences.size →
      st.heap.sequence l = [.scope ⟨0⟩, v] → st.heap.Formed v → st.heap.Formed (.sequence .list l) := by
    intro l v inside items formed
    refine .sequence .list l inside ?_
    rw [items]
    exact List.forall_mem_cons.mpr ⟨shared, List.forall_mem_singleton.mpr formed⟩
  have a : st.heap.Formed (.scope ⟨1⟩) := by
    have list := items ⟨0⟩ (.int 1) (by subst hst; decide) (by subst hst; rfl) (.int 1)
    subst hst
    exact Heap.Formed.scope_one (by decide) rfl list
  have b : st.heap.Formed (.scope ⟨2⟩) := by
    have list := items ⟨1⟩ (.bool true) (by subst hst; decide) (by subst hst; rfl) (.bool true)
    subst hst
    exact Heap.Formed.scope_one (by decide) rfl list
  have c : st.heap.Formed (.scope ⟨3⟩) := by
    have list := items ⟨2⟩ (.float (.ofInt 1) 0) (by subst hst; decide) (by subst hst; rfl)
      (.float _ _)
    subst hst
    exact Heap.Formed.scope_one (by decide) rfl list
  have equal : st.heap.equal (.scope ⟨1⟩) (.scope ⟨2⟩) = .ok true ∧
      st.heap.equal (.scope ⟨2⟩) (.scope ⟨3⟩) = .ok true := by
    subst hst
    decide +kernel
  have held : st.heap.contentOf ⟨0⟩ "n" = some (.float .nan 1) ∧
      (st.heap.slot ⟨4⟩).value = .float .nan 1 := by
    subst hst
    decide +kernel
  obtain ⟨equivalence, answers, replaced⟩ := st.scope_equality
  have equal' : st.heap.equal (.scope ⟨1⟩) (.scope ⟨3⟩) = .ok true :=
    equivalence.trans (x := ⟨⟨1⟩, a⟩) (y := ⟨⟨2⟩, b⟩) (z := ⟨⟨3⟩, c⟩) equal.1 equal.2
  obtain ⟨h', bound, -, same⟩ := (replaced ⟨0⟩ "n" _ held.1).1 ⟨4⟩ held.2
  obtain ⟨eq, compared, -, -, stays⟩ := answers ⟨1⟩ ⟨3⟩ a c
  refine ⟨st, hst, by simp [a, b, c], equal.1, equal.2, equal', held.1, held.2, h', bound, ?_⟩
  rw [stays h' same, ← compared, equal']

/-- Two sets with two keys each. Afterwards one key of the first set is changed, so that it equals
the other one by now, with the hash that it had before. Both keys are then found in the second set,
but only one key of the second set in the first. -/
def changing : Action Unit := do
  let p ← ScopeId.create .empty
  let q ← ScopeId.create .empty
  let r ← ScopeId.create .empty
  p.defineMut (.text "x") (.int (-1))
  q.defineMut (.text "x") (.int (-2))
  r.defineMut (.text "x") (.int (-2))
  let pq ← Value.putIn (← Value.putIn .empty (.scope p) ()) (.scope q) ()
  let pr ← Value.putIn (← Value.putIn .empty (.scope p) ()) (.scope r) ()
  let a ← ScopeId.create .empty
  let b ← ScopeId.create .empty
  a.defineConst (.text "keys") (← Value.newSet .changing pq)
  b.defineConst (.text "keys") (← Value.newSet .changing pr)
  q.defineMut (.text "x") (.int (-1))

theorem Heap.equal_not_symmetric : ∃ h, h = (changing.run .initial).2.heap ∧
    h.NestsWithin 4 (.scope ⟨3⟩) ∧ h.NestsWithin 4 (.scope ⟨4⟩) ∧
    h.equal (.scope ⟨3⟩) (.scope ⟨4⟩) = .ok true ∧
    h.equal (.scope ⟨4⟩) (.scope ⟨3⟩) = .ok false := by
  obtain ⟨h, made⟩ : ∃ h, h = (changing.run .initial).2.heap := ⟨_, rfl⟩
  have flat : ∀ c ∈ [(⟨0⟩ : ScopeId), ⟨1⟩, ⟨2⟩], c.index < h.scopes.size ∧
      (h.scope c).Textual ∧ ∀ e ∈ (h.scope c).entries,
        ∃ n ∈ [-1, -2], (h.slot e.2).value = .int n := by
    rw [made]
    decide +kernel
  have elements : ∀ s ∈ [(⟨0⟩ : SetId), ⟨1⟩], s.index < h.sets.size ∧
      ∀ e ∈ (h.set s).entries, ∃ c ∈ [(⟨0⟩ : ScopeId), ⟨1⟩, ⟨2⟩], e.1.value = .scope c := by
    rw [made]
    decide +kernel
  have contents : ∀ c ∈ [(⟨3⟩ : ScopeId), ⟨4⟩], c.index < h.scopes.size ∧
      (h.scope c).Textual ∧ ∀ e ∈ (h.scope c).entries,
        ∃ s ∈ [(⟨0⟩ : SetId), ⟨1⟩], (h.slot e.2).value = .set .changing s := by
    rw [made]
    decide +kernel
  have equal : h.equal (.scope ⟨3⟩) (.scope ⟨4⟩) = .ok true ∧
      h.equal (.scope ⟨4⟩) (.scope ⟨3⟩) = .ok false := by
    rw [made]
    decide +kernel
  have keys : ∀ c ∈ [(⟨0⟩ : ScopeId), ⟨1⟩, ⟨2⟩], h.NestsWithin 2 (.scope c) := by
    intro c mem
    obtain ⟨inside, textual, numbers⟩ := flat c mem
    refine ⟨inside, textual, fun e bound => ?_⟩
    obtain ⟨n, -, holds⟩ := numbers e bound
    rw [holds]
    trivial
  have sets : ∀ s ∈ [(⟨0⟩ : SetId), ⟨1⟩], h.NestsWithin 3 (.set .changing s) := by
    intro s mem
    refine ⟨(elements s mem).1, fun e inside => ?_⟩
    obtain ⟨c, key, eq⟩ := (elements s mem).2 e inside
    rw [eq]
    exact keys c key
  have scopes : ∀ c ∈ [(⟨3⟩ : ScopeId), ⟨4⟩], h.NestsWithin 4 (.scope c) := by
    intro c mem
    obtain ⟨inside, textual, values⟩ := contents c mem
    refine ⟨inside, textual, fun e bound => ?_⟩
    obtain ⟨s, one, eq⟩ := values e bound
    rw [eq]
    exact sets s one
  exact ⟨h, made, scopes _ (by simp), scopes _ (by simp), equal⟩

end LexEnv
