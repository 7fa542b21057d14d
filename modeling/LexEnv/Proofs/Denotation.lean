import LexEnv.Proofs.Form
import LexEnv.Proofs.Parallel

/-!
# What values denote

A value without cycles denotes a form (`Heap.Denotes`): its own objects are there, and what is inside
of them denotes in turn. Keys of sets and dictionaries have to be such that they are found again:
distinct, with a hash, and stored with the hash that they have (`Heap.Keyed`).

A value denotes one form at most (`Denotes.unique`). A heap with more sequences and sets still denotes
what it did (`Denotes.grown`), and no value is deeper than what a walk over the heap reaches
(`Denotes.within_reach`).
-/

namespace LexEnv

/-! ## Values that denote -/

/-- The shape of a sequence. -/
def SequenceKind.shape : SequenceKind → Shape
  | .list => .list
  | .tuple => .tuple

namespace Heap

/-- Values that have a hash. -/
inductive Hashable (h : Heap) : Value → Prop where
  | none : Hashable h .none
  | number {v : Value} {q : Quantity} (hq : v.quantity? = some q) : Hashable h v
  | text (s : String) : Hashable h (.text s)
  | bytes (b : List UInt8) : Hashable h (.bytes b)
  | func (f : Func) : Hashable h (.func f)
  | cls (c : Class) : Hashable h (.cls c)
  | scope (c : ScopeId) : Hashable h (.scope c)
  | tuple (c : SequenceId) (inside : c.index < h.sequences.size)
    (items : ∀ v ∈ h.sequence c, Hashable h v) : Hashable h (.sequence .tuple c)
  | frozen (c : SetId) (inside : c.index < h.sets.size)
    (elements : ∀ e ∈ (h.set c).entries, Hashable h e.1.value) : Hashable h (.set .frozen c)

/-- A key that is found again: its value has a hash, and the key has been stored with the hash of the
form that the value denotes. -/
structure Keyed (h : Heap) (k : Key) (f : Form) : Prop where
  hashable : h.Hashable k.value
  stored : keyBy (fun _ => .ok f.code) k.value = .ok k

/-- A value denotes a form. -/
inductive Denotes (h : Heap) : Value → Form → Prop where
  | none : Denotes h .none .none
  | number {v : Value} {q : Quantity} (hq : v.quantity? = some q) : Denotes h v (.number q)
  | text (s : String) : Denotes h (.text s) (.text s)
  | bytes (b : List UInt8) : Denotes h (.bytes b) (.bytes b)
  | func (f : Func) : Denotes h (.func f) (.func f.name f.native)
  | cls (c : Class) : Denotes h (.cls c) (.cls c.name c.template)
  | sequence (kind : SequenceKind) (c : SequenceId) {fs : List Form}
    (inside : c.index < h.sequences.size)
    (items : List.Forall₂ (Denotes h) (h.sequence c) fs) :
    Denotes h (.sequence kind c) (.node kind.shape fs)
  | set (kind : SetKind) (c : SetId) {fs : List Form} (inside : c.index < h.sets.size)
    (elements : List.Forall₂ (fun e f => Denotes h e.1.value f) (h.set c).entries fs)
    (keyed : List.Forall₂ (fun e f => h.Keyed e.1 f) (h.set c).entries fs)
    (distinct : fs.Nodup) : Denotes h (.set kind c) (.node .set (Form.bag fs))
  | dict (d : DictId) {ps : List (Form × Form)} (inside : d.index < h.dicts.size)
    (keys : List.Forall₂ (fun e p => Denotes h e.1.value p.1) (h.dict d).entries ps)
    (contents : List.Forall₂ (fun e p => Denotes h e.2 p.2) (h.dict d).entries ps)
    (keyed : List.Forall₂ (fun e p => h.Keyed e.1 p.1) (h.dict d).entries ps)
    (distinct : (ps.map (·.1)).Nodup) :
    Denotes h (.dict d) (.node .dict (Form.bag (ps.map .ofPair)))
  | scope (c : ScopeId) {bs : List (String × SlotId)} {ps : List (Form × Form)}
    (inside : c.index < h.scopes.size)
    (sorted : ∀ less, (h.scope c).ascending less = .ok (bs.map fun b => (.text b.1, b.2)))
    (names : List.Forall₂ (fun b p => p.1 = .text b.1) bs ps)
    (contents : List.Forall₂ (fun b p => Denotes h (h.slot b.2).value p.2) bs ps) :
    Denotes h (.scope c) (.node .scope (ps.map .ofPair))

/-! ## Uniqueness -/

variable {h : Heap}

/-- A value denotes one form at most. -/
theorem Denotes.unique {v : Value} {f g : Form} (hf : h.Denotes v f) (hg : h.Denotes v g) :
    f = g := by
  induction hn : f.depth using Nat.strongRecOn generalizing v f g with
  | ind n ih =>
    subst hn
    cases hf with
    | none => cases hg with
      | none => rfl
      | number hq => cases hq
    | number hq => cases hg with
      | number hq' => rw [Option.some.inj (hq.symm.trans hq')]
      | _ => cases hq
    | text s => cases hg with
      | text => rfl
      | number hq => cases hq
    | bytes b => cases hg with
      | bytes => rfl
      | number hq => cases hq
    | func x => cases hg with
      | func => rfl
      | number hq => cases hq
    | cls x => cases hg with
      | cls => rfl
      | number hq => cases hq
    | sequence kind c inside items => cases hg with
      | number hq => cases hq
      | sequence _ _ _ items' =>
        rw [eq_of_forall₂ ((forall₂_mem items).imp fun v f ⟨hf, _, mem⟩ g hg =>
          ih _ (Form.depth_lt_of_mem _ mem) hf hg rfl) items']
    | set kind c inside elements keyed distinct => cases hg with
      | number hq => cases hq
      | set _ _ _ elements' =>
        rw [eq_of_forall₂ ((forall₂_mem elements).imp fun e f ⟨hf, _, mem⟩ g hg =>
          ih _ (Form.depth_lt_of_mem _ (Form.mem_bag.mpr mem)) hf hg rfl) elements']
    | dict d inside keys contents keyed distinct => cases hg with
      | number hq => cases hq
      | dict _ _ keys' contents' =>
        rw [eq_of_forall₂ ((forall₂_mem (forall₂_and keys contents)).imp
          fun e p ⟨⟨hk, hc⟩, _, mem⟩ p' ⟨hk', hc'⟩ => ?_) (forall₂_and keys' contents')]
        have small := Form.depth_lt_of_mem_bag_pairs .dict mem
        exact Prod.ext (ih _ (by omega) hk hk' rfl) (ih _ (by omega) hc hc' rfl)
    | scope c inside sorted names contents => cases hg with
      | number hq => cases hq
      | scope _ _ sorted' names' contents' =>
        have listed := Except.ok.inj ((sorted h.less).symm.trans (sorted' h.less))
        have texts : Function.Injective fun b : String × SlotId => (Value.text b.1, b.2) := by
          rintro ⟨n, t⟩ ⟨n', t'⟩ same
          cases same
          rfl
        cases List.map_injective_iff.mpr texts listed
        rw [eq_of_forall₂ ((forall₂_mem (forall₂_and names contents)).imp
          fun b p ⟨⟨hn, hc⟩, _, mem⟩ p' ⟨hn', hc'⟩ => ?_) (forall₂_and names' contents')]
        have small := Form.depth_lt_of_mem_pairs .scope mem
        exact Prod.ext (hn.trans hn'.symm) (ih _ (by omega) hc hc' rfl)

/-- What has a hash is frozen already. -/
theorem Hashable.frozen_eq {v : Value} {f : Form} (hv : h.Hashable v) (hf : h.Denotes v f) :
    f.frozen = f := by
  induction hv generalizing f with
  | none => cases hf with
    | none => rfl
    | number hq => cases hq
  | number hq => cases hf with
    | number => rfl
    | _ => cases hq
  | text s => cases hf with
    | text => rfl
    | number hq => cases hq
  | bytes b => cases hf with
    | bytes => rfl
    | number hq => cases hq
  | func x => cases hf with
    | func => rfl
    | number hq => cases hq
  | cls c => cases hf with
    | cls => rfl
    | number hq => cases hq
  | scope c => cases hf with
    | scope => rfl
    | number hq => cases hq
  | tuple c inside _ ih => cases hf with
    | number hq => cases hq
    | @sequence _ _ fs _ items =>
      have same : fs.map Form.frozen = fs :=
        (List.map_congr_left fun f mem => by
          obtain ⟨v, hv, hf⟩ := exists_of_mem_right items mem
          exact ih v hv hf).trans (List.map_id fs)
      rw [SequenceKind.shape, Form.frozen, Form.frozens_eq_map, same]
  | frozen c inside _ ih => cases hf with
    | number hq => cases hq
    | @set _ _ fs _ elements _ _ =>
      have same : (Form.bag fs).map Form.frozen = Form.bag fs :=
        (List.map_congr_left fun f mem => by
          obtain ⟨e, he, hf⟩ := exists_of_mem_right elements (Form.mem_bag.mp mem)
          exact ih e he hf).trans (List.map_id _)
      rw [Form.frozen, Form.frozens_eq_map, same, Form.bag_eq_iff.mpr (Form.bag_perm fs)]

/-- A set of distinct elements that have a hash is frozen already, even if it can change. -/
theorem Denotes.frozen_eq_of_set {kind : SetKind} {c : SetId} {f : Form}
    (hv : h.Denotes (.set kind c) f) : f.frozen = f := by
  cases hv with
  | number hq => cases hq
  | set _ _ inside elements keyed distinct =>
    -- A frozen set with these elements denotes the same form, and has a hash.
    have hashable : h.Hashable (.set .frozen c) := .frozen c inside fun e mem => by
      obtain ⟨f, _, hk⟩ := exists_of_mem_left keyed mem
      exact hk.hashable
    exact hashable.frozen_eq (.set .frozen c inside elements keyed distinct)

/-! ## Growing heaps -/

/-- A heap with more sequences and sets, and everything else as it was. -/
structure Grown (h h' : Heap) : Prop where
  slots : h'.slots = h.slots
  scopes : h'.scopes = h.scopes
  dicts : h'.dicts = h.dicts
  sequences : h.sequences.size ≤ h'.sequences.size
  sequence : ∀ c : SequenceId, c.index < h.sequences.size → h'.sequence c = h.sequence c
  sets : h.sets.size ≤ h'.sets.size
  set : ∀ c : SetId, c.index < h.sets.size → h'.set c = h.set c
  size : h.size ≤ h'.size

theorem Grown.refl (h : Heap) : h.Grown h :=
  ⟨rfl, rfl, rfl, Nat.le_refl _, fun _ _ => rfl, Nat.le_refl _, fun _ _ => rfl, Nat.le_refl _⟩

theorem Grown.trans {h h' h'' : Heap} (first : h.Grown h') (next : h'.Grown h'') : h.Grown h'' where
  slots := next.slots.trans first.slots
  scopes := next.scopes.trans first.scopes
  dicts := next.dicts.trans first.dicts
  sequences := Nat.le_trans first.sequences next.sequences
  sequence c hc :=
    (next.sequence c (Nat.lt_of_lt_of_le hc first.sequences)).trans (first.sequence c hc)
  sets := Nat.le_trans first.sets next.sets
  set c hc := (next.set c (Nat.lt_of_lt_of_le hc first.sets)).trans (first.set c hc)
  size := Nat.le_trans first.size next.size

theorem grown_addSequence (h : Heap) (items : List Value) : h.Grown (h.addSequence items).2 where
  slots := rfl
  scopes := rfl
  dicts := rfl
  sequences := by simp [addSequence]
  sequence _ old := h.sequence_addSequence_of_lt items old
  sets := Nat.le_refl _
  set _ _ := rfl
  size := by simp [Heap.size, addSequence]

theorem grown_addSet (h : Heap) (elements : Table Unit) : h.Grown (h.addSet elements).2 where
  slots := rfl
  scopes := rfl
  dicts := rfl
  sequences := Nat.le_refl _
  sequence _ _ := rfl
  sets := by simp [addSet]
  set _ old := h.set_addSet_of_lt elements old
  size := by simp [Heap.size, addSet]

theorem Grown.reach {h h' : Heap} (grown : h.Grown h') : h.reach ≤ h'.reach :=
  Nat.mul_le_mul (Nat.add_le_add_right grown.size 2) (Nat.add_le_add_right grown.size 2)

section

variable {h h' : Heap} {v : Value} {f : Form}

theorem Hashable.grown (hv : h.Hashable v) (grown : h.Grown h') : h'.Hashable v := by
  induction hv with
  | none => exact .none
  | number hq => exact .number hq
  | text s => exact .text s
  | bytes b => exact .bytes b
  | func f => exact .func f
  | cls c => exact .cls c
  | scope c => exact .scope c
  | tuple c inside _ ih =>
    refine .tuple c (Nat.lt_of_lt_of_le inside grown.sequences) fun v mem => ih v ?_
    rwa [grown.sequence c inside] at mem
  | frozen c inside _ ih =>
    refine .frozen c (Nat.lt_of_lt_of_le inside grown.sets) fun e mem => ih e ?_
    rwa [grown.set c inside] at mem

theorem Keyed.grown {k : Key} (hk : h.Keyed k f) (grown : h.Grown h') : h'.Keyed k f :=
  ⟨hk.hashable.grown grown, hk.stored⟩

/-- Values denote what they did. -/
theorem Denotes.grown (hf : h.Denotes v f) (grown : h.Grown h') : h'.Denotes v f := by
  induction hn : f.depth using Nat.strongRecOn generalizing v f with
  | ind n ih =>
    subst hn
    cases hf with
    | none => exact .none
    | number hq => exact .number hq
    | text s => exact .text s
    | bytes b => exact .bytes b
    | func f => exact .func f
    | cls c => exact .cls c
    | sequence kind c inside items =>
      refine .sequence kind c (Nat.lt_of_lt_of_le inside grown.sequences) ?_
      rw [grown.sequence c inside]
      refine (forall₂_mem items).imp ?_
      rintro v f ⟨hf, _, mem⟩
      exact ih _ (Form.depth_lt_of_mem _ mem) hf rfl
    | set kind c inside elements keyed distinct =>
      have same := grown.set c inside
      refine .set kind c (Nat.lt_of_lt_of_le inside grown.sets) ?_ ?_ distinct
      · rw [same]
        refine (forall₂_mem elements).imp ?_
        rintro e f ⟨hf, _, mem⟩
        exact ih _ (Form.depth_lt_of_mem _ (Form.mem_bag.mpr mem)) hf rfl
      · rw [same]
        exact keyed.imp fun e f hk => hk.grown grown
    | dict d inside keys contents keyed distinct =>
      have same : h'.dict d = h.dict d := by
        rw [Heap.dict, grown.dicts, Heap.dict]
      refine .dict d (grown.dicts ▸ inside) ?_ ?_ ?_ distinct
      · rw [same]
        refine (forall₂_mem keys).imp ?_
        rintro e p ⟨hf, _, mem⟩
        exact ih _ (Nat.lt_of_succ_lt (Form.depth_lt_of_mem_bag_pairs _ mem).1) hf rfl
      · rw [same]
        refine (forall₂_mem contents).imp ?_
        rintro e p ⟨hf, _, mem⟩
        exact ih _ (Nat.lt_of_succ_lt (Form.depth_lt_of_mem_bag_pairs _ mem).2) hf rfl
      · rw [same]
        exact keyed.imp fun e f hk => hk.grown grown
    | scope c inside sorted names contents =>
      have same : h'.scope c = h.scope c := by
        rw [Heap.scope, grown.scopes, Heap.scope]
      refine .scope c (grown.scopes ▸ inside) (same ▸ sorted) names ?_
      refine (forall₂_mem contents).imp ?_
      rintro b p ⟨hf, _, mem⟩
      rw [slot, grown.slots]
      exact ih _ (Nat.lt_of_succ_lt (Form.depth_lt_of_mem_pairs _ mem).2) hf rfl

end

/-! ## Within reach -/

/-- All containers of a heap. -/
def containers (h : Heap) : List Value :=
  (List.range h.sequences.size).map (fun i => .sequence .list ⟨i⟩) ++
  (List.range h.sequences.size).map (fun i => .sequence .tuple ⟨i⟩) ++
  (List.range h.sets.size).map (fun i => .set .changing ⟨i⟩) ++
  (List.range h.sets.size).map (fun i => .set .frozen ⟨i⟩) ++
  (List.range h.dicts.size).map (fun i => .dict ⟨i⟩) ++
  (List.range h.scopes.size).map (fun i => .scope ⟨i⟩)

theorem length_containers_le (h : Heap) : h.containers.length ≤ 2 * h.size := by
  simp only [containers, List.length_append, List.length_map, List.length_range, size]
  omega

variable {v : Value} {f : Form}

theorem Denotes.mem_containers (hf : h.Denotes v f) (deep : 0 < f.depth) : v ∈ h.containers := by
  cases hf with
  | sequence kind c inside =>
    obtain ⟨i⟩ := c
    cases kind <;> simpa [containers] using inside
  | set kind c inside =>
    obtain ⟨i⟩ := c
    cases kind <;> simpa [containers] using inside
  | dict d inside =>
    obtain ⟨i⟩ := d
    simpa [containers] using inside
  | scope c inside =>
    obtain ⟨i⟩ := c
    simpa [containers] using inside
  | _ => cases deep

/-- Inside of a value that is deeper than a container without parts, there is a value that is less
deep by two at most: between both there is nothing else than an entry. -/
theorem Denotes.exists_inside (hf : h.Denotes v f) (deep : 2 < f.depth) :
    ∃ w g, h.Denotes w g ∧ g.depth < f.depth ∧ f.depth ≤ g.depth + 2 := by
  have parts : ∀ {shape : Shape} {fs : List Form}, 2 < (Form.node shape fs).depth →
      ∃ f ∈ fs, (Form.node shape fs).depth = f.depth + 1 := by
    intro shape fs deep
    have ne : fs ≠ [] := by
      rintro rfl
      exact absurd deep (by simp [Form.depth, Form.depths])
    obtain ⟨f, mem, deepest⟩ := Form.exists_depth_eq ne
    exact ⟨f, mem, congrArg (· + 1) deepest.symm⟩
  have pairs : ∀ {ps : List (Form × Form)} {shape : Shape},
      2 < (Form.node shape (ps.map .ofPair)).depth →
      ∃ p ∈ ps, (Form.node shape (ps.map .ofPair)).depth = max p.1.depth p.2.depth + 2 := by
    intro ps shape deep
    obtain ⟨f, mem, deepest⟩ := parts deep
    obtain ⟨p, mem', rfl⟩ := List.mem_map.mp mem
    exact ⟨p, mem', deepest⟩
  cases hf with
  | sequence kind c inside items =>
    obtain ⟨f, mem, deepest⟩ := parts deep
    obtain ⟨w, _, hw⟩ := exists_of_mem_right items mem
    exact ⟨w, f, hw, by omega, by omega⟩
  | set kind c inside elements =>
    rw [Form.depth_bag] at deep ⊢
    obtain ⟨f, mem, deepest⟩ := parts deep
    obtain ⟨e, _, he⟩ := exists_of_mem_right elements mem
    exact ⟨e.1.value, f, he, by omega, by omega⟩
  | dict d inside keys contents =>
    rw [Form.depth_bag] at deep ⊢
    obtain ⟨p, mem, deepest⟩ := pairs deep
    obtain ⟨e, _, hk, hc⟩ := exists_of_mem_right (forall₂_and keys contents) mem
    rcases Nat.le_total p.1.depth p.2.depth with le | le
    · exact ⟨e.2, p.2, hc, by omega, by omega⟩
    · exact ⟨e.1.value, p.1, hk, by omega, by omega⟩
  | scope c inside sorted names contents =>
    obtain ⟨p, mem, deepest⟩ := pairs deep
    obtain ⟨b, _, hn, hc⟩ := exists_of_mem_right (forall₂_and names contents) mem
    have flat : p.1.depth = 0 := by rw [hn]; rfl
    exact ⟨_, p.2, hc, by omega, by omega⟩
  | _ => cases deep

/-- On the way to the inside of a value lie different containers, one for every two levels. -/
theorem Denotes.exists_path (hf : h.Denotes v f) : ∃ path : List Value, path.Nodup ∧
    path ⊆ h.containers ∧ (∀ u ∈ path, ∃ g, h.Denotes u g ∧ g.depth ≤ f.depth) ∧
    f.depth ≤ 2 * path.length := by
  induction hn : f.depth using Nat.strongRecOn generalizing v f with
  | ind n ih =>
    subst hn
    rcases Nat.eq_zero_or_pos f.depth with zero | pos
    · exact ⟨[], .nil, by simp, by simp, Nat.le_of_eq zero⟩
    have mem := hf.mem_containers pos
    rcases Nat.lt_or_ge 2 f.depth with deep | flat
    · obtain ⟨w, g, hg, less, next⟩ := hf.exists_inside deep
      obtain ⟨path, distinct, inside, bounded, long⟩ := ih _ less hg rfl
      refine ⟨v :: path, List.nodup_cons.mpr ⟨fun again => ?_, distinct⟩,
        List.cons_subset.mpr ⟨mem, inside⟩, fun u hu => ?_, ?_⟩
      · obtain ⟨g', hg', le⟩ := bounded v again
        rw [hf.unique hg'] at less
        exact absurd less (Nat.not_lt.mpr le)
      · rcases List.mem_cons.mp hu with rfl | hu
        · exact ⟨f, hf, Nat.le_refl _⟩
        · obtain ⟨g', hg', le⟩ := bounded u hu
          exact ⟨g', hg', Nat.le_trans le (Nat.le_of_lt less)⟩
      · rw [List.length_cons]
        omega
    · exact ⟨[v], by simp, by simp [mem],
        fun u hu => ⟨f, by rwa [List.mem_singleton.mp hu], Nat.le_refl _⟩, flat⟩

/-- No value is deeper than what a walk over the heap reaches. -/
theorem Denotes.within_reach (hf : h.Denotes v f) : f.depth < h.reach := by
  obtain ⟨path, distinct, inside, _, long⟩ := hf.exists_path
  have short := (List.subperm_of_subset distinct inside).length_le
  have few := h.length_containers_le
  have square : 4 * h.size < h.reach := by
    rw [reach, Nat.mul_add, Nat.add_mul]
    omega
  omega

end Heap

end LexEnv
