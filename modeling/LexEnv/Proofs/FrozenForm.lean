import LexEnv.Proofs.ScopeHash

/-!
# Frozen forms

What freezing makes of a value has a hash, since it contains no list, no set that can change and no
dictionary, however deep one looks without going into scopes (`Heap.Contains`). Freezing it once more
changes nothing, and freezing a value that had a hash in the first place gives the same value.

Nothing comes together on the way: a set is frozen to a set with the same elements, and a dictionary
to a set with a pair for every entry, as many as there were. Elements have a hash, so they are frozen
already; contents are frozen and may become the same, but the keys in front of them stay apart.

Main statement: `Heap.Formed.freezes_without_merging`.
-/

namespace LexEnv

/-- Values without a hash of their own: lists, sets that can change and dictionaries. -/
def Value.Hashless : Value → Prop
  | .sequence .list _ | .set .changing _ | .dict _ => True
  | _ => False

namespace Heap

variable {h h' : Heap} {v w x : Value} {f g : Form}

/-! ## What a value contains -/

/-- A value is met in another one, at any depth. Scopes are not gone into. -/
inductive Contains (h : Heap) : Value → Value → Prop where
  | self (v : Value) : Contains h v v
  | item {kind : SequenceKind} {c : SequenceId} {v x : Value} (mem : v ∈ h.sequence c)
    (inside : Contains h v x) : Contains h (.sequence kind c) x
  | element {kind : SetKind} {c : SetId} {e : Key × Unit} {x : Value} (mem : e ∈ (h.set c).entries)
    (inside : Contains h e.1.value x) : Contains h (.set kind c) x
  | key {d : DictId} {e : Key × Value} {x : Value} (mem : e ∈ (h.dict d).entries)
    (inside : Contains h e.1.value x) : Contains h (.dict d) x
  | content {d : DictId} {e : Key × Value} {x : Value} (mem : e ∈ (h.dict d).entries)
    (inside : Contains h e.2 x) : Contains h (.dict d) x

/-- All that is met in a value with a hash has a hash. -/
theorem Hashable.contains (hv : h.Hashable v) (inside : h.Contains v x) : h.Hashable x := by
  induction inside with
  | self v => exact hv
  | item mem _ ih =>
    cases hv with
    | number hq => cases hq
    | tuple _ _ items => exact ih (items _ mem)
  | element mem _ ih =>
    cases hv with
    | number hq => cases hq
    | frozen _ _ elements => exact ih (elements _ mem)
  | key => cases hv with | number hq => cases hq
  | content => cases hv with | number hq => cases hq

theorem Hashable.not_hashless (hv : h.Hashable v) : ¬v.Hashless := by
  cases hv with
  | number hq => cases v <;> first | exact id | cases hq
  | _ => exact id

/-! ## Values of a known form -/

/-- What denotes a pair is a tuple of two values that denote its parts. -/
theorem Denotes.eq_pair (hv : h.Denotes v (.node .tuple [f, g])) : ∃ q key content,
    v = .sequence .tuple q ∧ h.sequence q = [key, content] ∧
      h.Denotes key f ∧ h.Denotes content g := by
  generalize form : Form.node .tuple [f, g] = e at hv
  cases hv with
  | sequence kind q inside items =>
    cases kind with
    | list => cases form
    | tuple =>
      cases form
      obtain ⟨key, rest, hk, second, parts⟩ := List.forall₂_cons_right_iff.mp items
      obtain ⟨content, nothing, hc, last, rfl⟩ := List.forall₂_cons_right_iff.mp second
      rw [List.forall₂_nil_right_iff.mp last] at parts
      exact ⟨q, key, content, rfl, parts, hk, hc⟩
  | _ => cases form

/-- What denotes a set and has a hash is a frozen set of what denotes its elements. -/
theorem Denotes.eq_frozen {fs : List Form} (hv : h.Denotes v (.node .set (Form.bag fs)))
    (hashable : h.Hashable v) : ∃ e, v = .set .frozen e ∧ (h.set e).size = fs.length ∧
      ∀ f ∈ fs, ∃ x ∈ (h.set e).entries, h.Denotes x.1.value f := by
  generalize form : Form.node .set (Form.bag fs) = f at hv
  cases hv with
  | sequence kind => cases kind <;> cases form
  | @set kind e gs inside elements =>
    cases hashable with
    | number hq => cases hq
    | frozen =>
      have perm := Form.bag_eq_iff.mp (Form.node.inj form).2
      refine ⟨e, rfl, elements.length_eq.trans perm.length_eq.symm, fun f mem => ?_⟩
      exact exists_of_mem_right elements (perm.mem_iff.mp mem)
  | _ => cases form

/-! ## Freezing -/

/-- Freezing a value gives what is the same as another value. -/
def FreezesTo (h : Heap) (v w : Value) : Prop :=
  ∃ u h', h.freeze v = .ok (u, h') ∧ h.Grown h' ∧ h'.same u w = .ok true

/-- Two values that denote the same form are the same inside containers. -/
theorem Denotes.same (hv : h.Denotes v f) (hw : h.Denotes w f) : h.same v w = .ok true :=
  (hv.decides_same hw hv.within_reach hw.within_reach).eq_true rfl

/-- Freezing a value makes one with a hash that denotes the frozen form. -/
theorem Denotes.makes_frozen (hv : h.Denotes v f) : ∃ w h', h.freeze v = .ok (w, h') ∧
    h.Grown h' ∧ h'.Denotes w f.frozen ∧ h'.Hashable w :=
  (hashes_and_freezes _).2 h v f hv rfl _ _ hv.within_reach hv.within_reach

theorem Denotes.freezesTo (hv : h.Denotes v f) (hw : h.Denotes w f.frozen) : h.FreezesTo v w := by
  obtain ⟨u, h', frozen, grown, hu, -⟩ := hv.makes_frozen
  exact ⟨u, h', frozen, grown, hu.same (hw.grown grown)⟩

/-- A tuple of the key of an entry and its content, which is frozen. -/
def FreezesToPair (h : Heap) (entry : Key × Value) (v : Value) : Prop :=
  ∃ q key content, v = .sequence .tuple q ∧ h.sequence q = [key, content] ∧
    h.same key entry.1.value = .ok true ∧ h.FreezesTo entry.2 content

/-- What a value `v` of the heap `h` is frozen to: a value `w` of the heap `h'`. -/
structure FrozenForm (h : Heap) (v : Value) (h' : Heap) (w : Value) : Prop where
  /-- All that was there before is still there as it was. -/
  grown : h.Grown h'
  settled : ∀ x, h'.Contains w x → ¬x.Hashless
  hashed : ∃ code, h'.hash w = .ok code
  again : h'.FreezesTo w w
  same : ∀ code, h.hash v = .ok code → h'.same w v = .ok true
  /-- No elements of a set come together. -/
  elements : ∀ kind c, v = .set kind c → h'.same w v = .ok true ∧
    ∃ e, w = .set .frozen e ∧ (h'.set e).size = (h.set c).size
  /-- No entries of a dictionary come together, and none gets lost. -/
  entries : ∀ d, v = .dict d → ∃ e, w = .set .frozen e ∧ (h'.set e).size = (h.dict d).size ∧
    ∀ x ∈ (h.dict d).entries, ∃ y ∈ (h'.set e).entries, h'.FreezesToPair x y.1.value

/-- A set has as many elements when it is frozen. -/
theorem Denotes.frozen_elements {kind : SetKind} {c : SetId} (hv : h.Denotes (.set kind c) f)
    (hw : h'.Denotes w f.frozen) (hashable : h'.Hashable w) :
    ∃ e, w = .set .frozen e ∧ (h'.set e).size = (h.set c).size := by
  rw [hv.frozen_eq_of_set] at hw
  cases hv with
  | number hq => cases hq
  | set _ _ _ elements =>
    obtain ⟨e, eq, size, -⟩ := hw.eq_frozen hashable
    exact ⟨e, eq, size.trans elements.length_eq.symm⟩

/-- A dictionary becomes a set of as many pairs as it has entries, one for every entry. -/
theorem Denotes.frozen_entries {d : DictId} (hv : h.Denotes (.dict d) f) (grown : h.Grown h')
    (hw : h'.Denotes w f.frozen) (hashable : h'.Hashable w) :
    ∃ e, w = .set .frozen e ∧ (h'.set e).size = (h.dict d).size ∧
      ∀ x ∈ (h.dict d).entries, ∃ y ∈ (h'.set e).entries, h'.FreezesToPair x y.1.value := by
  cases hv with
  | number hq => cases hq
  | @dict _ ps _ keys contents =>
    rw [Form.frozen_dict] at hw
    obtain ⟨e, eq, size, found⟩ := hw.eq_frozen hashable
    have same : (h'.set e).size = (h.dict d).size := by
      rw [size, List.length_map, Table.size, keys.length_eq]
    refine ⟨e, eq, same, fun x mem => ?_⟩
    obtain ⟨p, inside, hk, hc⟩ := exists_of_mem_left (forall₂_and keys contents) mem
    obtain ⟨y, mem', hy⟩ := found _ (List.mem_map_of_mem inside)
    rw [Form.frozen_ofPair] at hy
    obtain ⟨q, key, content, tuple, parts, hk', hc'⟩ := hy.eq_pair
    exact ⟨y, mem', q, key, content, tuple, parts, hk'.same (hk.grown grown),
      (hc.grown grown).freezesTo hc'⟩

/-- What denotes the frozen form of a value, and has a hash, is what that value is frozen to. -/
theorem Denotes.frozenForm (hv : h.Denotes v f) (grown : h.Grown h')
    (hw : h'.Denotes w f.frozen) (hashable : h'.Hashable w) : h.FrozenForm v h' w where
  grown := grown
  settled x inside := (hashable.contains inside).not_hashless
  hashed := ⟨_, hw.hash_eq hashable⟩
  again := by
    refine hw.freezesTo ?_
    rwa [hashable.frozen_eq hw]
  same code hashed := by
    rw [(hv.hashable hashed).frozen_eq hv] at hw
    exact hw.same (hv.grown grown)
  elements kind c set := by
    subst set
    refine ⟨?_, hv.frozen_elements hw hashable⟩
    rw [hv.frozen_eq_of_set] at hw
    exact hw.same (hv.grown grown)
  entries d dict := by
    subst dict
    exact hv.frozen_entries grown hw hashable

/-- Values that are built without cycles, with keys that have not changed since they went in, have a
frozen form; scopes of such values have a hash. -/
theorem Formed.freezes_without_merging (formed : h.Formed v) :
    (∃ w h', h.freeze v = .ok (w, h') ∧ h.FrozenForm v h' w) ∧
      ∀ c, v = .scope c → ∃ code, h.hash v = .ok code := by
  obtain ⟨f, hv⟩ := formed.denotes
  constructor
  · obtain ⟨w, h', frozen, grown, hw, hashable⟩ := hv.makes_frozen
    exact ⟨w, h', frozen, hv.frozenForm grown hw hashable⟩
  · intro c scope
    subst scope
    exact ⟨f.code, hv.hash_eq (.scope c)⟩

/-- A dictionary with one and the same list under two keys: a number that is no number, and a scope
with that number in it. The list holds a set of both keys, and the dictionary is put into a scope. -/
def repeating : Action Unit := do
  let undefined ← Value.newFloat .nan
  let key ← ScopeId.create .empty
  key.defineMut (.text "n") undefined
  let keys ← Value.putIn (← Value.putIn .empty undefined ()) (.scope key) ()
  let list ← Value.newList [← Value.newSet .changing keys, .int 1]
  let entries ← Value.putIn (← Value.putIn .empty undefined list) (.scope key) list
  let c ← ScopeId.create .empty
  c.defineConst (.text "d") (← Value.newDict entries)

theorem Formed.freezes_without_merging_repeating : ∃ h, h = (repeating.run .initial).2.heap ∧
    h.Formed (.dict ⟨0⟩) ∧ h.Formed (.scope ⟨1⟩) ∧
    (∃ w h', h.freeze (.dict ⟨0⟩) = .ok (w, h') ∧ h.FrozenForm (.dict ⟨0⟩) h' w ∧
      ∃ e, w = .set .frozen e ∧ (h'.set e).size = 2) ∧
    ∃ code, h.hash (.scope ⟨1⟩) = .ok code := by
  obtain ⟨h, made⟩ : ∃ h, h = (repeating.run .initial).2.heap := ⟨_, rfl⟩
  have scopes : h.scopes.size = 2 ∧ (h.scope ⟨0⟩).entries = [(.text "n", ⟨0⟩)] ∧
      (h.scope ⟨1⟩).entries = [(.text "d", ⟨1⟩)] := by
    rw [made]
    decide +kernel
  have slots : (h.slot ⟨0⟩).value = .float .nan 1 ∧ (h.slot ⟨1⟩).value = .dict ⟨0⟩ := by
    rw [made]
    decide +kernel
  have elements : ∀ e ∈ (h.set ⟨0⟩).entries,
      e.1.value = .float .nan 1 ∨ e.1.value = .scope ⟨0⟩ := by
    rw [made]
    decide +kernel
  have items : h.sequence ⟨0⟩ = [.set .changing ⟨0⟩, .int 1] := by
    rw [made]
    decide +kernel
  have entries : ∀ e ∈ (h.dict ⟨0⟩).entries,
      (e.1.value = .float .nan 1 ∨ e.1.value = .scope ⟨0⟩) ∧ e.2 = .sequence .list ⟨0⟩ := by
    rw [made]
    decide +kernel
  have containers : 0 < h.sets.size ∧ 0 < h.sequences.size ∧ 0 < h.dicts.size ∧
      (h.dict ⟨0⟩).size = 2 := by
    rw [made]
    decide +kernel
  have intact : h.Intact (h.set ⟨0⟩) ∧ h.Intact (h.dict ⟨0⟩) := by
    rw [made]
    exact ⟨⟨by decide +kernel, by decide +kernel⟩, ⟨by decide +kernel, by decide +kernel⟩⟩
  have inner : h.Formed (.scope ⟨0⟩) := by
    refine .scope_one (by simp [scopes.1]) scopes.2.1 ?_
    rw [slots.1]
    exact .float .nan 1
  have key : ∀ {v}, v = .float .nan 1 ∨ v = .scope ⟨0⟩ → h.Formed v := by
    rintro v (rfl | rfl)
    · exact .float .nan 1
    · exact inner
  have set : h.Formed (.set .changing ⟨0⟩) :=
    .set _ _ containers.1 (fun e mem => key (elements e mem)) intact.1
  have list : h.Formed (.sequence .list ⟨0⟩) := by
    refine .sequence _ _ containers.2.1 ?_
    rw [items]
    exact List.forall_mem_cons.mpr ⟨set, List.forall_mem_singleton.mpr (.int 1)⟩
  have dict : h.Formed (.dict ⟨0⟩) := by
    refine .dict _ containers.2.2.1 (fun e mem => key (entries e mem).1) (fun e mem => ?_) intact.2
    rw [(entries e mem).2]
    exact list
  have outer : h.Formed (.scope ⟨1⟩) := by
    refine .scope_one (by simp [scopes.1]) scopes.2.2 ?_
    rw [slots.2]
    exact dict
  obtain ⟨⟨w, h', frozen, form⟩, -⟩ := dict.freezes_without_merging
  obtain ⟨e, eq, size, -⟩ := form.entries ⟨0⟩ rfl
  exact ⟨h, made, dict, outer, ⟨w, h', frozen, form, e, eq, size.trans containers.2.2.2⟩,
    outer.freezes_without_merging.2 ⟨1⟩ rfl⟩

end Heap

end LexEnv
