import LexEnv.Proofs.Equality

/-!
# Freezing and hashing

Freezing a value that denotes a form makes a value that denotes the frozen form and has a hash, and
hashing a value that has a hash gives the hash of its form. The hash of a scope freezes what the scope
binds, and freezing puts elements into sets by their hashes, so both are proved together, by
induction on the depth of the form (`Heap.hashes_and_freezes`).

No elements come together when a set or dictionary is frozen: those of a set have a hash, so they are
frozen already, and the entries of a dictionary keep their keys.
-/

namespace LexEnv

namespace Entries

/-- A key that matches none is added at the end. -/
theorem putMatching_of_absent {α : Type} {equal : Value → Value → Except Error Bool} {k : Key}
    (a : α) {es : List (Key × α)} (absent : ∀ e ∈ es, e.1.matching equal k = .ok false) :
    putMatching equal k a es = .ok (es ++ [(k, a)]) := by
  induction es with
  | nil => rfl
  | cons e es ih =>
    rw [putMatching, absent e List.mem_cons_self, ih fun e' he => absent e' (List.mem_cons_of_mem _ he)]
    rfl

end Entries

theorem Table.put_of_absent {α : Type} {equal : Value → Value → Except Error Bool} {k : Key} (a : α)
    {t : Table α} (absent : ∀ e ∈ t.entries, e.1.matching equal k = .ok false) :
    ∃ u, t.put equal k a = .ok u ∧ u.entries = t.entries ++ [(k, a)] := by
  have added := Entries.putMatching_of_absent a absent
  unfold Table.put
  split
  · next es h => exact ⟨_, rfl, Except.ok.inj (h.symm.trans added)⟩
  · next e h => cases h.symm.trans added

theorem mapM_eq_ok {α β γ : Type} {x : α → Except Error γ} {c : β → γ} {as : List α} {bs : List β}
    (each : List.Forall₂ (fun a b => x a = .ok (c b)) as bs) : as.mapM x = .ok (bs.map c) := by
  induction each with
  | nil => rfl
  | cons first _ ih =>
    rw [List.mapM_cons, first, ih]
    rfl

theorem map_eq_map {α β γ : Type} {R : α → β → Prop} {as : List α} {bs : List β}
    (related : List.Forall₂ R as bs) {f : α → γ} {g : β → γ} (same : ∀ a b, R a b → f a = g b) :
    as.map f = bs.map g := by
  induction related with
  | nil => rfl
  | cons first _ ih => rw [List.map_cons, List.map_cons, same _ _ first, ih]

namespace Heap

/-! ## Making values -/

/-- A value with a hash is made that denotes a form; nothing that was there before changes. -/
def Makes (x : Building Value) (h : Heap) (f : Form) : Prop :=
  ∃ v h', x.run h = .ok (v, h') ∧ h.Grown h' ∧ h'.Denotes v f ∧ h'.Hashable v

variable {h : Heap}

/-- A tuple of values with a hash has one itself. -/
theorem makes_tuple {vs : List Value} {fs : List Form}
    (items : List.Forall₂ (fun v f => h.Denotes v f ∧ h.Hashable v) vs fs) :
    Makes (Building.tuple vs) h (.node .tuple fs) := by
  have grown := h.grown_addSequence vs
  have inside : h.sequences.size < (h.addSequence vs).2.sequences.size := by simp [addSequence]
  have holds := h.sequence_addSequence_new vs (c := ⟨h.sequences.size⟩) rfl
  refine ⟨.sequence .tuple ⟨h.sequences.size⟩, (h.addSequence vs).2, rfl, grown, ?_, ?_⟩
  · refine .sequence .tuple _ inside ?_
    rw [holds]
    exact items.imp fun v f hv => hv.1.grown grown
  · refine .tuple _ inside fun v hv => ?_
    rw [holds] at hv
    obtain ⟨f, -, hf⟩ := exists_of_mem_left items hv
    exact hf.2.grown grown

/-- Keys that are found again, with what they denote. -/
def KeyedAs (h : Heap) (k : Key) (f : Form) : Prop := h.Keyed k f ∧ h.Denotes k.value f

theorem KeyedAs.grown {h' : Heap} {k : Key} {f : Form} (hk : h.KeyedAs k f) (grown : h.Grown h') :
    h'.KeyedAs k f := ⟨hk.1.grown grown, hk.2.grown grown⟩

/-- Whether such a key matches another one is decided by what they denote. -/
theorem KeyedAs.decides_matching {k l : Key} {f g : Form} (hk : h.KeyedAs k f)
    (hl : h.KeyedAs l g) : Decides (k.matching h.equal l) (f = g) :=
  KeyedWithin.decides_matching
    (fun _ _ _ _ hv hw => hv.1.decides_same hw.1 hv.2 hw.2) k l f g
    ⟨hk.1, hk.2, hk.2.within_reach⟩ ⟨hl.1, hl.2, hl.2.within_reach⟩

/-- A set of distinct elements has a hash. -/
theorem makes_frozenSet {t : Table Unit} {fs : List Form}
    (elements : List.Forall₂ (fun e f => h.KeyedAs e.1 f) t.entries fs) (distinct : fs.Nodup) :
    Makes (Building.frozenSet t) h (.node .set (Form.bag fs)) := by
  have grown := h.grown_addSet t
  have inside : h.sets.size < (h.addSet t).2.sets.size := by simp [addSet]
  have holds := h.set_addSet_new t (c := ⟨h.sets.size⟩) rfl
  refine ⟨.set .frozen ⟨h.sets.size⟩, (h.addSet t).2, rfl, grown, ?_, ?_⟩
  · refine .set .frozen _ inside ?_ ?_ distinct
    · rw [holds]
      exact elements.imp fun e f hk => hk.2.grown grown
    · rw [holds]
      exact elements.imp fun e f hk => hk.1.grown grown
  · refine .frozen _ inside fun e he => ?_
    rw [holds] at he
    obtain ⟨f, -, hf⟩ := exists_of_mem_left elements he
    exact hf.1.hashable.grown grown

/-- An element that is not there yet is added. -/
theorem insert_denotes {hash : Heap → Value → Except Error HashCode} {t : Table Unit}
    {fs : List Form} (elements : List.Forall₂ (fun e f => h.KeyedAs e.1 f) t.entries fs) {v : Value}
    {f : Form} (hv : h.Denotes v f) (hashable : h.Hashable v) (hashed : hash h v = .ok f.code)
    (new : f ∉ fs) : ∃ t', (Building.insert hash t v).run h = .ok (t', h) ∧
      List.Forall₂ (fun e f => h.KeyedAs e.1 f) t'.entries (fs ++ [f]) := by
  obtain ⟨k, made, value, stored⟩ : ∃ k, keyBy (hash h) v = .ok k ∧ k.value = v ∧
      keyBy (fun _ => .ok f.code) v = .ok k := by
    unfold keyBy
    split
    · exact ⟨_, rfl, rfl, rfl⟩
    · rw [hashed]
      exact ⟨_, rfl, rfl, rfl⟩
  subst value
  have hk : h.KeyedAs k f := ⟨⟨hashable, stored⟩, hv⟩
  obtain ⟨t', put, entries⟩ := Table.put_of_absent () fun e he => by
    obtain ⟨g, mem, hg⟩ := exists_of_mem_left elements he
    refine (hg.decides_matching hk).eq_false ?_
    rintro rfl
    exact new mem
  refine ⟨t', ?_, ?_⟩
  · show (do
      let p ← (do let k ← keyBy (hash h) k.value; pure (k, h))
      (do let u ← t.put h.equal p.1 (); pure (u, p.2))) = _
    rw [made]
    show (do let t ← t.put h.equal k (); pure (t, h)) = _
    rw [put]
    rfl
  · rw [entries]
    exact List.rel_append elements (.cons hk .nil)

section

variable {α : Type} (x : α → Building Value) {as : List α} {gs : List Form} {h₀ : Heap}

/-- Values that are made one after the other: what is said of each of them still holds in the end if
it is not lost when a heap grows. -/
theorem exists_mapM_run {β : Type} {P : β → Heap → Value → Prop} {bs : List β}
    (keeps : ∀ b (h h' : Heap) v, h.Grown h' → P b h v → P b h' v)
    (each : List.Forall₂ (fun a b => ∀ h', h₀.Grown h' →
      ∃ v h'', (x a).run h' = .ok (v, h'') ∧ h'.Grown h'' ∧ P b h'' v) as bs)
    (grown : h₀.Grown h) : ∃ vs h', (as.mapM x).run h = .ok (vs, h') ∧ h.Grown h' ∧
      List.Forall₂ (fun v b => P b h' v) vs bs := by
  induction each generalizing h with
  | nil => exact ⟨[], h, rfl, .refl h, .nil⟩
  | @cons a b as bs first rest ih =>
    obtain ⟨v, h₁, made, grown₁, hv⟩ := first h grown
    obtain ⟨vs, h', all, grown', items⟩ := ih (grown.trans grown₁)
    refine ⟨v :: vs, h', ?_, grown₁.trans grown', .cons (keeps b h₁ h' v grown' hv) items⟩
    rw [List.mapM_cons, StateT.run_bind, made]
    show (do let p ← (as.mapM x).run h₁; pure (v :: p.1, p.2)) = _
    rw [all]
    rfl

/-- Values with a hash that are made one after the other, and denote forms. -/
theorem makesAll (each : List.Forall₂ (fun a g => ∀ h', h₀.Grown h' → Makes (x a) h' g) as gs)
    (grown : h₀.Grown h) : ∃ vs h', (as.mapM x).run h = .ok (vs, h') ∧ h.Grown h' ∧
      List.Forall₂ (fun v g => h'.Denotes v g ∧ h'.Hashable v) vs gs :=
  exists_mapM_run x (fun _ _ _ _ grown hv => ⟨hv.1.grown grown, hv.2.grown grown⟩) each grown

/-- Elements that are made one after the other, and are distinct, are put into a set. -/
theorem insertAll_denotes (hash : Heap → Value → Except Error HashCode) {t : Table Unit}
    {fs : List Form} (elements : List.Forall₂ (fun e f => h.KeyedAs e.1 f) t.entries fs)
    (each : List.Forall₂ (fun a g => ∀ h', h₀.Grown h' → Makes (x a) h' g) as gs)
    (hashed : ∀ g ∈ gs, ∀ h' v, h'.Denotes v g → h'.Hashable v → hash h' v = .ok g.code)
    (distinct : (fs ++ gs).Nodup) (grown : h₀.Grown h) :
    ∃ t' h', (as.foldlM (fun t a => do
        Building.insert hash t (← x a)) t : Building (Table Unit)).run h = .ok (t', h') ∧
      h.Grown h' ∧ List.Forall₂ (fun e f => h'.KeyedAs e.1 f) t'.entries (fs ++ gs) := by
  induction each generalizing h t fs with
  | nil => exact ⟨t, h, rfl, .refl h, by simpa using elements⟩
  | @cons a g as gs first rest ih =>
    obtain ⟨v, h₁, made, grown₁, hv, hashable⟩ := first h grown
    have new : g ∉ fs := fun mem =>
      (List.nodup_append.mp distinct).2.2 g mem g List.mem_cons_self rfl
    obtain ⟨t₁, inserted, elements₁⟩ := insert_denotes (elements.imp fun _ _ hk => hk.grown grown₁)
      hv hashable (hashed g List.mem_cons_self h₁ v hv hashable) new
    obtain ⟨t', h', folded, grown', elements'⟩ := ih elements₁
      (fun g mem => hashed g (List.mem_cons_of_mem _ mem)) (by simpa using distinct)
      (grown.trans grown₁)
    refine ⟨t', h', ?_, grown₁.trans grown', by simpa using elements'⟩
    rw [List.foldlM_cons, StateT.run_bind, StateT.run_bind, made]
    show (do
      let p ← (Building.insert hash t v).run h₁
      (as.foldlM _ p.1 : Building (Table Unit)).run p.2) = _
    rw [inserted]
    exact folded

end

/-- What is made after something else was done that only adds to the heap. -/
theorem exists_run_bind {β : Type} {x : Building β} {y : β → Building Value} {b : β} {h₁ : Heap}
    {P : Heap → Value → Prop}
    (made : ∃ v h', (y b).run h₁ = .ok (v, h') ∧ h₁.Grown h' ∧ P h' v)
    (done : x.run h = .ok (b, h₁)) (grown : h.Grown h₁) :
    ∃ v h', (x >>= y).run h = .ok (v, h') ∧ h.Grown h' ∧ P h' v := by
  obtain ⟨v, h', ran, grown', hv⟩ := made
  refine ⟨v, h', ?_, grown.trans grown', hv⟩
  rw [StateT.run_bind, done]
  exact ran

theorem Makes.after {β : Type} {x : Building β} {y : β → Building Value} {b : β} {h₁ : Heap}
    {f : Form} (made : Makes (y b) h₁ f) (done : x.run h = .ok (b, h₁)) (grown : h.Grown h₁) :
    Makes (x >>= y) h f := exists_run_bind made done grown

/-! ## Depth by depth -/

/-- Values with a hash, whose form is of some depth, are hashed by the hash of their form. -/
def HashesAt (n : Nat) : Prop := ∀ (h : Heap) (v : Value) (f : Form), h.Denotes v f →
  h.Hashable v → f.depth = n → ∀ steps, n < steps → hashWithin steps h v = .ok f.code

/-- Freezing values whose form is of some depth makes values that denote the frozen form. -/
def FreezesAt (n : Nat) : Prop := ∀ (h : Heap) (v : Value) (f : Form), h.Denotes v f →
  f.depth = n → ∀ hashing steps, n < hashing → n < steps →
    Makes (freezeWithin (hashWithin hashing) steps v) h f.frozen

/-- A key is stored with the hash of its form. -/
theorem KeyedAs.hash_eq {k : Key} {f : Form} (hk : h.KeyedAs k f) : k.hash = f.code := by
  cases k with
  | text s =>
    cases hk.2.eq_text
    rfl
  | other v hash => exact hk.1.other.2

theorem hashWithin_quantity {v : Value} {q : Quantity} (hq : v.quantity? = some q) (steps : Nat) :
    hashWithin (steps + 1) h v = .ok (.ofQuantity q) := by
  cases v with
  | bool b => cases hq; rfl
  | int n => cases hq; rfl
  | float x serial => cases hq; rfl
  | _ => cases hq

/-- The hash of a scope from those of its names and frozen contents. -/
theorem hashWithin_scope {c : ScopeId} {steps : Nat} {bindings : List (Value × SlotId)}
    {vs : List Value} {h' : Heap} {ns cs : List HashCode}
    (listed : h.enumerate (h.scope c) = .ok bindings)
    (frozen : (bindings.mapM fun e =>
      freezeWithin (hashWithin steps) steps (h.slot e.2).value).run h = .ok (vs, h'))
    (names : (bindings.mapM fun e => hashWithin steps h' e.1) = .ok ns)
    (contents : vs.mapM (hashWithin steps h') = .ok cs) :
    hashWithin (steps + 1) h (.scope c) = .ok (.ofItems
      (.ofNat bindings.length :: List.zipWith (fun n v => .ofItems [n, v]) ns cs)) := by
  rw [hashWithin]
  simp only [listed, frozen, names, contents, bind, Except.bind]
  rfl

theorem hashesAt {n : Nat} (hashes : ∀ m < n, HashesAt m) (freezes : ∀ m < n, FreezesAt m) :
    HashesAt n := by
  rintro h v f hf hv rfl steps enough
  obtain ⟨steps, rfl⟩ := Nat.exists_eq_succ_of_ne_zero (Nat.ne_of_gt (Nat.zero_lt_of_lt enough))
  cases hf with
  | none => rfl
  | number hq => exact hashWithin_quantity hq steps
  | text s => rfl
  | bytes b => rfl
  | func x => rfl
  | cls x => rfl
  | @sequence kind c fs inside items =>
    cases hv with
    | number hq => cases hq
    | tuple _ _ hashable =>
      have each : List.Forall₂ (fun v f => hashWithin steps h v = .ok f.code) (h.sequence c) fs :=
        (forall₂_mem items).imp <| by
          rintro v f ⟨hf, mv, mf⟩
          have less := Form.depth_lt_of_mem .tuple mf
          exact hashes _ less h v f hf (hashable v mv) rfl steps
            (Nat.lt_of_lt_of_le less (Nat.le_of_lt_succ enough))
      show (do return HashCode.ofItems (← (h.sequence c).mapM (hashWithin steps h))) = _
      rw [mapM_eq_ok each, SequenceKind.shape, Form.code, Form.codes_eq_map]
      rfl
  | @set kind c fs inside elements keyed distinct =>
    cases hv with
    | number hq => cases hq
    | frozen =>
      have stored : (h.set c).entries.map (·.1.hash) = fs.map Form.code :=
        map_eq_map (forall₂_and keyed elements) fun e f hk => KeyedAs.hash_eq hk
      show Except.ok (HashCode.ofElements ((h.set c).entries.map (·.1.hash))) = _
      rw [stored, Form.code_set_bag]
  | @dict d ps inside keys contents keyed distinct =>
    cases hv with
    | number hq => cases hq
  | @scope c bs ps inside sorted names contents =>
    have less : ∀ p ∈ ps, p.2.depth < (Form.node .scope (ps.map .ofPair)).depth ∧
        p.2.depth < steps := fun p mem => by
      have small := Form.depth_lt_of_mem_pairs .scope mem
      omega
    have each : List.Forall₂ (fun e g => ∀ h', h.Grown h' →
        Makes (freezeWithin (hashWithin steps) steps (h.slot e.2).value) h' g)
        (bs.map fun b => (Value.text b.1, b.2)) (ps.map (·.2.frozen)) :=
      List.forall₂_map_left_iff.mpr <| List.forall₂_map_right_iff.mpr <|
        (forall₂_mem contents).imp <| by
          rintro b p ⟨hc, _, mem⟩ h' grown
          exact freezes _ (less p mem).1 h' _ _ (hc.grown grown) rfl _ _ (less p mem).2
            (less p mem).2
    obtain ⟨vs, h', frozen, grown, made⟩ := makesAll _ each (.refl h)
    have hashed : List.Forall₂ (fun v p => hashWithin steps h' v = .ok p.2.code) vs ps :=
      (forall₂_mem (List.forall₂_map_right_iff.mp made)).imp <| by
        rintro v p ⟨⟨hv, hashable⟩, _, mem⟩
        have small := less p mem
        rw [← Form.depth_frozen] at small
        rw [← Form.code_frozen]
        exact hashes _ small.1 h' v _ hv hashable rfl steps small.2
    have named : List.Forall₂ (fun e p => hashWithin steps h' e.1 = .ok p.1.code)
        (bs.map fun b => (Value.text b.1, b.2)) ps :=
      List.forall₂_map_left_iff.mpr <| names.imp fun b p hn => by
        rw [hn]
        cases steps with
        | zero => exact absurd enough (by simp [Form.depth])
        | succ steps => rfl
    have pairs : (ps.map Form.ofPair).map Form.code =
        ps.map fun p => HashCode.ofItems [p.1.code, p.2.code] := List.map_map
    rw [hashWithin_scope (sorted h.less) frozen (mapM_eq_ok named) (mapM_eq_ok hashed),
      Form.code, Form.codes_eq_map, pairs, List.zipWith_map, List.zipWith_self]
    simp only [Shape.hash, List.length_map, names.length_eq]

theorem freezeWithin_quantity {v : Value} {q : Quantity} (hq : v.quantity? = some q)
    (hash : Heap → Value → Except Error HashCode) (steps : Nat) :
    (freezeWithin hash (steps + 1) v).run h = .ok (v, h) := by
  cases v with
  | bool b => rfl
  | int n => rfl
  | float x serial => rfl
  | _ => cases hq

/-- Freezing an entry of a dictionary gives the pair of its key and its frozen content. -/
def freezeEntry (hash : Heap → Value → Except Error HashCode) (steps : Nat) (e : Key × Value) :
    Building Value := do
  Building.tuple [e.1.value, ← freezeWithin hash steps e.2]

theorem freezeWithin_dict (hash : Heap → Value → Except Error HashCode) (steps : Nat)
    (d : DictId) : freezeWithin hash (steps + 1) (.dict d) = (do
      let h ← get
      Building.frozenSet (← (h.dict d).entries.foldlM (fun t e => do
        Building.insert hash t (← freezeEntry hash steps e)) .empty)) := by
  simp only [freezeWithin, freezeEntry, bind_assoc]

theorem freezesAt {n : Nat} (hashes : ∀ m < n, HashesAt m) (freezes : ∀ m < n, FreezesAt m) :
    FreezesAt n := by
  rintro h v f hf rfl hashing steps enough enough'
  obtain ⟨steps, rfl⟩ := Nat.exists_eq_succ_of_ne_zero (Nat.ne_of_gt (Nat.zero_lt_of_lt enough'))
  have kept : ∀ {v : Value} {f : Form}, h.Denotes v f → h.Hashable v → f.frozen = f →
      (freezeWithin (hashWithin hashing) (steps + 1) v).run h = .ok (v, h) →
      Makes (freezeWithin (hashWithin hashing) (steps + 1) v) h f.frozen :=
    fun hf hv same run => ⟨_, h, run, .refl h, by rwa [same], hv⟩
  cases hf with
  | none => exact kept .none .none rfl rfl
  | number hq => exact kept (.number hq) (.number hq) rfl (freezeWithin_quantity hq _ _)
  | text s => exact kept (.text s) (.text s) rfl rfl
  | bytes b => exact kept (.bytes b) (.bytes b) rfl rfl
  | func x => exact kept (.func x) (.func x) rfl rfl
  | cls x => exact kept (.cls x) (.cls x) rfl rfl
  | scope c inside sorted names contents =>
    exact kept (.scope c inside sorted names contents) (.scope c) rfl rfl
  | @sequence kind c fs inside items =>
    obtain ⟨vs, h', frozen, grown, made⟩ := makesAll
      (freezeWithin (hashWithin hashing) steps)
      (List.forall₂_map_right_iff.mpr <| (forall₂_mem items).imp <| by
        rintro v f ⟨hf, _, mem⟩ h' grown
        have less := Form.depth_lt_of_mem kind.shape mem
        exact freezes _ less h' v f (hf.grown grown) rfl _ _ (by omega) (by omega)) (.refl h)
    have same : (Form.node kind.shape fs).frozen = .node .tuple (fs.map Form.frozen) := by
      cases kind <;> rw [SequenceKind.shape, Form.frozen, Form.frozens_eq_map]
    rw [same]
    exact (makes_tuple made).after frozen grown
  | @set kind c fs inside elements keyed distinct =>
    have less : ∀ f ∈ fs, f.depth < (Form.node .set (Form.bag fs)).depth := fun f mem =>
      Form.depth_lt_of_mem _ (Form.mem_bag.mpr mem)
    obtain ⟨t, h', filled, grown, made⟩ := insertAll_denotes
      (freezeWithin (hashWithin hashing) steps) (hashWithin hashing) (t := .empty) .nil
      (List.forall₂_map_left_iff.mpr <| (forall₂_mem (forall₂_and keyed elements)).imp <| by
          rintro e f ⟨⟨hk, hf⟩, _, mem⟩ h' grown
          have makes := freezes _ (less f mem) h' _ f (hf.grown grown) rfl hashing steps
            (by have := less f mem; omega) (by have := less f mem; omega)
          -- Elements have a hash, so they are frozen already.
          rwa [hk.hashable.frozen_eq hf] at makes)
      (fun g mem h' v hv hashable => hashes _ (less g mem) h' v g hv hashable rfl hashing
        (by have := less g mem; omega))
      distinct (.refl h)
    rw [(Denotes.set kind c inside elements keyed distinct).frozen_eq_of_set]
    exact (makes_frozenSet made distinct).after filled grown
  | @dict d ps inside keys contents keyed distinct =>
    have less : ∀ p ∈ ps, (Form.ofPair p).frozen.depth <
        (Form.node .dict (Form.bag (ps.map .ofPair))).depth ∧ p.2.depth < (Form.ofPair p).depth :=
      fun p mem => by
        rw [Form.depth_frozen]
        exact ⟨Form.depth_lt_of_mem _ (Form.mem_bag.mpr (List.mem_map_of_mem mem)),
          Nat.lt_succ_of_le (Nat.le_max_right _ _)⟩
    have distinct' : (ps.map fun p => (Form.ofPair p).frozen).Nodup :=
      List.pairwise_map.mpr ((List.pairwise_map.mp distinct).imp fun ne eq => ne (by
        rw [Form.frozen_ofPair, Form.frozen_ofPair] at eq
        exact (List.cons.inj (Form.node.inj eq).2).1))
    obtain ⟨t, h', filled, grown, made⟩ := insertAll_denotes
      (freezeEntry (hashWithin hashing) steps) (hashWithin hashing) (t := .empty) .nil
      (List.forall₂_map_right_iff.mpr <|
        (forall₂_mem (forall₂_and keyed (forall₂_and keys contents))).imp <| by
          rintro e p ⟨⟨hk, hf, hc⟩, _, mem⟩ h₁ grown
          have small := less p mem
          rw [Form.depth_frozen] at small
          obtain ⟨v, h₂, frozen, grown', hv, hashable⟩ := freezes _ (by omega) h₁ e.2 p.2
            (hc.grown grown) rfl hashing steps (by omega) (by omega)
          have both := grown.trans grown'
          rw [Form.frozen_ofPair]
          exact Makes.after (y := fun v => Building.tuple [e.1.value, v]) (makes_tuple
            (.cons ⟨hf.grown both, hk.hashable.grown both⟩ (.cons ⟨hv, hashable⟩ .nil)))
            frozen grown')
      (fun g mem h' v hv hashable => by
        obtain ⟨p, inside, rfl⟩ := List.mem_map.mp mem
        have small := (less p inside).1
        exact hashes _ small h' v _ hv hashable rfl hashing (by omega))
      distinct' (.refl h)
    rw [Form.frozen_dict, freezeWithin_dict]
    exact (makes_frozenSet made distinct').after filled grown

/-- Values are hashed by the hash of their form, and freezing makes values of the frozen form. -/
theorem hashes_and_freezes (n : Nat) : HashesAt n ∧ FreezesAt n := by
  induction n using Nat.strongRecOn with
  | ind n ih =>
    exact ⟨hashesAt (fun m less => (ih m less).1) fun m less => (ih m less).2,
      freezesAt (fun m less => (ih m less).1) fun m less => (ih m less).2⟩

end Heap

end LexEnv
