import LexEnv.Proofs.Freezing
import LexEnv.Scope
import LexEnv.Slot

/-!
# Equal scopes have equal hashes

Scopes are compared by their contents and hashed by the frozen forms of their contents. Both walks
agree on all values that are built without cycles, whose keys have not changed since they went in
(`Heap.Formed`): such a value denotes a form (`Formed.denotes`), equality is equality of forms, and the
hash is a function of the form.

Main statement: `Heap.hash_eq_of_equal`.
-/

namespace LexEnv

section

variable {α β : Type} {R : α → β → Prop} {as : List α} {bs : List β}

theorem exists_forall₂ (as : List α) (each : ∀ a ∈ as, ∃ b, R a b) : ∃ bs, List.Forall₂ R as bs := by
  induction as with
  | nil => exact ⟨[], .nil⟩
  | cons a as ih =>
    obtain ⟨b, first⟩ := each a List.mem_cons_self
    obtain ⟨bs, rest⟩ := ih fun a' mem => each a' (List.mem_cons_of_mem _ mem)
    exact ⟨b :: bs, .cons first rest⟩

/-- What holds between any two elements carries over to their partners. -/
theorem pairwise_of_forall₂ {P : α → α → Prop} {Q : β → β → Prop} (related : List.Forall₂ R as bs)
    (pairs : as.Pairwise P) (step : ∀ a a' b b', R a b → R a' b' → P a a' → Q b b') :
    bs.Pairwise Q := by
  induction related with
  | nil => exact .nil
  | cons first rest ih =>
    rw [List.pairwise_cons] at pairs
    refine List.pairwise_cons.mpr ⟨fun b mem => ?_, ih pairs.2⟩
    obtain ⟨a, ma, r⟩ := exists_of_mem_right rest mem
    exact step _ _ _ _ first r (pairs.1 a ma)

end

/-- Putting something keeps the keys, or adds one that none of them matches. -/
theorem Entries.keys_putMatching_cases {α : Type} {equal : Value → Value → Except Error Bool}
    {k : Key} {a : α} {es fs : List (Key × α)} (done : putMatching equal k a es = .ok fs) :
    keys fs = keys es ∨
      keys fs = keys es ++ [k] ∧ ∀ l ∈ keys es, l.matching equal k = .ok false := by
  induction es generalizing fs with
  | nil =>
    cases done
    exact .inr ⟨rfl, fun _ mem => (List.not_mem_nil mem).elim⟩
  | cons e es ih =>
    obtain ⟨l, b⟩ := e
    rw [putMatching] at done
    cases compared : l.matching equal k with
    | error e =>
      rw [compared] at done
      cases done
    | ok found =>
      rw [compared] at done
      cases found with
      | true =>
        cases done
        exact .inl rfl
      | false =>
        cases rest : putMatching equal k a es with
        | error e =>
          rw [rest] at done
          cases done
        | ok gs =>
          rw [rest] at done
          cases done
          rcases ih rest with same | ⟨added, absent⟩
          · exact .inl (congrArg (l :: ·) same)
          · refine .inr ⟨congrArg (l :: ·) added, fun l' mem => ?_⟩
            rcases List.mem_cons.mp mem with rfl | mem
            · exact compared
            · exact absent l' mem

theorem exists_of_mapM_ok {α β : Type} {x : α → Except Error β} {as : List α} {bs : List β}
    (done : as.mapM x = .ok bs) {a : α} (mem : a ∈ as) : ∃ b, x a = .ok b := by
  induction as generalizing bs with
  | nil => cases mem
  | cons a' as ih =>
    rw [List.mapM_cons] at done
    cases first : x a' with
    | error e =>
      rw [first] at done
      cases done
    | ok b =>
      rw [first] at done
      cases rest : as.mapM x with
      | error e =>
        rw [rest] at done
        cases done
      | ok bs =>
        rcases List.mem_cons.mp mem with rfl | mem
        · exact ⟨b, first⟩
        · exact ih rest mem

namespace Heap

/-! ## Values built without cycles -/

/-- The keys of a table are still what they were when they went in: each has the hash that it was
stored with, and none matches another one. -/
structure Intact {α : Type} (h : Heap) (t : Table α) : Prop where
  current : ∀ k ∈ Entries.keys t.entries, h.key k.value = .ok k
  distinct : (Entries.keys t.entries).Pairwise fun k l => k.matching h.equal l ≠ .ok true

/-- Values built without cycles of numbers, texts, functions, classes, containers with intact keys,
and scopes that bind texts to slots with such values. -/
inductive Formed (h : Heap) : Value → Prop where
  | none : Formed h .none
  | bool (b : Bool) : Formed h (.bool b)
  | int (n : Int) : Formed h (.int n)
  | float (x : Number.Binary64) (serial : Nat) : Formed h (.float x serial)
  | text (s : String) : Formed h (.text s)
  | bytes (b : List UInt8) : Formed h (.bytes b)
  | func (f : Func) : Formed h (.func f)
  | cls (c : Class) : Formed h (.cls c)
  | sequence (kind : SequenceKind) (c : SequenceId) (inside : c.index < h.sequences.size)
    (items : ∀ v ∈ h.sequence c, Formed h v) : Formed h (.sequence kind c)
  | set (kind : SetKind) (c : SetId) (inside : c.index < h.sets.size)
    (elements : ∀ e ∈ (h.set c).entries, Formed h e.1.value) (intact : h.Intact (h.set c)) :
    Formed h (.set kind c)
  | dict (d : DictId) (inside : d.index < h.dicts.size)
    (keys : ∀ e ∈ (h.dict d).entries, Formed h e.1.value)
    (contents : ∀ e ∈ (h.dict d).entries, Formed h e.2) (intact : h.Intact (h.dict d)) :
    Formed h (.dict d)
  | scope (c : ScopeId) (inside : c.index < h.scopes.size) (textual : (h.scope c).Textual)
    (contents : ∀ e ∈ (h.scope c).entries, Formed h (h.slot e.2).value) : Formed h (.scope c)

variable {h : Heap}

/-- A scope with one name. -/
theorem Formed.scope_one {c : ScopeId} {name : String} {t : SlotId}
    (inside : c.index < h.scopes.size) (entries : (h.scope c).entries = [(.text name, t)])
    (content : h.Formed (h.slot t).value) : h.Formed (.scope c) := by
  refine .scope c inside ⟨[(name, t)], entries⟩ fun e mem => ?_
  rw [entries] at mem
  rw [List.mem_singleton.mp mem]
  exact content

/-! ## Tables that are filled -/

theorem intact_empty {α : Type} : h.Intact (Table.empty : Table α) :=
  ⟨fun _ mem => (List.not_mem_nil mem).elim, List.Pairwise.nil⟩

/-- Putting something under a key that has its present hash keeps the keys intact. -/
theorem Intact.put {α : Type} {t u : Table α} {k : Key} {a : α} (intact : h.Intact t)
    (current : h.key k.value = .ok k) (done : h.put k a t = .ok u) : h.Intact u := by
  have keys : Entries.putMatching h.equal k a t.entries = .ok u.entries := by
    unfold Heap.put Table.put at done
    split at done
    · next es put =>
      cases done
      exact put
    · cases done
  rcases Entries.keys_putMatching_cases keys with same | ⟨added, absent⟩
  · exact ⟨same ▸ intact.current, same ▸ intact.distinct⟩
  · refine ⟨fun l mem => ?_, ?_⟩
    · rw [added, List.mem_append, List.mem_singleton] at mem
      rcases mem with old | rfl
      · exact intact.current l old
      · exact current
    · rw [added, List.pairwise_append]
      refine ⟨intact.distinct, List.pairwise_singleton _ _, fun l mem k' new matched => ?_⟩
      rw [List.mem_singleton.mp new, absent l mem] at matched
      cases matched

/-! ## What they denote -/

/-- A value that is hashed has a hash. -/
theorem Denotes.hashable {v : Value} {f : Form} {steps : Nat} {code : HashCode}
    (hf : h.Denotes v f) (hashed : hashWithin steps h v = .ok code) : h.Hashable v := by
  induction hn : f.depth using Nat.strongRecOn generalizing v f steps code with
  | ind n ih =>
    subst hn
    cases steps with
    | zero => cases hashed
    | succ steps =>
    cases hf with
    | none => exact .none
    | number hq => exact .number hq
    | text s => exact .text s
    | bytes b => exact .bytes b
    | func x => exact .func x
    | cls x => exact .cls x
    | scope c => exact .scope c
    | dict d => cases hashed
    | sequence kind c inside items =>
      cases kind with
      | list => cases hashed
      | tuple =>
        refine .tuple c inside fun v mem => ?_
        obtain ⟨f, part, hv⟩ := exists_of_mem_left items mem
        cases all : (h.sequence c).mapM (hashWithin steps h) with
        | error e =>
          rw [hashWithin, all] at hashed
          cases hashed
        | ok codes =>
          obtain ⟨code, itemHashed⟩ := exists_of_mapM_ok all mem
          exact ih _ (Form.depth_lt_of_mem _ part) hv itemHashed rfl
    | set kind c inside elements keyed =>
      cases kind with
      | changing => cases hashed
      | frozen =>
        refine .frozen c inside fun e mem => ?_
        obtain ⟨f, _, hk⟩ := exists_of_mem_left keyed mem
        exact hk.hashable

/-- A value with a hash is hashed by the hash of its form. -/
theorem Denotes.hash_eq {v : Value} {f : Form} (hf : h.Denotes v f) (hashable : h.Hashable v) :
    h.hash v = .ok f.code :=
  (hashes_and_freezes _).1 h v f hf hashable rfl _ hf.within_reach

/-- A key that has its present hash is found again. -/
theorem Denotes.keyed {k : Key} {f : Form} (hf : h.Denotes k.value f)
    (current : h.key k.value = .ok k) : h.Keyed k f := by
  cases k with
  | text s => exact ⟨.text s, rfl⟩
  | other v hash =>
    rw [key, Key.value, keyBy.eq_def] at current
    split at current
    · cases current
    · next text =>
      cases hashed : h.hash v with
      | error e =>
        rw [hashed] at current
        cases current
      | ok code =>
        rw [hashed] at current
        cases current
        have hashable := hf.hashable hashed
        refine ⟨hashable, ?_⟩
        rw [Key.value, keyBy.eq_def]
        split
        · next s => exact absurd rfl (text s)
        · rw [← hf.hash_eq hashable, Key.value, hashed]
          rfl

/-- Different keys of an intact table denote different forms. -/
theorem Intact.nodup {α : Type} {t : Table α} (intact : h.Intact t) {fs : List Form}
    (keys : List.Forall₂ (fun e f => h.KeyedAs e.1 f) t.entries fs) : fs.Nodup :=
  pairwise_of_forall₂ keys (List.pairwise_map.mp intact.distinct) fun _ _ _ _ hk hl ne eq =>
    ne ((hk.decides_matching hl).eq_true eq)

/-- A scope with texts only lists its names in an order that does not depend on anything else. -/
theorem exists_sorted {t : Scope} (textual : t.Textual) : ∃ bs : List (String × SlotId),
    (∀ less, t.ascending less = .ok (bs.map fun b => (.text b.1, b.2))) ∧
      ∀ b ∈ bs, (.text b.1, b.2) ∈ t.entries := by
  obtain ⟨m, -, found⟩ := textual.ascending fun _ _ => .ok true
  refine ⟨m.entries, fun less => ?_, fun b mem => ?_⟩
  · obtain ⟨m', listed, found'⟩ := textual.ascending less
    rw [listed, NameMap.ext_get? fun name => (found' name).trans (found name).symm]
  · exact Table.mem_of_get? ((found b.1).symm.trans (NameMap.mem_entries.mp mem))

/-- Every value that is built so denotes a form. -/
theorem Formed.denotes {v : Value} (formed : h.Formed v) : ∃ f, h.Denotes v f := by
  induction formed with
  | none => exact ⟨_, .none⟩
  | bool b => exact ⟨_, .number rfl⟩
  | int n => exact ⟨_, .number rfl⟩
  | float x serial => exact ⟨_, .number rfl⟩
  | text s => exact ⟨_, .text s⟩
  | bytes b => exact ⟨_, .bytes b⟩
  | func f => exact ⟨_, .func f⟩
  | cls c => exact ⟨_, .cls c⟩
  | sequence kind c inside _ ih =>
    obtain ⟨fs, items⟩ := exists_forall₂ _ ih
    exact ⟨_, .sequence kind c inside items⟩
  | set kind c inside _ intact ih =>
    obtain ⟨fs, elements⟩ := exists_forall₂ _ ih
    have keys : List.Forall₂ (fun e f => h.KeyedAs e.1 f) (h.set c).entries fs :=
      (forall₂_mem elements).imp fun e f ⟨hf, mem, _⟩ => ⟨hf.keyed (intact.current _ (List.mem_map_of_mem mem)), hf⟩
    exact ⟨_, .set kind c inside elements (keys.imp fun _ _ hk => hk.1) (intact.nodup keys)⟩
  | dict d inside _ _ intact ihk ihc =>
    obtain ⟨ps, entries⟩ := exists_forall₂ _
      (R := fun (e : Key × Value) (p : Form × Form) =>
        h.Denotes e.1.value p.1 ∧ h.Denotes e.2 p.2)
      fun e mem => by
        obtain ⟨f, hf⟩ := ihk e mem
        obtain ⟨g, hg⟩ := ihc e mem
        exact ⟨(f, g), hf, hg⟩
    have keys : List.Forall₂ (fun e p => h.KeyedAs e.1 p.1) (h.dict d).entries ps :=
      (forall₂_mem entries).imp fun e p ⟨hp, mem, _⟩ =>
        ⟨hp.1.keyed (intact.current _ (List.mem_map_of_mem mem)), hp.1⟩
    exact ⟨_, .dict d inside (entries.imp fun _ _ hp => hp.1) (entries.imp fun _ _ hp => hp.2)
      (keys.imp fun _ _ hk => hk.1) (intact.nodup (List.forall₂_map_right_iff.mpr keys))⟩
  | scope c inside textual _ ih =>
    obtain ⟨bs, sorted, bound⟩ := exists_sorted textual
    obtain ⟨ps, parts⟩ := exists_forall₂ bs
      (R := fun b (p : Form × Form) => p.1 = .text b.1 ∧ h.Denotes (h.slot b.2).value p.2)
      fun b mem => by
        obtain ⟨f, hf⟩ := ih _ (bound b mem)
        exact ⟨(.text b.1, f), rfl, hf⟩
    exact ⟨_, .scope c inside sorted (parts.imp fun _ _ hp => hp.1)
      (parts.imp fun _ _ hp => hp.2)⟩

/-! ## Equal scopes -/

/-- Equal scopes have equal hashes. -/
theorem hash_eq_of_equal {a b : ScopeId} (ha : h.Formed (.scope a)) (hb : h.Formed (.scope b))
    (equal : h.equal (.scope a) (.scope b) = .ok true) :
    ∃ code, h.hash (.scope a) = .ok code ∧ h.hash (.scope b) = .ok code := by
  obtain ⟨f, hf⟩ := ha.denotes
  obtain ⟨g, hg⟩ := hb.denotes
  have same : sameBy h.equal (.scope a) (.scope b) = .ok true := by
    unfold sameBy
    split
    · rfl
    · exact equal
  have eq := (hf.decides_same hg hf.within_reach hg.within_reach).holds same
  exact ⟨f.code, hf.hash_eq (.scope a), eq ▸ hg.hash_eq (.scope b)⟩

/-- Two scopes with the same names in another order, bound to slots of other kinds: numbers of other
types, and a set that can change and one that cannot, filled in another order. -/
def mixing : Action Unit := do
  let whole ← Value.putIn (← Value.putIn .empty (.int 1) ()) (.int 2) ()
  let mixed ← Value.putIn (← Value.putIn .empty (.int 2) ()) (.bool true) ()
  let a ← ScopeId.create .empty
  let b ← ScopeId.create .empty
  a.defineConst (.text "x") (.int 1)
  a.defineMut (.text "y") (← Value.newSet .changing whole)
  b.defineConst (.text "y") (← Value.newSet .frozen mixed)
  b.defineMut (.text "x") (.bool true)

/-- The heap with both scopes. -/
def mixed : Heap := (mixing.run .initial).2.heap

theorem hash_eq_of_equal_mixed : mixed.Formed (.scope ⟨0⟩) ∧ mixed.Formed (.scope ⟨1⟩) ∧
    mixed.equal (.scope ⟨0⟩) (.scope ⟨1⟩) = .ok true ∧
    ∃ code, mixed.hash (.scope ⟨0⟩) = .ok code ∧ mixed.hash (.scope ⟨1⟩) = .ok code := by
  have whole : mixed.Formed (.set .changing ⟨0⟩) := by
    refine .set _ _ (by decide +kernel) (fun e mem => ?_)
      ((intact_empty.put (k := .other (.int 1) (.ofNat 1)) rfl rfl).put
        (k := .other (.int 2) (.ofNat 2)) (u := mixed.set ⟨0⟩) rfl rfl)
    rcases (mem : e ∈ [(Key.other (.int 1) (.ofNat 1), ()), (.other (.int 2) (.ofNat 2), ())])
      with _ | ⟨_, _ | ⟨_, ⟨⟩⟩⟩
    · exact .int 1
    · exact .int 2
  have half : mixed.Formed (.set .frozen ⟨1⟩) := by
    refine .set _ _ (by decide +kernel) (fun e mem => ?_)
      ((intact_empty.put (k := .other (.int 2) (.ofNat 2)) rfl rfl).put
        (k := .other (.bool true) (.ofNat 1)) (u := mixed.set ⟨1⟩) rfl rfl)
    rcases (mem : e ∈ [(Key.other (.int 2) (.ofNat 2), ()), (.other (.bool true) (.ofNat 1), ())])
      with _ | ⟨_, _ | ⟨_, ⟨⟩⟩⟩
    · exact .int 2
    · exact .bool true
  have a : mixed.Formed (.scope ⟨0⟩) := by
    refine .scope _ (by decide +kernel) ⟨[("x", ⟨0⟩), ("y", ⟨1⟩)], rfl⟩ fun e mem => ?_
    rcases (mem : e ∈ [(Key.text "x", (⟨0⟩ : SlotId)), (.text "y", ⟨1⟩)]) with _ | ⟨_, _ | ⟨_, ⟨⟩⟩⟩
    · exact .int 1
    · exact whole
  have b : mixed.Formed (.scope ⟨1⟩) := by
    refine .scope _ (by decide +kernel) ⟨[("y", ⟨2⟩), ("x", ⟨3⟩)], rfl⟩ fun e mem => ?_
    rcases (mem : e ∈ [(Key.text "y", (⟨2⟩ : SlotId)), (.text "x", ⟨3⟩)]) with _ | ⟨_, _ | ⟨_, ⟨⟩⟩⟩
    · exact half
    · exact .bool true
  have equal : mixed.equal (.scope ⟨0⟩) (.scope ⟨1⟩) = .ok true := rfl
  exact ⟨a, b, equal, hash_eq_of_equal a b equal⟩

end Heap

end LexEnv
