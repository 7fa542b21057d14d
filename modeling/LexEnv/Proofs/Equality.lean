import LexEnv.Proofs.Denotation
import Mathlib.Data.List.Nodup

/-!
# Equality is equality of forms

Comparing two values that denote forms always has an answer, and it decides whether the forms are the
same (`Denotes.decides_same`). The comparison of sets and dictionaries is the one that takes an
argument: it looks for every key of one in the other, so it decides inclusion, and the sizes make
inclusion equality since no key occurs twice.
-/

namespace LexEnv

/-! ## Comparisons that have an answer -/

/-- A comparison has an answer and decides whether something is the case. -/
def Decides (r : Except Error Bool) (p : Prop) : Prop := ∃ b, r = .ok b ∧ (b = true ↔ p)

namespace Decides

variable {r s : Except Error Bool} {p q : Prop}

theorem ok {b : Bool} (h : b = true ↔ p) : Decides (.ok b) p := ⟨b, rfl, h⟩

theorem yes (h : p) : Decides (.ok true) p := ok ⟨fun _ => h, fun _ => rfl⟩

theorem no (h : ¬p) : Decides (.ok false) p :=
  ok ⟨fun same => absurd same Bool.false_ne_true, fun hp => absurd hp h⟩

theorem congr (h : Decides r p) (same : p ↔ q) : Decides r q := by
  obtain ⟨b, eq, iff⟩ := h
  exact ⟨b, eq, iff.trans same⟩

theorem holds (h : Decides r p) (yes : r = .ok true) : p := by
  obtain ⟨b, eq, iff⟩ := h
  rw [eq] at yes
  exact iff.mp (Except.ok.inj yes)

theorem eq_true (h : Decides r p) (hp : p) : r = .ok true := by
  obtain ⟨b, eq, iff⟩ := h
  rw [eq, iff.mpr hp]

theorem eq_false (h : Decides r p) (hp : ¬p) : r = .ok false := by
  obtain ⟨b, eq, iff⟩ := h
  rw [eq, Bool.eq_false_iff.mpr fun yes => hp (iff.mp yes)]

/-- A second comparison that is made only if the first one is positive. -/
theorem and (h : Decides r p) (next : Decides s q) :
    Decides (do if ← r then s else return false) (p ∧ q) := by
  obtain ⟨b, rfl, iff⟩ := h
  cases b with
  | true => exact next.congr ⟨fun hq => ⟨iff.mp rfl, hq⟩, And.right⟩
  | false => exact no fun hpq => Bool.false_ne_true (iff.mpr hpq.1)

/-- A comparison of all elements. -/
theorem allM {α β : Type} {test : α → Except Error Bool} {P : β → Prop} {as : List α}
    {bs : List β} (h : List.Forall₂ (fun a b => Decides (test a) (P b)) as bs) :
    Decides (as.allM test) (∀ b ∈ bs, P b) := by
  induction h with
  | nil => exact yes (by simp)
  | cons first _ ih =>
    rw [List.allM]
    obtain ⟨b, eq, iff⟩ := first
    rw [eq]
    cases b with
    | true => exact ih.congr (by simp [iff.mp rfl])
    | false => exact no fun all => Bool.false_ne_true (iff.mpr (all _ List.mem_cons_self))

/-- A comparison of two lists item by item. -/
theorem sameItems {same : Value → Value → Except Error Bool} {R : Value → Form → Prop}
    (each : ∀ v w f g, R v f → R w g → Decides (same v w) (f = g)) {vs ws : List Value}
    {fs gs : List Form} (hv : List.Forall₂ R vs fs) (hw : List.Forall₂ R ws gs) :
    Decides (LexEnv.sameItems same vs ws) (fs = gs) := by
  induction hv generalizing ws gs with
  | nil => cases hw with
    | nil => exact yes rfl
    | cons => exact no (List.cons_ne_nil _ _).symm
  | cons first _ ih => cases hw with
    | nil => exact no (List.cons_ne_nil _ _)
    | cons first' rest =>
      rw [LexEnv.sameItems]
      exact ((each _ _ _ _ first first').and (ih rest)).congr (by rw [List.cons.injEq])

end Decides

/-! ## Tables -/

section

variable {α γ : Type} {equal : Value → Value → Except Error Bool} {same : α → α → Except Error Bool}
  {K : Key → Form → Prop} {S : α → γ → Prop}

/-- Looking for a key finds the content of the entry with the form that the key has, if there is
one. -/
theorem findMatching_denotes
    (keys : ∀ k l f g, K k f → K l g → Decides (k.matching equal l) (f = g))
    {es : List (Key × α)} {qs : List (Form × γ)}
    (entries : List.Forall₂ (fun e q => K e.1 q.1 ∧ S e.2 q.2) es qs) {k : Key} {f : Form}
    (hk : K k f) :
    (∃ b y, Entries.findMatching equal k es = .ok (some b) ∧ S b y ∧ (f, y) ∈ qs) ∨
      Entries.findMatching equal k es = .ok none ∧ ∀ y, (f, y) ∉ qs := by
  induction entries with
  | nil => exact .inr ⟨rfl, by simp⟩
  | @cons e q es qs first _ ih =>
    have compared := keys _ _ _ _ first.1 hk
    rw [Entries.findMatching]
    by_cases eq : q.1 = f
    · rw [compared.eq_true eq]
      exact .inl ⟨e.2, q.2, rfl, first.2, eq ▸ List.mem_cons_self⟩
    · rw [compared.eq_false eq]
      rcases ih with ⟨b, y, found, hb, mem⟩ | ⟨missing, absent⟩
      · exact .inl ⟨b, y, found, hb, List.mem_cons_of_mem _ mem⟩
      · refine .inr ⟨missing, fun y mem => ?_⟩
        rcases List.mem_cons.mp mem with here | mem
        · exact eq (here ▸ rfl)
        · exact absent y mem

/-- Comparing the entries of a table with those of another one decides inclusion. -/
theorem Decides.within
    (keys : ∀ k l f g, K k f → K l g → Decides (k.matching equal l) (f = g))
    (contents : ∀ a b x y, S a x → S b y → Decides (same a b) (x = y))
    {t u : Table α} {ps qs : List (Form × γ)}
    (ht : List.Forall₂ (fun e p => K e.1 p.1 ∧ S e.2 p.2) t.entries ps)
    (hu : List.Forall₂ (fun e q => K e.1 q.1 ∧ S e.2 q.2) u.entries qs)
    (distinct : (qs.map (·.1)).Nodup) : Decides (t.within equal same u) (ps ⊆ qs) := by
  refine Decides.allM (ht.imp fun e p ⟨hk, hc⟩ => ?_)
  obtain ⟨k, a⟩ := e
  obtain ⟨f, x⟩ := p
  rcases findMatching_denotes keys hu hk with ⟨b, y, found, hb, mem⟩ | ⟨missing, absent⟩
  · simp only [Table.find?, found]
    refine Decides.congr (contents _ _ _ _ hc hb) ⟨?_, fun mem' => ?_⟩
    · rintro rfl
      exact mem
    · -- Two entries with the same key are one.
      exact congrArg Prod.snd (List.inj_on_of_nodup_map distinct mem' mem rfl)
  · simp only [Table.find?, missing]
    exact .no (absent x)

end

/-- Of distinct parts, the order of which does not matter, inclusion decides whether they are the
same as so many others. -/
theorem Form.bag_map_eq_iff {β : Type} {part : β → Form} (injective : Function.Injective part)
    (bs cs : List β) (distinct : bs.Nodup) (size : bs.length = cs.length) :
    bag (bs.map part) = bag (cs.map part) ↔ bs ⊆ cs := by
  rw [bag_eq_iff]
  refine ⟨fun perm b mem => ?_, fun sub => ?_⟩
  · obtain ⟨c, mem', eq⟩ := List.mem_map.mp (perm.subset (List.mem_map_of_mem mem))
    exact injective eq ▸ mem'
  · exact ((List.subperm_of_subset distinct sub).perm_of_length_le (Nat.le_of_eq size.symm)).map part

/-- Keys and contents one after the other show what belongs together. -/
theorem Form.flatMap_parts_injective :
    Function.Injective fun ps : List (Form × Form) => ps.flatMap fun p => [p.1, p.2] := by
  intro ps qs same
  induction ps generalizing qs with
  | nil => cases qs with
    | nil => rfl
    | cons q qs => cases same
  | cons p ps ih => cases qs with
    | nil => cases same
    | cons q qs =>
      simp only [List.flatMap_cons, List.cons_append, List.nil_append, List.cons.injEq] at same
      rw [Prod.ext same.1 same.2.1, ih same.2.2]

namespace Heap

variable {h : Heap}

/-! ## Keys -/

theorem Denotes.eq_text {s : String} {f : Form} (hf : h.Denotes (.text s) f) : f = .text s :=
  hf.unique (.text s)

theorem Denotes.of_text {v : Value} {s : String} (hf : h.Denotes v (.text s)) : v = .text s := by
  cases hf
  rfl

/-- A key that is no text has been stored with the hash of its form. -/
theorem Keyed.other {v : Value} {hash : HashCode} {f : Form} (hk : h.Keyed (.other v hash) f) :
    (∀ s, v ≠ .text s) ∧ hash = f.code := by
  have stored := hk.stored
  rw [Key.value, keyBy.eq_def] at stored
  split at stored
  · cases stored
  · next text =>
    cases stored
    exact ⟨text, rfl⟩

/-! ## Values -/

/-- A value denotes a form that is less deep than so many steps. -/
def DenotesWithin (h : Heap) (steps : Nat) (v : Value) (f : Form) : Prop :=
  h.Denotes v f ∧ f.depth < steps

section

variable {steps : Nat}

theorem Denotes.within {vs : List Value} {fs : List Form} {shape : Shape}
    (items : List.Forall₂ h.Denotes vs fs) (enough : (Form.node shape fs).depth < steps + 1) :
    List.Forall₂ (h.DenotesWithin steps) vs fs :=
  (forall₂_mem items).imp fun _ _ ⟨hf, _, mem⟩ =>
    ⟨hf, Nat.lt_of_lt_of_le (Form.depth_lt_of_mem _ mem) (Nat.le_of_lt_succ enough)⟩

/-- A key that is found again, and denotes a form that is less deep than so many steps. -/
def KeyedWithin (h : Heap) (steps : Nat) (k : Key) (f : Form) : Prop :=
  h.Keyed k f ∧ h.DenotesWithin steps k.value f

/-- Whether a key matches another one is decided by their values. -/
theorem KeyedWithin.decides_matching {equal : Value → Value → Except Error Bool}
    (same : ∀ v w f g, h.DenotesWithin steps v f → h.DenotesWithin steps w g →
      Decides (sameBy equal v w) (f = g)) (k l : Key) (f g : Form)
    (hk : h.KeyedWithin steps k f) (hl : h.KeyedWithin steps l g) :
    Decides (k.matching equal l) (f = g) := by
  obtain ⟨keyed, hf⟩ := hk
  obtain ⟨keyed', hg⟩ := hl
  cases k with
  | text s =>
    cases hf.1.eq_text
    cases l with
    | text t =>
      cases hg.1.eq_text
      exact .ok (by simp)
    | other w hash => exact .no fun eq => keyed'.other.1 s (eq ▸ hg.1).of_text
  | other v hash =>
    cases l with
    | text t =>
      cases hg.1.eq_text
      exact .no fun eq => keyed.other.1 t (eq ▸ hf.1).of_text
    | other w hash' =>
      rw [Key.matching]
      split
      · exact same _ _ _ _ hf hg
      · next ne => exact .no fun eq => ne (by rw [keyed.other.2, keyed'.other.2, eq])

/-- The elements of a set with their forms, as entries with nothing under their keys. -/
theorem Denotes.elements_within {es : List (Key × Unit)} {fs : List Form}
    (elements : List.Forall₂ (fun e f => h.Denotes e.1.value f) es fs)
    (keyed : List.Forall₂ (fun e f => h.Keyed e.1 f) es fs)
    (enough : (Form.node .set (Form.bag fs)).depth < steps + 1) :
    List.Forall₂ (fun e q => h.KeyedWithin steps e.1 q.1 ∧ True) es (fs.map (·, ())) := by
  refine List.forall₂_map_right_iff.mpr ((forall₂_mem (forall₂_and elements keyed)).imp ?_)
  rintro e f ⟨⟨hf, hk⟩, _, mem⟩
  have less := Form.depth_lt_of_mem .set (Form.mem_bag.mpr mem)
  exact ⟨⟨hk, hf, Nat.lt_of_lt_of_le less (Nat.le_of_lt_succ enough)⟩, trivial⟩

/-- The entries of a dictionary with their forms. -/
theorem Denotes.entries_within {es : List (Key × Value)} {ps : List (Form × Form)}
    (keys : List.Forall₂ (fun e p => h.Denotes e.1.value p.1) es ps)
    (contents : List.Forall₂ (fun e p => h.Denotes e.2 p.2) es ps)
    (keyed : List.Forall₂ (fun e p => h.Keyed e.1 p.1) es ps)
    (enough : (Form.node .dict (Form.bag (ps.map .ofPair))).depth < steps + 1) :
    List.Forall₂ (fun e p => h.KeyedWithin steps e.1 p.1 ∧ h.DenotesWithin steps e.2 p.2) es ps := by
  refine (forall₂_mem (forall₂_and keys (forall₂_and contents keyed))).imp ?_
  rintro e p ⟨⟨hk, hc, keyed⟩, _, mem⟩
  have less := Form.depth_lt_of_mem_bag_pairs .dict mem
  exact ⟨⟨keyed, hk, by omega⟩, hc, by omega⟩

/-- The names and contents of a scope with their forms, one after the other. -/
theorem Denotes.parts_within {bs : List (String × SlotId)} {ps : List (Form × Form)}
    (names : List.Forall₂ (fun b p => p.1 = .text b.1) bs ps)
    (contents : List.Forall₂ (fun b p => h.Denotes (h.slot b.2).value p.2) bs ps)
    (enough : (Form.node .scope (ps.map .ofPair)).depth < steps + 1) :
    List.Forall₂ (h.DenotesWithin steps)
      ((bs.map fun b => (Value.text b.1, b.2)).flatMap fun (name, t) => [name, (h.slot t).value])
      (ps.flatMap fun p => [p.1, p.2]) := by
  rw [List.flatMap_map]
  refine List.rel_flatMap (R := fun b p => (p.1 = .text b.1 ∧
    h.Denotes (h.slot b.2).value p.2) ∧ b ∈ bs ∧ p ∈ ps) (forall₂_mem (forall₂_and names contents)) ?_
  rintro b p ⟨⟨hn, hc⟩, _, mem⟩
  have less := Form.depth_lt_of_mem_pairs .scope mem
  exact .cons ⟨hn ▸ .text b.1, by omega⟩ (.cons ⟨hc, by omega⟩ .nil)

/-- What is no number is known by its serial number. -/
theorem eq_of_undefined {v : Value} {serial : Nat}
    (hv : v.quantity? = some (.undefined serial)) : v = .float .nan serial := by
  cases v with
  | float x s =>
    cases x with
    | nan =>
      cases hv
      rfl
    | _ => cases hv
  | _ => cases hv

/-- Different numbers compare by their quantities. -/
theorem decides_quantities {v w : Value} {q r : Quantity} (ne : v ≠ w)
    (hq : v.quantity? = some q) (hr : w.quantity? = some r) :
    Decides (.ok (q.equal r)) (Form.number q = .number r) := by
  cases q with
  | undefined serial =>
    refine .no fun eq => ne ?_
    cases eq
    rw [eq_of_undefined hq, eq_of_undefined hr]
  | exact q => exact .ok (by simp [Quantity.equal])
  | infinite negative => exact .ok (by simp [Quantity.equal])

/-- Inside containers, comparing two values decides whether they denote the same form. -/
theorem Denotes.decides_same {v w : Value} {f g : Form} (hv : h.Denotes v f) (hw : h.Denotes w g)
    {steps : Nat} (enough : f.depth < steps) (enough' : g.depth < steps) :
    Decides (sameBy (h.equalWithin steps) v w) (f = g) := by
  induction steps generalizing v w f g with
  | zero => exact absurd enough (Nat.not_lt_zero _)
  | succ steps ih =>
    have each : ∀ v w f g, h.DenotesWithin steps v f → h.DenotesWithin steps w g →
        Decides (sameBy (h.equalWithin steps) v w) (f = g) :=
      fun _ _ _ _ ⟨hv, less⟩ ⟨hw, less'⟩ => ih hv hw less less'
    have keys : ∀ k l f g, h.KeyedWithin steps k f → h.KeyedWithin steps l g →
        Decides (k.matching (h.equalWithin steps) l) (f = g) :=
      KeyedWithin.decides_matching each
    unfold sameBy
    split
    · next eq =>
      subst eq
      exact .yes (hv.unique hw)
    next ne =>
    unfold equalWithin
    split
    · next c d =>
      cases hv with | number hq => cases hq | sequence _ _ _ items =>
      cases hw with | number hq => cases hq | sequence _ _ _ items' =>
      have compared := Decides.sameItems each (within items enough) (within items' enough')
      split
      · exact compared.congr (by simp)
      · next longer =>
        refine .no fun eq => longer ?_
        cases eq
        rw [items.length_eq, items'.length_eq]
    · next c d =>
      cases hv with | number hq => cases hq | sequence _ _ _ items =>
      cases hw with | number hq => cases hq | sequence _ _ _ items' =>
      have compared := Decides.sameItems each (within items enough) (within items' enough')
      exact compared.congr (by simp)
    · next kind c kind' d =>
      cases hv with | number hq => cases hq | @set _ _ fs _ elements keyed distinct =>
      cases hw with | number hq => cases hq | @set _ _ gs _ elements' keyed' distinct' =>
      have compared := Decides.within (S := fun (_ _ : Unit) => True) keys
        (fun _ _ _ _ _ _ => .yes rfl) (elements_within elements keyed enough)
        (elements_within elements' keyed' enough') (by simpa [Function.comp_def] using distinct')
      have bags := Form.bag_map_eq_iff Function.injective_id fs gs distinct
      simp only [List.map_id] at bags
      split
      · next size =>
        rw [Table.size, Table.size, elements.length_eq, elements'.length_eq] at size
        refine compared.congr ?_
        rw [List.map_subset_iff _ fun _ _ eq => congrArg Prod.fst eq, ← bags size]
        simp
      · next size =>
        refine .no fun eq => size ?_
        rw [Table.size, Table.size, elements.length_eq, elements'.length_eq]
        exact (Form.bag_eq_iff.mp (Form.node.inj eq).2).length_eq
    · next c d =>
      cases hv with | number hq => cases hq | @dict _ ps _ ks contents keyed distinct =>
      cases hw with | number hq => cases hq | @dict _ qs _ ks' contents' keyed' distinct' =>
      have compared := Decides.within keys each (entries_within ks contents keyed enough)
        (entries_within ks' contents' keyed' enough') distinct'
      have bags := Form.bag_map_eq_iff Form.ofPair_injective ps qs
        (List.Nodup.of_map _ distinct)
      split
      · next size =>
        rw [Table.size, Table.size, ks.length_eq, ks'.length_eq] at size
        exact compared.congr (by simp [bags size])
      · next size =>
        refine .no fun eq => size ?_
        have perm := Form.bag_eq_iff.mp (Form.node.inj eq).2
        rw [Table.size, Table.size, ks.length_eq, ks'.length_eq]
        simpa using perm.length_eq
    · next x y =>
      cases hv with | number hq => cases hq | func =>
      cases hw with | number hq => cases hq | func =>
      exact .ok (by simp)
    · next x y =>
      cases hv with | number hq => cases hq | cls =>
      cases hw with | number hq => cases hq | cls =>
      exact .ok (by simp)
    · next c d =>
      cases hv with | number hq => cases hq | scope _ _ sorted names contents =>
      cases hw with | number hq => cases hq | scope _ _ sorted' names' contents' =>
      have compared := Decides.sameItems each (parts_within names contents enough)
        (parts_within names' contents' enough')
      simp only [sorted, sorted']
      refine compared.congr ?_
      rw [Form.flatMap_parts_injective.eq_iff]
      simp [List.map_inj_right Form.ofPair_injective]
    · next lists tuples sets dicts funcs classes scopes =>
      split
      · next q r hq hr =>
        rw [hv.unique (.number hq), hw.unique (.number hr)]
        exact decides_quantities ne hq hr
      · next numbers =>
        -- Nothing else is equal without being the same.
        rw [beq_false_of_ne ne]
        refine .no fun eq => ne ?_
        cases hv with
        | none => cases hw with
          | none => rfl
          | _ => cases eq
        | number hq => cases hw with
          | number hq' => exact (numbers _ _ hq hq').elim
          | _ => cases eq
        | text s => cases hw with
          | text => rw [Form.text.inj eq]
          | _ => cases eq
        | bytes b => cases hw with
          | bytes => rw [Form.bytes.inj eq]
          | _ => cases eq
        | func x => cases hw with
          | func y => exact (funcs x y rfl rfl).elim
          | _ => cases eq
        | cls x => cases hw with
          | cls y => exact (classes x y rfl rfl).elim
          | _ => cases eq
        | sequence kind c => cases hw with
          | sequence kind' d =>
            cases kind <;> cases kind'
            · exact (lists c d rfl rfl).elim
            · cases eq
            · cases eq
            · exact (tuples c d rfl rfl).elim
          | _ => cases kind <;> cases eq
        | set kind c => cases hw with
          | set kind' d => exact (sets kind c kind' d rfl rfl).elim
          | sequence kind' => cases kind' <;> cases eq
          | _ => cases eq
        | dict d => cases hw with
          | dict d' => exact (dicts d d' rfl rfl).elim
          | sequence kind' => cases kind' <;> cases eq
          | _ => cases eq
        | scope c => cases hw with
          | scope d => exact (scopes c d rfl rfl).elim
          | sequence kind' => cases kind' <;> cases eq
          | _ => cases eq

end

end Heap

end LexEnv
