/-!
# Sorted finite maps on names

A finite map from names to values, kept as the list of its entries in strictly ascending order of
names (by code point). The list is canonical: two maps that answer every look-up alike are equal
(`ext_get?`), so nothing of a map's history can be seen in it.

One lemma per operation describes it through `get?`; after these nobody unfolds an operation.
-/

namespace LexEnv

/-- A finite map from names to values. -/
structure NameMap (α : Type) where
  /-- The entries in ascending order of names. -/
  entries : List (String × α)
  sorted : entries.Pairwise (fun a b => a.1 < b.1)

namespace NameMap

variable {α : Type}

/-! ## Entry lists -/

/-- The value of a name in an entry list. -/
def find? (name : String) : List (String × α) → Option α
  | [] => none
  | (n, a) :: es => if n = name then some a else find? name es

/-- Puts an entry in its place, replacing the one of the same name. -/
def place (name : String) (a : α) : List (String × α) → List (String × α)
  | [] => [(name, a)]
  | (n, b) :: es =>
    if name < n then (name, a) :: (n, b) :: es
    else if n = name then (name, a) :: es
    else (n, b) :: place name a es

theorem mem_place {name : String} {a : α} {es : List (String × α)} {e : String × α}
    (h : e ∈ place name a es) : e = (name, a) ∨ e ∈ es := by
  induction es with
  | nil => simpa [place] using h
  | cons x es ih =>
    obtain ⟨n, b⟩ := x
    grind [place]

theorem find?_place (name m : String) (a : α) (es : List (String × α)) :
    find? m (place name a es) = if m = name then some a else find? m es := by
  induction es with
  | nil => grind [place, find?]
  | cons x es ih =>
    obtain ⟨n, b⟩ := x
    grind [place, find?]

theorem pairwise_place (name : String) (a : α) {es : List (String × α)}
    (h : es.Pairwise (fun a b => a.1 < b.1)) :
    (place name a es).Pairwise (fun a b => a.1 < b.1) := by
  induction es with
  | nil => simp [place]
  | cons x es ih =>
    obtain ⟨n, b⟩ := x
    rw [List.pairwise_cons] at h
    unfold place
    split
    · next lt =>
      refine List.pairwise_cons.mpr ⟨fun e he => ?_, List.pairwise_cons.mpr h⟩
      rcases List.mem_cons.mp he with rfl | he
      · exact lt
      · exact String.lt_trans lt (h.1 e he)
    · next nlt =>
      split
      · next eq => exact List.pairwise_cons.mpr ⟨eq ▸ h.1, h.2⟩
      · next ne =>
        refine List.pairwise_cons.mpr ⟨fun e he => ?_, ih h.2⟩
        rcases mem_place he with rfl | he
        · exact Std.lt_of_le_of_ne (String.not_lt.mp nlt) ne
        · exact h.1 e he

theorem find?_eq_some_iff {es : List (String × α)} (h : es.Pairwise (fun a b => a.1 < b.1))
    {name : String} {a : α} : find? name es = some a ↔ (name, a) ∈ es := by
  induction es with
  | nil => simp [find?]
  | cons x es ih =>
    obtain ⟨n, b⟩ := x
    rw [List.pairwise_cons] at h
    unfold find?
    split
    · next eq =>
      subst eq
      have : ∀ c, (n, c) ∉ es := fun c hc => String.lt_irrefl n (h.1 _ hc)
      simp [this, eq_comm]
    · next ne => simp [ih h.2, Ne.symm ne]

/-- Where no name is repeated, exactly the entries are found. -/
theorem find?_eq_some_iff_of_nodup {es : List (String × α)} (h : (es.map (·.1)).Nodup)
    {name : String} {a : α} : find? name es = some a ↔ (name, a) ∈ es := by
  induction es with
  | nil => simp [find?]
  | cons x es ih =>
    obtain ⟨n, b⟩ := x
    rw [List.map_cons, List.nodup_cons] at h
    unfold find?
    split
    · next eq =>
      subst eq
      have : ∀ c, (n, c) ∉ es := fun c hc => h.1 (List.mem_map.mpr ⟨(n, c), hc, rfl⟩)
      simp [this, eq_comm]
    · next ne => simp [ih h.2, Ne.symm ne]

/-- Where no name is repeated, the order of entries does not matter. -/
theorem find?_reverse {es : List (String × α)} (h : (es.map (·.1)).Nodup) (name : String) :
    find? name es.reverse = find? name es := by
  have back : (es.reverse.map (·.1)).Nodup := by
    rw [List.map_reverse]
    exact List.pairwise_reverse.mpr (h.imp Ne.symm)
  ext a
  rw [find?_eq_some_iff_of_nodup back, find?_eq_some_iff_of_nodup h, List.mem_reverse]

/-! ## Operations -/

/-- The map without entries. -/
def empty : NameMap α := ⟨[], .nil⟩

instance : Inhabited (NameMap α) := ⟨empty⟩

/-- The value of a name. -/
def get? (m : NameMap α) (name : String) : Option α := find? name m.entries

/-- Binds a name, replacing what it was bound to. -/
def insert (m : NameMap α) (name : String) (a : α) : NameMap α :=
  ⟨place name a m.entries, pairwise_place name a m.sorted⟩

/-- The map with the given entries; of a name that is repeated the last one counts. -/
def ofList (es : List (String × α)) : NameMap α := es.foldl (fun m e => m.insert e.1 e.2) empty

/-! ## Operations seen through look-ups -/

@[simp] theorem get?_empty (name : String) : (empty : NameMap α).get? name = none := rfl

@[simp] theorem get?_insert (m : NameMap α) (name n : String) (a : α) :
    (m.insert name a).get? n = if n = name then some a else m.get? n :=
  find?_place name n a m.entries

/-- No name is repeated. -/
theorem nodup_names (m : NameMap α) : (m.entries.map (·.1)).Nodup := by
  refine List.pairwise_map.mpr (m.sorted.imp ?_)
  intro e f lt same
  rw [same] at lt
  exact String.lt_irrefl _ lt

/-- The entries are exactly the bound names with their values. -/
theorem mem_entries {m : NameMap α} {name : String} {a : α} :
    (name, a) ∈ m.entries ↔ m.get? name = some a :=
  (find?_eq_some_iff m.sorted).symm

/-- The map with something made of each value. -/
def map {β : Type} (f : α → β) (m : NameMap α) : NameMap β :=
  ⟨m.entries.map fun e => (e.1, f e.2), List.pairwise_map.mpr m.sorted⟩

@[simp] theorem get?_map {β : Type} (f : α → β) (m : NameMap α) (name : String) :
    (m.map f).get? name = (m.get? name).map f := by
  show find? name (m.entries.map _) = (find? name m.entries).map f
  generalize m.entries = es
  induction es with
  | nil => rfl
  | cons e es ih =>
    rw [List.map_cons, find?, find?, ih]
    split <;> rfl

/-- A name is looked up in a list of entries from its end. -/
theorem get?_ofList (es : List (String × α)) (name : String) :
    (ofList es).get? name = find? name es.reverse := by
  have append : ∀ xs ys : List (String × α),
      find? name (xs ++ ys) = (find? name xs).or (find? name ys) := by
    intro xs ys
    induction xs with
    | nil => simp [find?]
    | cons x xs ih =>
      obtain ⟨n, b⟩ := x
      by_cases e : n = name <;> simp [find?, e, ih]
  have general : ∀ (es : List (String × α)) (m : NameMap α),
      (es.foldl (fun m e => m.insert e.1 e.2) m).get? name
        = (find? name es.reverse).or (m.get? name) := by
    intro es
    induction es with
    | nil => simp [find?]
    | cons x es ih =>
      intro m
      obtain ⟨n, b⟩ := x
      rw [List.foldl_cons, ih, List.reverse_cons, append, get?_insert]
      cases find? name es.reverse <;> by_cases e : n = name <;>
        simp_all [find?, eq_comm]
  simp [ofList, general]

/-! ## Canonicity -/

/-- The head of a strictly ascending list that holds every member of another with the same members
is the head of the other. -/
theorem entries_eq_of_mem_iff {es fs : List (String × α)}
    (he : es.Pairwise (fun a b => a.1 < b.1)) (hf : fs.Pairwise (fun a b => a.1 < b.1))
    (h : ∀ e, e ∈ es ↔ e ∈ fs) : es = fs := by
  induction es generalizing fs with
  | nil =>
    cases fs with
    | nil => rfl
    | cons f fs => exact absurd ((h f).mpr (by simp)) (by simp)
  | cons e es ih =>
    cases fs with
    | nil => exact absurd ((h e).mp (by simp)) (by simp)
    | cons f fs =>
      rw [List.pairwise_cons] at he hf
      have head : e = f := by
        rcases List.mem_cons.mp ((h e).mp (by simp)) with eq | mem
        · exact eq
        · rcases List.mem_cons.mp ((h f).mpr (by simp)) with eq | mem'
          · exact eq.symm
          · exact absurd (hf.1 e mem) (String.lt_asymm (he.1 f mem'))
      subst head
      refine congrArg _ (ih he.2 hf.2 fun x => ⟨fun hx => ?_, fun hx => ?_⟩)
      · rcases List.mem_cons.mp ((h x).mp (List.mem_cons_of_mem _ hx)) with rfl | mem
        · exact absurd (he.1 x hx) (String.lt_irrefl _)
        · exact mem
      · rcases List.mem_cons.mp ((h x).mpr (List.mem_cons_of_mem _ hx)) with rfl | mem
        · exact absurd (hf.1 x hx) (String.lt_irrefl _)
        · exact mem

/-- Maps that answer every look-up alike are equal. -/
theorem ext_get? {m m' : NameMap α} (h : ∀ name, m.get? name = m'.get? name) : m = m' := by
  have : m.entries = m'.entries := entries_eq_of_mem_iff m.sorted m'.sorted fun (n, a) => by
    rw [mem_entries, mem_entries, h]
  cases m; cases m'; simp_all

end NameMap

end LexEnv
