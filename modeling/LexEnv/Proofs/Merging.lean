import LexEnv.Table

/-!
# Merging entries

Entries that are put over others, one after the other, make one entry for each key: it stands where
its key first appeared and holds what came last. `Entries.Merged` says so of all entries in the order
in which they came; `Table.merged_insertAll` is the case of named things put into a table.
-/

namespace LexEnv

namespace Entries

variable {κ α : Type} [DecidableEq κ]

/-! ## Entries as they came, and what becomes of them -/

/-- The entries that some given ones come to: each key once, in the order in which the keys first
appeared, with what was given for it last. -/
structure Merged (given es : List (κ × α)) : Prop where
  keys : keys es = (Entries.keys given).eraseDups
  last : ∀ key, find? key es = find? key given.reverse

omit [DecidableEq κ] in
theorem keys_append (es fs : List (κ × α)) : keys (es ++ fs) = keys es ++ keys fs := by
  simp [keys]

theorem find?_append (key : κ) (es fs : List (κ × α)) :
    find? key (es ++ fs) = (find? key es).or (find? key fs) := by
  induction es with
  | nil => simp
  | cons e es ih =>
    obtain ⟨k, a⟩ := e
    by_cases h : k = key <;> simp [find?, h, ih]

theorem find?_eq_none_iff {key : κ} {es : List (κ × α)} : find? key es = none ↔ key ∉ keys es := by
  induction es with
  | nil => simp [keys]
  | cons e es ih =>
    obtain ⟨k, a⟩ := e
    by_cases h : k = key
    · simp [find?, keys, h]
    · simp only [find?, h, if_false, ih, keys, List.map_cons, List.mem_cons, not_or]
      exact ⟨fun absent => ⟨Ne.symm h, absent⟩, And.right⟩

/-- Where no key comes twice, it does not matter from which end a key is looked for. -/
theorem find?_reverse {es : List (κ × α)} (distinct : (keys es).Nodup) (key : κ) :
    find? key es.reverse = find? key es := by
  induction es with
  | nil => rfl
  | cons e es ih =>
    obtain ⟨k, a⟩ := e
    obtain ⟨fresh, distinct⟩ := List.nodup_cons.mp distinct
    rw [List.reverse_cons, find?_append, ih distinct]
    by_cases h : k = key
    · rw [find?_eq_none_iff.mpr (h ▸ fresh), Option.none_or]
      simp [find?, h]
    · simp [find?, h]

/-! ## Putting entries over others -/

theorem eraseDups_of_nodup {ks : List κ} (distinct : ks.Nodup) : ks.eraseDups = ks := by
  induction ks with
  | nil => rfl
  | cons k ks ih =>
    obtain ⟨fresh, distinct⟩ := List.nodup_cons.mp distinct
    have others : ks.filter (fun l => !l == k) = ks :=
      List.filter_eq_self.mpr fun l mem => by
        have other : l ≠ k := fun same => fresh (same ▸ mem)
        simpa using other
    rw [List.eraseDups_cons, others, ih distinct]

/-- A key that came already adds none. -/
theorem eraseDups_append_cons_of_mem {k : κ} {ks ls : List κ} (mem : k ∈ ks) :
    (ks ++ k :: ls).eraseDups = (ks ++ ls).eraseDups := by
  rw [List.eraseDups_append, List.eraseDups_append, List.cons_removeAll]
  simp [mem]

theorem put_of_not_mem {key : κ} {es : List (κ × α)} (fresh : key ∉ keys es) (a : α) :
    put key a es = es ++ [(key, a)] := by
  induction es with
  | nil => rfl
  | cons e es ih =>
    obtain ⟨k, b⟩ := e
    obtain ⟨other, fresh⟩ := not_or.mp (mt List.mem_cons.mpr fresh)
    have rest := ih fresh
    simp only [put, putBy, decide_eq_true_eq] at rest ⊢
    rw [if_neg (Ne.symm other), rest]
    rfl

/-- Keys come in the order of their first appearance. -/
theorem keys_merge {es : List (κ × α)} (fs : List (κ × α)) (distinct : (keys es).Nodup) :
    keys (merge es fs) = (keys es ++ keys fs).eraseDups := by
  induction fs generalizing es with
  | nil =>
    show keys es = (keys es ++ []).eraseDups
    rw [List.append_nil, eraseDups_of_nodup distinct]
  | cons f fs ih =>
    obtain ⟨k, a⟩ := f
    show keys (merge (put k a es) fs) = (keys es ++ k :: keys fs).eraseDups
    rw [ih (nodup_keys_put k a distinct), keys_put]
    split
    · next mem => rw [eraseDups_append_cons_of_mem mem]
    · rw [List.append_assoc, List.singleton_append]

theorem merged_merge {es : List (κ × α)} (fs : List (κ × α)) (distinct : (keys es).Nodup) :
    Merged (es ++ fs) (merge es fs) where
  keys := by rw [keys_merge fs distinct, keys_append]
  last key := by
    rw [find?_merge, List.reverse_append, find?_append, find?_reverse distinct]

/-- Entries without a repeated key are their own merge. -/
theorem ofList_of_nodup {es : List (κ × α)} (distinct : (keys es).Nodup) : ofList es = es := by
  have extend : ∀ fs : List (κ × α), (keys (fs ++ es)).Nodup → merge fs es = fs ++ es := by
    clear distinct
    induction es with
    | nil => exact fun fs _ => (List.append_nil fs).symm
    | cons e es ih =>
      intro fs distinct
      obtain ⟨k, a⟩ := e
      have fresh : k ∉ keys fs := by
        rw [keys_append] at distinct
        exact fun mem => (List.nodup_append.mp distinct).2.2 k mem k List.mem_cons_self rfl
      show merge (put k a fs) es = _
      rw [put_of_not_mem fresh, ih _ (by simpa using distinct), List.append_assoc]
      rfl
  exact extend [] distinct

/-- Named things as entries under texts. -/
def underTexts (es : List (String × α)) : List (Key × α) := es.map fun e => (.text e.1, e.2)

end Entries

namespace Table

variable {α : Type}

theorem entries_insertAll (t : Table α) (es : List (String × α)) :
    (t.insertAll es).entries = Entries.merge t.entries (Entries.underTexts es) := by
  induction es generalizing t with
  | nil => rfl
  | cons e es ih => exact ih (t.insert e.1 e.2)

theorem insertAll_append (t : Table α) (es fs : List (String × α)) :
    t.insertAll (es ++ fs) = (t.insertAll es).insertAll fs := List.foldl_append

/-- Putting named things into a table merges them with what is there. -/
theorem merged_insertAll (t : Table α) (es : List (String × α)) :
    Entries.Merged (t.entries ++ Entries.underTexts es) (t.insertAll es).entries := by
  rw [entries_insertAll]
  exact Entries.merged_merge _ t.distinct

end Table

end LexEnv
