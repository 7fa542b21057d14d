/-!
# Entries in order of insertion

Dictionaries and named arguments keep their entries in the order in which their keys first appeared.
Putting an entry under a key that is there already changes the value and keeps the key and its
place.

Main statements: a look-up after `put` (`find?_put`) and after `merge` (`find?_merge`), and what
they do to the keys (`keys_put`).
-/

namespace LexEnv.Entries

variable {κ α : Type}

/-- Puts a value under the first key that passes the test, or under a new key at the end. -/
def putBy (same : κ → Bool) (key : κ) (a : α) : List (κ × α) → List (κ × α)
  | [] => [(key, a)]
  | (k, b) :: es => if same k then (k, a) :: es else (k, b) :: putBy same key a es

variable [DecidableEq κ]

/-- The value under a key. -/
def find? (key : κ) : List (κ × α) → Option α
  | [] => none
  | (k, a) :: es => if k = key then some a else find? key es

/-- Puts a value under a key. -/
def put (key : κ) (a : α) (es : List (κ × α)) : List (κ × α) :=
  putBy (· = key) key a es

/-- The entries without those of a key. -/
def erase (key : κ) (es : List (κ × α)) : List (κ × α) :=
  es.filter (·.1 ≠ key)

/-- The entries of the first list with those of the second put over them, in order. -/
def merge (es fs : List (κ × α)) : List (κ × α) :=
  fs.foldl (fun es e => put e.1 e.2 es) es

/-- The keys in order. -/
def keys (es : List (κ × α)) : List κ := es.map (·.1)

/-- Entries with each key once: a repeated key keeps its first place and takes its last value. -/
def ofList (es : List (κ × α)) : List (κ × α) := merge [] es

/-! ## Look-ups -/

@[simp] theorem find?_nil (key : κ) : find? key ([] : List (κ × α)) = none := rfl

theorem find?_put (key k : κ) (a : α) (es : List (κ × α)) :
    find? k (put key a es) = if k = key then some a else find? k es := by
  induction es with
  | nil => grind [put, putBy, find?]
  | cons e es ih =>
    obtain ⟨k', b⟩ := e
    simp only [put, putBy, decide_eq_true_eq] at ih ⊢
    by_cases h : k' = key
    · subst h
      by_cases hk : k = k' <;> simp [find?, hk]
      simp [Ne.symm hk]
    · by_cases hk : k' = k
      · subst hk
        simp [find?, h]
      · simp [find?, h, hk, ih]

theorem find?_merge (key : κ) (es fs : List (κ × α)) :
    find? key (merge es fs) = (find? key fs.reverse).or (find? key es) := by
  induction fs generalizing es with
  | nil => simp [merge]
  | cons f fs ih =>
    obtain ⟨k, a⟩ := f
    have append : ∀ xs ys : List (κ × α),
        find? key (xs ++ ys) = (find? key xs).or (find? key ys) := by
      intro xs ys
      induction xs with
      | nil => simp
      | cons x xs ihx =>
        obtain ⟨k', b⟩ := x
        by_cases h : k' = key <;> simp [find?, h, ihx]
    have := ih (put k a es)
    simp only [merge, List.foldl_cons] at this ⊢
    rw [this, List.reverse_cons, append, find?_put]
    cases find? key fs.reverse <;> by_cases h : key = k <;> simp_all [find?, eq_comm]

/-- What is found under a key is an entry with that key. -/
theorem mem_of_find? {key : κ} {a : α} {es : List (κ × α)} (found : find? key es = some a) :
    (key, a) ∈ es := by
  induction es with
  | nil => cases found
  | cons e es ih =>
    obtain ⟨k, b⟩ := e
    unfold find? at found
    split at found
    · next same =>
      cases found
      rw [same]
      exact List.mem_cons_self
    · exact List.mem_cons_of_mem _ (ih found)

/-- Putting a value under a key of a list of distinct keys changes the entry of this key alone. -/
theorem mem_put {key k : κ} {a b : α} {es : List (κ × α)} (distinct : (es.map (·.1)).Nodup) :
    (k, b) ∈ put key a es ↔ if k = key then b = a else (k, b) ∈ es := by
  induction es with
  | nil => grind [put, putBy]
  | cons e es ih =>
    obtain ⟨k', c⟩ := e
    obtain ⟨new, distinct'⟩ := List.nodup_cons.mp distinct
    simp only [put, putBy, decide_eq_true_eq] at ih ⊢
    by_cases here : k' = key
    · subst here
      have absent : (k', b) ∉ es := fun mem => new (List.mem_map_of_mem (f := (·.1)) mem)
      by_cases same : k = k'
      · subst same
        simp [absent]
      · simp [same]
    · by_cases same : k = key
      · subst same
        simp [here, ih distinct', Ne.symm here]
      · simp [here, ih distinct', same]

/-! ## Keys -/

/-- A key that is there keeps its place; a new one comes last. -/
theorem keys_put (key : κ) (a : α) (es : List (κ × α)) :
    keys (put key a es) = if key ∈ keys es then keys es else keys es ++ [key] := by
  induction es with
  | nil => simp [put, putBy, keys]
  | cons e es ih =>
    obtain ⟨k, b⟩ := e
    simp only [put, putBy, decide_eq_true_eq, keys] at ih ⊢
    by_cases h : k = key
    · simp [h]
    · simp only [h, if_false, List.map_cons, ih]
      by_cases hk : key ∈ es.map (·.1)
      · simp [hk]
      · simp only [List.mem_cons, hk, or_false, if_false, Ne.symm h]
        simp

/-- Putting an entry keeps the keys distinct. -/
theorem nodup_keys_put (key : κ) (a : α) {es : List (κ × α)} (h : (keys es).Nodup) :
    (keys (put key a es)).Nodup := by
  rw [keys_put]
  split
  · exact h
  · next not_mem =>
    rw [List.nodup_append]
    exact ⟨h, by simp, by intro a ha b hb; simp at hb; subst hb; exact fun e => not_mem (e ▸ ha)⟩

/-- Putting entries over others keeps the keys distinct. -/
theorem nodup_keys_merge {es : List (κ × α)} (fs : List (κ × α)) (h : (keys es).Nodup) :
    (keys (merge es fs)).Nodup := by
  induction fs generalizing es with
  | nil => exact h
  | cons f fs ih => exact ih (nodup_keys_put f.1 f.2 h)

end LexEnv.Entries
