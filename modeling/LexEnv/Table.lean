import LexEnv.Entries
import LexEnv.Error

/-!
# Tables

Scopes, dictionaries and sets are tables: entries under distinct keys, in the order in which the
keys first came. A key is a text, or any other value together with the hash that it had when it
became a key. A value may change later, and its hash with it; the table keeps to the old one, so
such a key is not found again.

Whether two values are equal is a question to the heap and may fail, so the operations take that
relation as a parameter. Between texts it never comes up: `find?_text` and `put_text` say that under
a text a table behaves like a plain list of entries, whatever other keys it has.
-/

namespace LexEnv

/-! ## Keys -/

/-- The hash of a value, as a word of integers. -/
structure HashCode where
  word : List Int
deriving DecidableEq, Repr

/-- What entries are kept under. -/
inductive Key where
  | text (s : String)
  | other (v : Value) (hash : HashCode)
deriving DecidableEq, Repr

/-- Sameness inside containers: identical objects are the same, others if they are equal. -/
def sameBy (equal : Value → Value → Except Error Bool) (v w : Value) : Except Error Bool :=
  if v = w then .ok true else equal v w

/-- An object is the same as itself, whatever counts as equal. -/
theorem sameBy_self (equal : Value → Value → Except Error Bool) (v : Value) :
    sameBy equal v v = .ok true := if_pos rfl

namespace Key

/-- The value that serves as a key. -/
def value : Key → Value
  | .text s => .text s
  | .other v _ => v

/-- The text that serves as a key, if it is one. -/
def text? : Key → Option String
  | .text s => some s
  | .other _ _ => none

theorem text?_eq_some_iff {k : Key} {s : String} : k.text? = some s ↔ k = .text s := by
  cases k <;> simp [text?]

/-- Whether a key of a table is the one that is sought. Values with different hashes are not
compared. -/
def matching (equal : Value → Value → Except Error Bool) : Key → Key → Except Error Bool
  | .text s, .text t => .ok (s == t)
  | .other v hash, .other w hash' => if hash = hash' then sameBy equal v w else .ok false
  | _, _ => .ok false

/-- A key matches itself. -/
theorem matching_self (equal : Value → Value → Except Error Bool) (k : Key) :
    k.matching equal k = .ok true := by
  cases k <;> simp [matching, sameBy_self]

/-- Only the text itself matches a text. -/
theorem matching_text (equal : Value → Value → Except Error Bool) (k : Key) (s : String) :
    k.matching equal (.text s) = .ok (decide (k = .text s)) := by
  cases k with
  | text t => by_cases e : t = s <;> simp [matching, e]
  | other v hash => simp [matching]

end Key

/-! ## Entries under keys -/

namespace Entries

variable {α : Type}

/-- What stands under the first key that matches. -/
def findMatching (equal : Value → Value → Except Error Bool) (key : Key) :
    List (Key × α) → Except Error (Option α)
  | [] => .ok none
  | (k, a) :: es => do
    if ← k.matching equal key then return some a else findMatching equal key es

/-- Puts something under the first key that matches, or under a new key at the end. -/
def putMatching (equal : Value → Value → Except Error Bool) (key : Key) (a : α) :
    List (Key × α) → Except Error (List (Key × α))
  | [] => .ok [(key, a)]
  | (k, b) :: es => do
    if ← k.matching equal key then return (k, a) :: es
    else return (k, b) :: (← putMatching equal key a es)

/-- Putting something keeps the keys, or adds one that was not there. -/
theorem keys_putMatching {equal : Value → Value → Except Error Bool} {key : Key} {a : α}
    {es fs : List (Key × α)} (h : putMatching equal key a es = .ok fs) :
    keys fs = keys es ∨ key ∉ keys es ∧ keys fs = keys es ++ [key] := by
  induction es generalizing fs with
  | nil =>
    cases h
    simp [keys]
  | cons e es ih =>
    obtain ⟨k, b⟩ := e
    unfold putMatching at h
    cases hm : k.matching equal key with
    | error e => simp [hm, bind, Except.bind] at h
    | ok found =>
      cases found with
      | true =>
        simp only [hm, bind, Except.bind, pure, Except.pure, if_true, Except.ok.injEq] at h
        subst h
        simp [keys]
      | false =>
        cases hr : putMatching equal key a es with
        | error e => simp [hm, hr, bind, Except.bind] at h
        | ok rest =>
          simp only [hm, hr, bind, Except.bind, pure, Except.pure, Bool.false_eq_true, if_false,
            Except.ok.injEq] at h
          subst h
          have ne : key ≠ k := by
            rintro rfl
            rw [Key.matching_self] at hm
            cases hm
          rcases ih hr with same | ⟨fresh, added⟩
          · left
            simpa [keys] using same
          · right
            exact ⟨by simpa [keys] using ⟨ne, by simpa [keys] using fresh⟩,
              by simpa [keys] using added⟩

/-- Putting something keeps the keys distinct. -/
theorem nodup_keys_putMatching {equal : Value → Value → Except Error Bool} {key : Key} {a : α}
    {es fs : List (Key × α)} (h : putMatching equal key a es = .ok fs)
    (distinct : (keys es).Nodup) : (keys fs).Nodup := by
  rcases keys_putMatching h with same | ⟨fresh, added⟩
  · rw [same]
    exact distinct
  · rw [added, List.nodup_append]
    exact ⟨distinct, by simp, fun k hk l hl e =>
      fresh ((List.mem_singleton.mp hl) ▸ e ▸ hk)⟩

/-- After something was put, nothing else is there than it and what was there before. -/
theorem mem_putMatching {equal : Value → Value → Except Error Bool} {key : Key} {a : α}
    {es fs : List (Key × α)} (h : putMatching equal key a es = .ok fs) {e : Key × α}
    (he : e ∈ fs) : e.2 = a ∨ ∃ k, (k, e.2) ∈ es := by
  induction es generalizing fs with
  | nil =>
    cases h
    left
    simp_all
  | cons x es ih =>
    obtain ⟨k, b⟩ := x
    unfold putMatching at h
    cases hm : k.matching equal key with
    | error e => simp [hm, bind, Except.bind] at h
    | ok found =>
      cases found with
      | true =>
        simp only [hm, bind, Except.bind, pure, Except.pure, if_true, Except.ok.injEq] at h
        subst h
        rcases List.mem_cons.mp he with rfl | mem
        · exact Or.inl rfl
        · exact Or.inr ⟨e.1, List.mem_cons_of_mem _ mem⟩
      | false =>
        cases hr : putMatching equal key a es with
        | error e => simp [hm, hr, bind, Except.bind] at h
        | ok rest =>
          simp only [hm, hr, bind, Except.bind, pure, Except.pure, Bool.false_eq_true, if_false,
            Except.ok.injEq] at h
          subst h
          rcases List.mem_cons.mp he with rfl | mem
          · exact Or.inr ⟨k, List.mem_cons_self⟩
          · rcases ih hr mem with eq | ⟨k', mem'⟩
            · exact Or.inl eq
            · exact Or.inr ⟨k', List.mem_cons_of_mem _ mem'⟩

end Entries

/-! ## Tables -/

/-- Entries under distinct keys. -/
structure Table (α : Type) where
  entries : List (Key × α)
  distinct : (Entries.keys entries).Nodup

namespace Table

variable {α : Type}

/-- The table without entries. -/
def empty : Table α := ⟨[], .nil⟩

instance : Inhabited (Table α) := ⟨empty⟩

instance [DecidableEq α] : DecidableEq (Table α) := fun t u =>
  decidable_of_iff (t.entries = u.entries)
    ⟨fun same => by cases t; cases u; cases same; rfl, fun same => same ▸ rfl⟩

/-- The number of entries. -/
def size (t : Table α) : Nat := t.entries.length

/-- The values that serve as keys, in order. -/
def keyValues (t : Table α) : List Value := t.entries.map (·.1.value)

/-- What stands under a key. -/
def find? (equal : Value → Value → Except Error Bool) (key : Key) (t : Table α) :
    Except Error (Option α) :=
  Entries.findMatching equal key t.entries

/-- Puts something under a key. A key that is there already stays as it is. -/
def put (equal : Value → Value → Except Error Bool) (key : Key) (a : α) (t : Table α) :
    Except Error (Table α) :=
  match h : Entries.putMatching equal key a t.entries with
  | .ok es => .ok ⟨es, Entries.nodup_keys_putMatching h t.distinct⟩
  | .error e => .error e

/-- After something was put, nothing else stands in a table than it and what stood there before. -/
theorem mem_put {equal : Value → Value → Except Error Bool} {key : Key} {a : α}
    {t u : Table α} (h : t.put equal key a = .ok u) {e : Key × α} (he : e ∈ u.entries) :
    e.2 = a ∨ ∃ k, (k, e.2) ∈ t.entries := by
  unfold put at h
  split at h
  · next es hes =>
    cases h
    exact Entries.mem_putMatching hes he
  · cases h

theorem map_entries_put (equal : Value → Value → Except Error Bool) (key : Key) (a : α)
    (t : Table α) : (t.put equal key a).map entries = Entries.putMatching equal key a t.entries := by
  unfold put
  split
  · next es h => exact h.symm
  · next e h => exact h.symm

/-- After something was put, no other key is there than its own and those that were there before. -/
theorem key_of_mem_put {equal : Value → Value → Except Error Bool} {key : Key} {a : α}
    {t u : Table α} (h : t.put equal key a = .ok u) {e : Key × α} (he : e ∈ u.entries) :
    e.1 = key ∨ e.1 ∈ Entries.keys t.entries := by
  have put := map_entries_put equal key a t
  rw [h] at put
  have mem : e.1 ∈ Entries.keys u.entries := List.mem_map_of_mem he
  rcases Entries.keys_putMatching put.symm with same | ⟨-, added⟩
  · exact .inr (same ▸ mem)
  · rw [added, List.mem_append, List.mem_singleton] at mem
    exact mem.symm

/-! ## Texts as keys -/

/-- What stands under a text. -/
def get? (t : Table α) (name : String) : Option α := Entries.find? (.text name) t.entries

/-- Puts something under a text. -/
def insert (t : Table α) (name : String) (a : α) : Table α :=
  ⟨Entries.put (.text name) a t.entries, Entries.nodup_keys_put _ a t.distinct⟩

/-- Puts named things into a table, in order. -/
def insertAll (t : Table α) (es : List (String × α)) : Table α :=
  es.foldl (fun t e => t.insert e.1 e.2) t

/-- The table of named things; a repeated name keeps its first place and takes its last thing. -/
def ofList (es : List (String × α)) : Table α := empty.insertAll es

/-- The entries with their texts, if all keys are texts. -/
def texts? (t : Table α) : Option (List (String × α)) :=
  t.entries.mapM fun (k, a) => k.text?.map (·, a)

theorem mem_of_get? {t : Table α} {name : String} {a : α} (found : t.get? name = some a) :
    (.text name, a) ∈ t.entries := Entries.mem_of_find? found

/-- Under a text stands what a plain look-up finds. -/
theorem find?_text (equal : Value → Value → Except Error Bool) (name : String) (t : Table α) :
    t.find? equal (.text name) = .ok (t.get? name) := by
  obtain ⟨es, distinct⟩ := t
  show Entries.findMatching equal (.text name) es = .ok (Entries.find? (.text name) es)
  clear distinct
  induction es with
  | nil => rfl
  | cons e es ih =>
    obtain ⟨k, a⟩ := e
    rw [Entries.findMatching, Key.matching_text, Entries.find?]
    by_cases h : k = .text name
    · simp [h, bind, Except.bind, pure, Except.pure]
    · simp [h, bind, Except.bind, ih]

/-- Under a text a table is written like a plain list of entries. -/
theorem put_text (equal : Value → Value → Except Error Bool) (name : String) (a : α)
    (t : Table α) : t.put equal (.text name) a = .ok (t.insert name a) := by
  have plain : ∀ es : List (Key × α), Entries.putMatching equal (.text name) a es
      = .ok (Entries.put (.text name) a es) := by
    intro es
    induction es with
    | nil => rfl
    | cons e es ih =>
      obtain ⟨k, b⟩ := e
      rw [Entries.putMatching, Key.matching_text, Entries.put, Entries.putBy]
      by_cases h : k = .text name
      · simp [h, bind, Except.bind, pure, Except.pure]
      · simp [h, bind, Except.bind, pure, Except.pure, ih, Entries.put]
  unfold put
  split
  · next es h =>
    rw [plain] at h
    cases h
    rfl
  · next e h =>
    rw [plain] at h
    cases h

/-- After something was put under a text, it is what a look-up finds there; under other texts
nothing changes. -/
@[simp] theorem get?_insert (t : Table α) (name n : String) (a : α) :
    (t.insert name a).get? n = if n = name then some a else t.get? n := by
  show Entries.find? (.text n) (Entries.put (.text name) a t.entries) = _
  rw [Entries.find?_put]
  simp only [Key.text.injEq]
  rfl

/-- After something was put under a text, only what stands under this text is another. -/
theorem mem_insert {t : Table α} {name : String} {a b : α} {k : Key} :
    (k, b) ∈ (t.insert name a).entries ↔ if k = .text name then b = a else (k, b) ∈ t.entries :=
  Entries.mem_put t.distinct

@[simp] theorem get?_empty (name : String) : (empty : Table α).get? name = none := rfl

end Table

end LexEnv
