import LexEnv.NameMap
import LexEnv.Table

/-!
# Tables in ascending order

Scopes list their names in ascending order. Texts are ordered by code point, so a table whose keys
are all texts is listed as the sorted map of its entries. Other keys are compared one by one, which
may fail: numbers have an order and a number and a text have none. Which keys are compared first
then shows in the error, so the order of comparisons is part of the rule: a leading run is taken as
it is, or reversed if it falls, and the rest is inserted one by one, each place found by halving.
-/

namespace LexEnv

/-! ## Sorting by a comparison that may fail -/

section

variable {α : Type}

/-- The longest beginning in which each element goes on from the one before it, and what is left. -/
def takeRun (goesOn : α → α → Except Error Bool) (last : α) :
    List α → Except Error (List α × List α)
  | [] => .ok ([], [])
  | x :: xs => do
    if ← goesOn last x then
      let (run, rest) ← takeRun goesOn x xs
      return (x :: run, rest)
    else return ([], x :: xs)

/-- Inserts an element into a sorted list, after those that it is not less than. -/
def insertBy (less : α → α → Except Error Bool) (x : α) (sorted : List α) :
    Except Error (List α) :=
  match _h : sorted.drop (sorted.length / 2) with
  | [] => .ok [x]
  | middle :: above => do
    let below := sorted.take (sorted.length / 2)
    if ← less x middle then return (← insertBy less x below) ++ middle :: above
    else return below ++ middle :: (← insertBy less x above)
termination_by sorted.length
decreasing_by
  all_goals
    have := congrArg List.length _h
    simp only [List.length_drop, List.length_take, List.length_cons] at this ⊢
    omega

/-- The elements in ascending order. -/
def sortBy (less : α → α → Except Error Bool) : List α → Except Error (List α)
  | [] => .ok []
  | [x] => .ok [x]
  | x :: y :: xs => do
    let falling ← less y x
    let (run, rest) ← takeRun (fun a b => do return (← less b a) == falling) y xs
    let run := x :: y :: run
    rest.foldlM (fun sorted x => insertBy less x sorted) (if falling then run.reverse else run)

end

/-! ## Tables -/

namespace Table

variable {α : Type}

/-- The entries of a table, each with the value that serves as its key, in ascending order. -/
def ascending (less : Value → Value → Except Error Bool) (t : Table α) :
    Except Error (List (Value × α)) :=
  match t.texts? with
  | some es => .ok ((NameMap.ofList es).entries.map fun (name, a) => (.text name, a))
  | none => sortBy (fun a b => less a.1 b.1) (t.entries.map fun (k, a) => (k.value, a))

/-! ### Tables with texts only -/

/-- An entry under a text. -/
def textEntry (e : String × α) : Key × α := (.text e.1, e.2)

/-- All keys of a table are texts. -/
def Textual (t : Table α) : Prop := ∃ es : List (String × α), t.entries = es.map textEntry

/-- All keys are texts if each of them is one. -/
theorem textual_iff {t : Table α} : t.Textual ↔ ∀ e ∈ t.entries, e.1.text?.isSome := by
  constructor
  · rintro ⟨es, entries⟩ e mem
    rw [entries] at mem
    obtain ⟨_, _, rfl⟩ := List.mem_map.mp mem
    rfl
  · intro texts
    refine ⟨t.entries.map fun e => (e.1.text?.getD "", e.2), ?_⟩
    rw [List.map_map]
    refine (List.map_id _).symm.trans (List.map_congr_left fun e mem => ?_)
    obtain ⟨k, a⟩ := e
    cases k with
    | text s => rfl
    | other v hash => cases texts _ mem

instance : DecidablePred (Textual : Table α → Prop) := fun _ => decidable_of_iff' _ textual_iff

theorem textual_empty : (empty : Table α).Textual := ⟨[], rfl⟩

theorem Textual.insert {t : Table α} (h : t.Textual) (name : String) (a : α) :
    (t.insert name a).Textual := by
  obtain ⟨es, entries⟩ := h
  refine ⟨Entries.put name a es, ?_⟩
  show Entries.put (.text name) a t.entries = _
  rw [entries]
  clear entries
  induction es with
  | nil => rfl
  | cons e es ih =>
    rw [List.map_cons, Entries.put, Entries.putBy, Entries.put, Entries.putBy]
    by_cases same : e.1 = name
    · simp [textEntry, same]
    · simp only [textEntry, Key.text.injEq, same, decide_false, Bool.false_eq_true, if_false,
        List.map_cons]
      exact congrArg _ ih

/-- The entries of a table with texts only, with their texts. -/
theorem texts?_of_entries {t : Table α} {es : List (String × α)}
    (h : t.entries = es.map textEntry) : t.texts? = some es := by
  rw [texts?, h]
  clear h
  induction es with
  | nil => rfl
  | cons e es ih =>
    rw [List.map_cons, List.mapM_cons, ih]
    rfl

/-- Under a text of a table with texts only stands what stands there in the list of its entries. -/
theorem get?_of_entries {t : Table α} {es : List (String × α)} (h : t.entries = es.map textEntry)
    (name : String) : t.get? name = NameMap.find? name es := by
  rw [get?, h]
  clear h
  induction es with
  | nil => rfl
  | cons e es ih =>
    rw [List.map_cons, Entries.find?, NameMap.find?, ih]
    simp only [textEntry, Key.text.injEq]

/-- Putting named things into a table, each name once, leaves under each name what was put there
last. -/
theorem get?_insertAll {es : List (String × α)} (distinct : (es.map (·.1)).Nodup) (t : Table α)
    (name : String) : (t.insertAll es).get? name = (NameMap.find? name es).or (t.get? name) := by
  induction es generalizing t with
  | nil => rfl
  | cons e es ih =>
    obtain ⟨n, a⟩ := e
    rw [List.map_cons, List.nodup_cons] at distinct
    rw [show t.insertAll ((n, a) :: es) = (t.insert n a).insertAll es from rfl,
      ih distinct.2, get?_insert, NameMap.find?]
    by_cases same : n = name
    · subst same
      have absent : NameMap.find? n es = none := by
        rw [Option.eq_none_iff_forall_ne_some]
        intro b found
        have mem := (NameMap.find?_eq_some_iff_of_nodup distinct.2).mp found
        exact distinct.1 (List.mem_map.mpr ⟨(n, b), mem, rfl⟩)
      rw [absent, if_pos rfl, if_pos rfl]
      rfl
    · rw [if_neg same, if_neg (Ne.symm same)]

/-- No text of a table is repeated. -/
theorem nodup_texts {t : Table α} {es : List (String × α)} (h : t.entries = es.map textEntry) :
    (es.map (·.1)).Nodup := by
  have keys : ((es.map (·.1)).map Key.text).Nodup := by
    have all := t.distinct
    rw [Entries.keys, h, List.map_map] at all
    rw [List.map_map]
    exact all
  exact List.Pairwise.of_map Key.text (fun a b ne same => ne (congrArg _ same)) keys

/-- A table with texts only has the entries of the sorted map that answers look-ups as it does. -/
theorem Textual.perm {t : Table α} (h : t.Textual) {m : NameMap α}
    (answers : ∀ name, m.get? name = t.get? name) : t.entries.Perm (m.entries.map textEntry) := by
  obtain ⟨es, entries⟩ := h
  have distinct := nodup_texts entries
  have same : ∀ e, e ∈ es ↔ e ∈ m.entries := fun (name, a) => by
    rw [NameMap.mem_entries, answers, get?_of_entries entries,
      NameMap.find?_eq_some_iff_of_nodup distinct]
  have nodup : ∀ {fs : List (String × α)}, (fs.map (·.1)).Nodup → fs.Nodup :=
    List.Pairwise.of_map Prod.fst fun _ _ ne same => ne (congrArg _ same)
  rw [entries]
  exact ((List.perm_ext_iff_of_nodup (nodup distinct) (nodup m.nodup_names)).mpr same).map textEntry

/-- A table with texts only is listed as the sorted map that answers every look-up as it does. -/
theorem Textual.sorted {t : Table α} (h : t.Textual) :
    ∃ m : NameMap α,
      (∀ less, t.ascending less = .ok (m.entries.map fun (name, a) => (.text name, a))) ∧
      ∀ name, m.get? name = t.get? name := by
  obtain ⟨es, entries⟩ := h
  refine ⟨NameMap.ofList es, fun less => ?_, fun name => ?_⟩
  · rw [Table.ascending, texts?_of_entries entries]
  · rw [NameMap.get?_ofList, NameMap.find?_reverse (nodup_texts entries), get?_of_entries entries]

theorem Textual.ascending {t : Table α} (h : t.Textual)
    (less : Value → Value → Except Error Bool) :
    ∃ m : NameMap α, t.ascending less = .ok (m.entries.map fun (name, a) => (.text name, a)) ∧
      ∀ name, m.get? name = t.get? name := by
  obtain ⟨m, listed, answers⟩ := h.sorted
  exact ⟨m, listed less, answers⟩

end Table

end LexEnv
