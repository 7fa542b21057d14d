import LexEnv.Ascending
import LexEnv.Hash
import Mathlib.Data.List.Perm.Basic

/-!
# Sorting

Sorting by a comparison that may fail. Where every two elements can be told apart by names, and the
comparison of two elements is that of their names, it does not fail and yields the elements in
ascending order of names (`exists_sortBy`).

Pairs of names and slots are such elements if no name is repeated. Slots have no order, so comparing
pairs of the same name would fail; it does not come to that (`Heap.sortBy_pairs`).
-/

namespace LexEnv

/-! ## Elements with names -/

section

variable {α : Type} {less : α → α → Except Error Bool} {name : α → String} {x y : α} {xs : List α}

/-- Two elements have different names, and are compared by these. -/
structure Compared (less : α → α → Except Error Bool) (name : α → String) (x y : α) : Prop where
  ne : name x ≠ name y
  forth : less x y = .ok (decide (name x < name y))
  back : less y x = .ok (decide (name y < name x))

theorem Compared.symm (h : Compared less name x y) : Compared less name y x :=
  ⟨h.ne.symm, h.back, h.forth⟩

theorem Compared.lt_of_not_lt (h : Compared less name x y) (not : ¬ name x < name y) :
    name y < name x :=
  Std.lt_of_le_of_ne (String.not_lt.mp not) h.ne.symm

/-- Names ascend, or descend. -/
def Goes (name : α → String) (falling : Bool) (x y : α) : Prop :=
  if falling then name y < name x else name x < name y

theorem Compared.goes (h : Compared less name x y) :
    Goes name (decide (name y < name x)) x y := by
  unfold Goes
  by_cases falls : name y < name x
  · simp [falls]
  · simpa [falls] using h.symm.lt_of_not_lt falls

theorem Goes.trans {falling : Bool} {z : α} (xy : Goes name falling x y)
    (yz : Goes name falling y z) : Goes name falling x z := by
  cases falling with
  | true => exact String.lt_trans yz xy
  | false => exact String.lt_trans xy yz

/-! ## Insertion -/

/-- An element is inserted where it belongs. -/
theorem exists_insertBy {sorted : List α} (new : ∀ y ∈ sorted, Compared less name x y)
    (ascends : sorted.Pairwise fun x y => name x < name y) :
    ∃ longer, insertBy less x sorted = .ok longer ∧ longer.Perm (x :: sorted) ∧
      longer.Pairwise fun x y => name x < name y := by
  induction length : sorted.length using Nat.strongRecOn generalizing sorted with
  | _ n ih =>
    subst length
    unfold insertBy
    split
    · next none =>
      have empty : sorted = [] := by
        have short := List.drop_eq_nil_iff.mp none
        exact List.length_eq_zero_iff.mp (by omega)
      subst empty
      exact ⟨[x], rfl, .refl _, List.pairwise_singleton _ _⟩
    · next middle above half =>
      generalize hbelow : sorted.take (sorted.length / 2) = below
      have split : sorted = below ++ middle :: above := by
        rw [← hbelow, ← half, List.take_append_drop]
      clear half hbelow
      subst split
      have compared := new middle (by simp)
      obtain ⟨ascends₁, ascends₂, across⟩ := List.pairwise_append.mp ascends
      obtain ⟨first, ascends₃⟩ := List.pairwise_cons.mp ascends₂
      simp only [compared.forth, bind, Except.bind]
      by_cases before : name x < name middle
      · obtain ⟨longer, inserted, perm, ascends'⟩ := ih below.length (by simp)
          (fun y mem => new y (List.mem_append_left _ mem)) ascends₁ rfl
        refine ⟨longer ++ middle :: above, ?_, perm.append_right _, ?_⟩
        · simp [before, inserted, pure, Except.pure]
        · refine List.pairwise_append.mpr ⟨ascends', ascends₂, ?_⟩
          intro y hy z hz
          rcases List.mem_cons.mp (perm.mem_iff.mp hy) with rfl | old
          · rcases List.mem_cons.mp hz with rfl | later
            · exact before
            · exact String.lt_trans before (first z later)
          · exact across y old z hz
      · have after := compared.lt_of_not_lt before
        obtain ⟨longer, inserted, perm, ascends'⟩ := ih above.length (by simp; omega)
          (fun y mem => new y (by simp [mem])) ascends₃ rfl
        refine ⟨below ++ middle :: longer, ?_, ?_, ?_⟩
        · simp [before, inserted, pure, Except.pure]
        · exact ((perm.cons middle).append_left below).trans
            (((List.Perm.swap x middle above).append_left below).trans List.perm_middle)
        · refine List.pairwise_append.mpr ⟨ascends₁, List.pairwise_cons.mpr ⟨?_, ascends'⟩, ?_⟩
          · intro y hy
            rcases List.mem_cons.mp (perm.mem_iff.mp hy) with rfl | old
            · exact after
            · exact first y old
          · intro y hy z hz
            have next := across y hy middle List.mem_cons_self
            rcases List.mem_cons.mp hz with rfl | later
            · exact next
            · rcases List.mem_cons.mp (perm.mem_iff.mp later) with rfl | old
              · exact String.lt_trans next after
              · exact across y hy z (List.mem_cons_of_mem _ old)

/-- Elements are inserted one by one. -/
theorem exists_foldlM_insertBy {sorted : List α}
    (new : (sorted ++ xs).Pairwise (Compared less name))
    (ascends : sorted.Pairwise fun x y => name x < name y) :
    ∃ longer, xs.foldlM (fun sorted x => insertBy less x sorted) sorted = .ok longer ∧
      longer.Perm (sorted ++ xs) ∧ longer.Pairwise fun x y => name x < name y := by
  induction xs generalizing sorted with
  | nil => exact ⟨sorted, rfl, by simp, ascends⟩
  | cons x xs ih =>
    have front : ((x :: sorted) ++ xs).Pairwise (Compared less name) :=
      new.perm List.perm_middle Compared.symm
    obtain ⟨first, rest⟩ := List.pairwise_cons.mp front
    obtain ⟨next, inserted, perm, ascends'⟩ := exists_insertBy
      (fun y mem => first y (List.mem_append_left _ mem)) ascends
    have new' : (next ++ xs).Pairwise (Compared less name) :=
      front.perm (perm.symm.append_right xs) Compared.symm
    obtain ⟨longer, gone, perm', ascends''⟩ := ih new' ascends'
    refine ⟨longer, ?_, ?_, ascends''⟩
    · rw [List.foldlM_cons, inserted]
      exact gone
    · exact perm'.trans ((perm.append_right xs).trans List.perm_middle.symm)

/-! ## The leading run -/

/-- The leading run ascends, or descends, as its first two elements do. -/
theorem exists_takeRun (falling : Bool) (new : (x :: xs).Pairwise (Compared less name)) :
    ∃ run rest, takeRun (fun a b => do return (← less b a) == falling) x xs = .ok (run, rest) ∧
      xs = run ++ rest ∧ (x :: run).Pairwise (Goes name falling) := by
  induction xs generalizing x with
  | nil => exact ⟨[], [], rfl, rfl, List.pairwise_singleton _ _⟩
  | cons y xs ih =>
    obtain ⟨first, rest⟩ := List.pairwise_cons.mp new
    have compared := first y List.mem_cons_self
    unfold takeRun
    simp only [compared.back, bind, Except.bind, pure, Except.pure]
    by_cases goes : decide (name y < name x) = falling
    · obtain ⟨run, left, taken, split, all⟩ := ih rest
      have test : (decide (name y < name x) == falling) = true := beq_iff_eq.mpr goes
      simp only [bind, Except.bind, pure, Except.pure] at taken
      refine ⟨y :: run, left, ?_, ?_, List.pairwise_cons.mpr ⟨?_, all⟩⟩
      · simp only [test, if_true, taken]
      · rw [split]
        rfl
      · have xy : Goes name falling x y := goes ▸ compared.goes
        intro z hz
        rcases List.mem_cons.mp hz with rfl | later
        · exact xy
        · exact xy.trans ((List.pairwise_cons.mp all).1 z later)
    · have test : (decide (name y < name x) == falling) = false := beq_eq_false_iff_ne.mpr goes
      refine ⟨[], y :: xs, ?_, rfl, List.pairwise_singleton _ _⟩
      simp only [test, Bool.false_eq_true, if_false]

/-- Elements that can be told apart by their names are sorted by these. -/
theorem exists_sortBy (new : xs.Pairwise (Compared less name)) :
    ∃ ys, sortBy less xs = .ok ys ∧ ys.Perm xs ∧ ys.Pairwise fun x y => name x < name y := by
  match xs with
  | [] => exact ⟨[], rfl, .refl _, .nil⟩
  | [x] => exact ⟨[x], rfl, .refl _, List.pairwise_singleton _ _⟩
  | x :: y :: xs =>
    obtain ⟨first, others⟩ := List.pairwise_cons.mp new
    have compared := first y List.mem_cons_self
    generalize hf : decide (name y < name x) = falling
    obtain ⟨run, rest, taken, rfl, goes⟩ := exists_takeRun falling others
    have all : (x :: y :: run).Pairwise (Goes name falling) := by
      refine List.pairwise_cons.mpr ⟨?_, goes⟩
      have xy : Goes name falling x y := hf ▸ compared.goes
      intro z hz
      rcases List.mem_cons.mp hz with rfl | later
      · exact xy
      · exact xy.trans ((List.pairwise_cons.mp goes).1 z later)
    let start := if falling then (x :: y :: run).reverse else x :: y :: run
    have ascends : start.Pairwise fun x y => name x < name y := by
      cases falling with
      | true => exact List.pairwise_reverse.mpr all
      | false => exact all
    have same : start.Perm (x :: y :: run) := by
      cases falling with
      | true => exact List.reverse_perm _
      | false => exact .refl _
    have new' : (start ++ rest).Pairwise (Compared less name) :=
      new.perm (same.symm.append_right rest) Compared.symm
    obtain ⟨ys, inserted, perm, ascends'⟩ := exists_foldlM_insertBy new' ascends
    refine ⟨ys, ?_, perm.trans (same.append_right rest), ascends'⟩
    unfold sortBy
    simp only [bind, Except.bind] at taken
    simp only [compared.back, hf, taken, bind, Except.bind]
    exact inserted

end

/-! ## Pairs of names and slots -/

namespace Heap

/-- Compares pairs of names and slots item by item, the names first. Slots have no order. -/
def lessPair (h : Heap) (a b : Value × SlotId) : Except Error Bool :=
  lessItems h.same h.less [a.1, .slot a.2] [b.1, .slot b.2]

/-- Pairs of different texts are compared by these, and their slots are not. -/
theorem lessPair_text (h : Heap) {a b : String × SlotId} (ne : a.1 ≠ b.1) :
    h.lessPair (.text a.1, a.2) (.text b.1, b.2) = .ok (decide (a.1 < b.1)) := by
  obtain ⟨n, reach⟩ : ∃ n, h.reach = n + 1 := ⟨_, rfl⟩
  have different : h.same (.text a.1) (.text b.1) = .ok false := by
    unfold same sameBy equal
    simp [reach, equalWithin, Value.quantity?, ne]
  have compared : h.less (.text a.1) (.text b.1) = .ok (decide (a.1 < b.1)) := by
    unfold less
    rw [reach, lessWithin]
  unfold lessPair lessItems
  rw [different]
  exact compared

/-- In whatever order the entries of a sorted map stand, sorting them as pairs lists the map. -/
theorem sortBy_pairs (h : Heap) {m : NameMap SlotId} {es : List (String × SlotId)}
    (arranged : es.Perm m.entries) :
    sortBy h.lessPair (es.map fun e => (.text e.1, e.2)) =
      .ok (m.entries.map fun e => (.text e.1, e.2)) := by
  let pair : String × SlotId → Value × SlotId := fun e => (.text e.1, e.2)
  -- The name of a pair is the text that serves as a key for it.
  let name : Value × SlotId → String := fun a =>
    ((h.key a.1).toOption.bind Key.text?).getD ""
  have distinct : es.Pairwise fun a b => a.1 ≠ b.1 :=
    List.pairwise_map.mp ((arranged.map Prod.fst).nodup_iff.mpr m.nodup_names)
  have compared : (es.map pair).Pairwise (Compared h.lessPair name) :=
    List.pairwise_map.mpr (distinct.imp fun ne =>
      ⟨ne, h.lessPair_text ne, h.lessPair_text (Ne.symm ne)⟩)
  obtain ⟨ys, sorted, perm, ascends⟩ := exists_sortBy compared
  have listed : (m.entries.map pair).Pairwise fun a b => name a < name b :=
    List.pairwise_map.mpr m.sorted
  have same : ys = m.entries.map pair :=
    List.Perm.eq_of_pairwise (fun a b _ _ ab ba => absurd ba (String.lt_asymm ab)) ascends listed
      (perm.trans (arranged.map pair))
  rw [← same]
  exact sorted

end Heap

end LexEnv
