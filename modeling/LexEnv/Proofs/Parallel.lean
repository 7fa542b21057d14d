import Mathlib.Data.List.Forall2

/-!
# In parallel

Lists of one length whose elements are related in pairs, and results that are both missing or both
there and related.
-/

namespace LexEnv

/-! ## Lists -/

section

variable {α β γ : Type} {R S : α → β → Prop} {as : List α} {bs cs : List β}

theorem forall₂_mem (h : List.Forall₂ R as bs) :
    List.Forall₂ (fun a b => R a b ∧ a ∈ as ∧ b ∈ bs) as bs := by
  induction h with
  | nil => exact .nil
  | @cons a b as bs first _ ih =>
    exact .cons ⟨first, List.mem_cons_self, List.mem_cons_self⟩
      (ih.imp fun _ _ ⟨r, ma, mb⟩ => ⟨r, List.mem_cons_of_mem _ ma, List.mem_cons_of_mem _ mb⟩)

theorem forall₂_and (hr : List.Forall₂ R as bs) (hs : List.Forall₂ S as bs) :
    List.Forall₂ (fun a b => R a b ∧ S a b) as bs :=
  hr.mp (fun _ _ => And.intro) hs

theorem exists_of_mem_left (h : List.Forall₂ R as bs) {a : α} (mem : a ∈ as) :
    ∃ b ∈ bs, R a b := by
  induction h with
  | nil => cases mem
  | cons first _ ih =>
    rcases List.mem_cons.mp mem with rfl | mem
    · exact ⟨_, List.mem_cons_self, first⟩
    · obtain ⟨b, mb, r⟩ := ih mem
      exact ⟨b, List.mem_cons_of_mem _ mb, r⟩

theorem exists_of_mem_right (h : List.Forall₂ R as bs) {b : β} (mem : b ∈ bs) :
    ∃ a ∈ as, R a b := by
  induction h with
  | nil => cases mem
  | cons first _ ih =>
    rcases List.mem_cons.mp mem with rfl | mem
    · exact ⟨_, List.mem_cons_self, first⟩
    · obtain ⟨a, ma, r⟩ := ih mem
      exact ⟨a, List.mem_cons_of_mem _ ma, r⟩

/-- Lists in parallel to the same list are equal if every element determines its partner. -/
theorem eq_of_forall₂ (hb : List.Forall₂ (fun a b => ∀ c, S a c → b = c) as bs)
    (hc : List.Forall₂ S as cs) : bs = cs := by
  induction hb generalizing cs with
  | nil =>
    cases hc
    rfl
  | cons first _ ih =>
    cases hc with
    | cons first' rest => rw [first _ first', ih rest]

end

/-! ## Results that may be missing -/

section

variable {α β : Type} {R S : α → β → Prop} {a : Option α} {b : Option β}

theorem optionRel_cases (rel : Option.Rel R a b) :
    a = none ∧ b = none ∨ ∃ x y, a = some x ∧ b = some y ∧ R x y := by
  cases rel with
  | none => exact .inl ⟨rfl, rfl⟩
  | some r => exact .inr ⟨_, _, rfl, rfl, r⟩

theorem optionRel_getD (rel : Option.Rel R a b) {x : α} {y : β} (r : R x y) :
    R (a.getD x) (b.getD y) := by
  cases rel with
  | none => exact r
  | some r' => exact r'

theorem optionRel_imp (rel : Option.Rel R a b) (imp : ∀ a b, R a b → S a b) :
    Option.Rel S a b := by
  cases rel with
  | none => exact .none
  | some r => exact .some (imp _ _ r)

theorem optionRel_toList (rel : Option.Rel R a b) : List.Forall₂ R a.toList b.toList := by
  cases rel with
  | none => exact .nil
  | some r => exact .cons r .nil

end

end LexEnv
