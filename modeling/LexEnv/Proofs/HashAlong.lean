import LexEnv.Hash
import LexEnv.Proofs.EqualityAlong

/-!
# Hashes along links

Freezing makes objects, so two heaps that are hashed in do not stay as they are. What is built in both
is related along a longer link (`Building.Along`), by which the one heap still follows the other.
Values that stand for each other are frozen to values that do, and have the same hash, unless the
steps do not suffice in the smaller heap (`Follows.hash`).
-/

namespace LexEnv

open Link

/-! ## Building in two heaps -/

namespace Building

/-- What is built in two heaps, of which one follows the other along a link: along a longer link it
still does, and the results are related. -/
def Along {α β : Type} (L : Link) (R : Link → α → β → Prop) (x : Building α) (y : Building β)
    (h g : Heap) : Prop :=
  Prolongs (fun p q => ∃ M, L ≤ M ∧ M.Follows p.2 q.2 ∧ R M p.1 q.1) (x.run h) (y.run g)

/-- What is related along a link is related along longer ones. -/
def Mono {α β : Type} (R : Link → α → β → Prop) : Prop :=
  ∀ L M a b, L ≤ M → R L a b → R M a b

theorem mono_alike : Mono Alike := fun _ _ _ _ le alike => alike.mono le

section

variable {α β γ δ : Type} {L : Link} {R : Link → α → β → Prop} {S : Link → γ → δ → Prop}
  {h g : Heap}

theorem Along.pure (f : L.Follows h g) {a : α} {b : β} (related : R L a b) :
    Along L R (pure a) (pure b) h g := .ok ⟨L, fun _ _ => id, f, related⟩

theorem Along.bind {x : Building α} {y : Building β} (first : Along L R x y h g)
    {k : α → Building γ} {k' : β → Building δ}
    (next : ∀ M h' g' a b, L ≤ M → M.Follows h' g' → R M a b → Along M S (k a) (k' b) h' g') :
    Along L S (x >>= k) (y >>= k') h g := by
  refine Prolongs.bind first ?_
  rintro ⟨a, h'⟩ ⟨b, g'⟩ ⟨M, le, f, related⟩
  refine (next M h' g' a b le f related).imp ?_
  rintro p q ⟨N, le', f', related'⟩
  exact ⟨N, le_trans le le', f', related'⟩

variable {P : α → β → Prop}

theorem Along.mapM (mono : Mono S) {x : α → Building γ} {y : β → Building δ}
    (each : ∀ M h g a b, L ≤ M → M.Follows h g → P a b → Along M S (x a) (y b) h g)
    {as : List α} {bs : List β} (all : List.Forall₂ P as bs) {M : Link} (le : L ≤ M)
    (f : M.Follows h g) :
    Along M (fun M => List.Forall₂ (S M)) (as.mapM x) (bs.mapM y) h g := by
  induction all generalizing M h g with
  | nil => exact .pure f .nil
  | cons first rest ih =>
    rw [List.mapM_cons, List.mapM_cons]
    refine (each M h g _ _ le f first).bind fun N h' g' c d leN f' related => ?_
    refine (ih (le_trans le leN) f').bind
      fun O h'' g'' cs ds leO f'' more => ?_
    exact .pure f'' (.cons (mono _ _ _ _ leO related) more)

theorem Along.foldlM {x : γ → α → Building γ} {y : δ → β → Building δ}
    (each : ∀ M h g c d a b, L ≤ M → M.Follows h g → S M c d → P a b →
      Along M S (x c a) (y d b) h g)
    {as : List α} {bs : List β} (all : List.Forall₂ P as bs) {M : Link} (le : L ≤ M)
    (f : M.Follows h g) {c : γ} {d : δ} (start : S M c d) :
    Along M S (as.foldlM x c) (bs.foldlM y d) h g := by
  induction all generalizing M h g c d with
  | nil => exact .pure f start
  | cons first rest ih =>
    rw [List.foldlM_cons, List.foldlM_cons]
    exact (each M h g c d _ _ le f start first).bind fun N h' g' c' d' leN f' related =>
      ih (le_trans le leN) f' related

end

/-! ## Tuples and frozen sets -/

variable {L : Link} {h g : Heap}

end Building

/-- A new sequence or set on both sides. -/
theorem Link.Follows.added {L : Link} {h g h' g' : Heap} {o p : Object} (f : L.Follows h g)
    (add : h.Adds o h') (add' : g.Adds p g') (cells : (L.add o p).Cells (h'.cell o) (g'.cell p))
    (made : o.Freezable) (size : h'.size = h.size + 1) (size' : g'.size = g.size + 1) :
    (L.add o p).Follows h' g' where
  mirrors := f.mirrors.added add add' cells
  fixed := by
    rintro x y (linked | ⟨rfl, rfl⟩)
    · exact f.fixed linked
    · exact .inl made
  size := by
    rw [size, size']
    exact Nat.succ_le_succ f.size

namespace Building

variable {L : Link} {h g : Heap}

theorem along_tuple (f : L.Follows h g) {vs ws : List Value} (items : List.Forall₂ L.Alike vs ws) :
    Along L Alike (tuple vs) (tuple ws) h g := by
  have cells : (L.add (.sequence ⟨h.sequences.size⟩) (.sequence ⟨g.sequences.size⟩)).Cells
      ((h.addSequence vs).2.cell (.sequence ⟨h.sequences.size⟩))
      ((g.addSequence ws).2.cell (.sequence ⟨g.sequences.size⟩)) := by
    rw [Heap.cell, Heap.cell, Heap.sequence_addSequence_new h vs (c := ⟨h.sequences.size⟩) rfl,
      Heap.sequence_addSequence_new g ws (c := ⟨g.sequences.size⟩) rfl]
    exact .sequence (items.imp fun _ _ alike => alike.mono (L.le_add _ _))
  have follows := f.added (h.adds_addSequence vs) (g.adds_addSequence ws) cells trivial
    (by simp only [Heap.size, Heap.addSequence, Array.size_push]; omega)
    (by simp only [Heap.size, Heap.addSequence, Array.size_push]; omega)
  exact .ok ⟨_, L.le_add _ _, follows, .sequence .tuple (L.add_self _ _)⟩

theorem along_frozenSet (f : L.Follows h g) {t u : Table Unit} (tables : L.Tables Eq t u) :
    Along L Alike (frozenSet t) (frozenSet u) h g := by
  have cells : (L.add (.set ⟨h.sets.size⟩) (.set ⟨g.sets.size⟩)).Cells
      ((h.addSet t).2.cell (.set ⟨h.sets.size⟩)) ((g.addSet u).2.cell (.set ⟨g.sets.size⟩)) := by
    rw [Heap.cell, Heap.cell, Heap.set_addSet_new h t (c := ⟨h.sets.size⟩) rfl,
      Heap.set_addSet_new g u (c := ⟨g.sets.size⟩) rfl]
    exact .set (tables.mono (L.le_add _ _) fun _ _ => id)
  have follows := f.added (h.adds_addSet t) (g.adds_addSet u) cells trivial
    (by simp only [Heap.size, Heap.addSet, Array.size_push]; omega)
    (by simp only [Heap.size, Heap.addSet, Array.size_push]; omega)
  exact .ok ⟨_, L.le_add _ _, follows, .set .frozen (L.add_self _ _)⟩

end Building

/-! ## Freezing -/

/-- A way to hash gives values that stand for each other the hash that another way with fewer steps
gives them. -/
def HashesAlong (hash hash' : Heap → Value → Except Error HashCode) : Prop :=
  ∀ (L : Link) (h g : Heap), L.Follows h g → ∀ v w, L.Alike v w → Prolongs Eq (hash h v) (hash' g w)

namespace HashesAlong

variable {hash hash' : Heap → Value → Except Error HashCode} (hashes : HashesAlong hash hash')
  {L : Link} {h g : Heap}

include hashes

theorem keyBy (f : L.Follows h g) {v w : Value} (alike : L.Alike v w) :
    Prolongs L.Keys (keyBy (hash h) v) (LexEnv.keyBy (hash' g) w) := by
  have hashed := hashes L h g f v w alike
  have same := alike
  unfold LexEnv.keyBy
  cases alike with
  | text s => exact .ok (.text s)
  | _ => exact hashed.bind fun a b eq => eq ▸ .ok (.other same a)

theorem insert (f : L.Follows h g) {t u : Table Unit} (tables : L.Tables Eq t u) {v w : Value}
    (alike : L.Alike v w) :
    Building.Along L (fun L => L.Tables Eq) (Building.insert hash t v) (Building.insert hash' u w)
      h g := by
  have put : Prolongs (L.Tables Eq) (LexEnv.keyBy (hash h) v >>= fun k => t.put h.equal k ())
      (LexEnv.keyBy (hash' g) w >>= fun k => u.put g.equal k ()) :=
    (hashes.keyBy f alike).bind fun k l keys => f.put f.equal keys rfl tables
  rw [Building.Along, Building.run_insert, Building.run_insert]
  exact put.bind fun t u tables => .ok ⟨L, fun _ _ => id, f, tables⟩

theorem freeze {k l : Nat} (le : k ≤ l) (f : L.Follows h g) {v w : Value} (alike : L.Alike v w) :
    Building.Along L Alike (freezeWithin hash k v) (freezeWithin hash' l w) h g := by
  induction k generalizing L h g l v w with
  | zero => exact .endless _
  | succ k ih =>
    obtain ⟨l, rfl⟩ := Nat.exists_eq_add_one.mpr (Nat.lt_of_lt_of_le k.succ_pos le)
    have le := Nat.le_of_succ_le_succ le
    have m := f.mirrors
    have kept := alike
    cases alike with
    | @sequence kind c d linked =>
      have all := Building.Along.mapM (S := Alike) Building.mono_alike
        (x := freezeWithin hash k) (y := freezeWithin hash' l)
        (fun M h g v w longer f alike => ih le f (alike.mono longer)) (m.sequence linked)
        (fun _ _ => id) f
      exact all.bind fun M h' g' vs ws _ f' items => Building.along_tuple f' items
    | @set kind c d linked =>
      have all := Building.Along.foldlM (S := fun L => L.Tables (Eq : Unit → Unit → Prop))
        (x := fun t v => do Building.insert hash t (← freezeWithin hash k v))
        (y := fun t v => do Building.insert hash' t (← freezeWithin hash' l v))
        (fun M h g t u v w longer f tables alike =>
          (ih le f (alike.mono longer)).bind fun N h' g' v w leN f' alike =>
            hashes.insert f' (tables.mono leN fun _ _ => id) alike)
        (m.set linked).keyValues (fun _ _ => id) f tables_empty
      exact all.bind fun M h' g' t u _ f' tables => Building.along_frozenSet f' tables
    | @dict d e linked =>
      have all := Building.Along.foldlM (S := fun L => L.Tables (Eq : Unit → Unit → Prop))
        (x := fun t e => do
          let content ← freezeWithin hash k e.2
          Building.insert hash t (← Building.tuple [e.1.value, content]))
        (y := fun t e => do
          let content ← freezeWithin hash' l e.2
          Building.insert hash' t (← Building.tuple [e.1.value, content]))
        (fun M h g t u e e' longer f tables entries =>
          (ih le f (entries.2.mono longer)).bind fun N h' g' v w leN f' alike =>
            (Building.along_tuple f' (.cons (entries.1.value.mono (le_trans longer leN))
              (.cons alike .nil))).bind fun O h'' g'' v w leO f'' alike =>
                hashes.insert f'' (tables.mono (le_trans leN leO) fun _ _ => id) alike)
        (m.dict linked) (fun _ _ => id) f tables_empty
      exact all.bind fun M h' g' t u _ f' tables => Building.along_frozenSet f' tables
    | _ => exact .pure f kept

end HashesAlong

/-! ## Hashing -/

/-- Keys that are alike were stored with the same hash. -/
theorem Link.Keys.hash {L : Link} {k l : Key} (keys : L.Keys k l) : k.hash = l.hash := by
  cases keys <;> rfl

/-- Values that stand for each other have the same hash with more steps. -/
theorem Heap.hashWithin_along {k l : Nat} (le : k ≤ l) :
    HashesAlong (hashWithin k) (hashWithin l) := by
  induction k generalizing l with
  | zero => exact fun _ _ _ _ _ _ _ => .endless _
  | succ k ih =>
    obtain ⟨l, rfl⟩ := Nat.exists_eq_add_one.mpr (Nat.lt_of_lt_of_le k.succ_pos le)
    have le := Nat.le_of_succ_le_succ le
    have hashes := ih le
    intro L h g f v w alike
    have m := f.mirrors
    cases alike with
    | @sequence kind c d linked => cases kind with
      | list => exact .error _
      | tuple =>
        have all := Prolongs.mapM (fun v w alike => hashes L h g f v w alike) (m.sequence linked)
        exact all.bind fun xs ys same => by rw [List.forall₂_eq_eq_eq] at same; exact same ▸ .ok rfl
    | @set kind c d linked => cases kind with
      | changing => exact .error _
      | frozen =>
        have stored : (h.set c).entries.map (·.1.hash) = (g.set d).entries.map (·.1.hash) :=
          List.forall₂_eq_eq_eq ▸ List.forall₂_map_left_iff.mpr (List.forall₂_map_right_iff.mpr
            ((m.set linked).imp fun e e' entries => entries.1.hash))
        exact .ok (congrArg HashCode.ofElements stored)
    | dict linked => exact .error _
    | scope linked =>
      obtain ⟨es, fs, hes, hfs, named⟩ := m.enumerate linked
      have bindings : List.Forall₂ (fun e e' : Value × SlotId => L.Alike e.1 e'.1 ∧
          L.Alike (h.slot e.2).value (g.slot e'.2).value)
          (es.map fun e => (.text e.1, e.2)) (fs.map fun e => (.text e.1, e.2)) :=
        List.forall₂_map_left_iff.mpr <| List.forall₂_map_right_iff.mpr <| named.imp
          fun e e' both => ⟨both.1 ▸ .text e.1, (m.slot both.2).2⟩
      have frozen := Building.Along.mapM (S := Alike) Building.mono_alike
        (x := fun e => freezeWithin (hashWithin k) k (h.slot e.2).value)
        (y := fun e => freezeWithin (hashWithin l) l (g.slot e.2).value)
        (fun M h g e e' longer f both => hashes.freeze le f (both.2.mono longer)) bindings
        (fun _ _ => id) f
      unfold hashWithin
      simp only [hes, hfs]
      refine Prolongs.bind frozen ?_
      rintro ⟨vs, h'⟩ ⟨ws, g'⟩ ⟨M, longer, f', items⟩
      refine (Prolongs.mapM (fun e e' both => hashes M h' g' f' _ _ (both.1.mono longer))
        bindings).bind fun names names' same => ?_
      refine (Prolongs.mapM (fun v w alike => hashes M h' g' f' v w alike) items).bind
        fun contents contents' same' => ?_
      rw [List.forall₂_eq_eq_eq] at same same'
      rw [same, same', bindings.length_eq]
      exact .ok rfl
    | float x serials =>
      cases f.serials serials
      exact .ok rfl
    | slot linked =>
      cases (f.fixed linked).resolve_left id
      exact .ok rfl
    | stack linked =>
      cases (f.fixed linked).resolve_left id
      exact .ok rfl
    | arguments linked =>
      cases (f.fixed linked).resolve_left id
      exact .ok rfl
    | context linked =>
      cases (f.fixed linked).resolve_left id
      exact .ok rfl
    | _ => exact .ok rfl

/-- Values that stand for each other have the same hash, unless it cannot be told in the smaller
heap. -/
theorem Link.Follows.hash {L : Link} {h g : Heap} (f : L.Follows h g) {v w : Value}
    (alike : L.Alike v w) : Prolongs Eq (h.hash v) (g.hash w) :=
  Heap.hashWithin_along f.reach L h g f v w alike

end LexEnv
