import LexEnv.Proofs.Denotation
import LexEnv.Proofs.Interleaving

/-!
# Values without cycles

From a value without cycles nothing can be reached that can be reached from itself. The objects on a
way down from it are then all different, so no way is longer than the heap is large
(`Acyclic.nestsWithin`). How deep the containers, dictionaries and scopes of a value are inside each
other is said by `NestsWithin`, which also keeps what freezing and comparing rely on: scopes bind texts,
and keys of dictionaries have a hash.
-/

namespace LexEnv

/-- Values that are no sequences, sets and dictionaries: freezing leaves them as they are. -/
def Value.Plain : Value → Prop
  | .sequence _ _ | .set _ _ | .dict _ => False
  | _ => True

namespace Heap

variable {h h' : Heap} {m n : Nat} {v w : Value}

/-! ## Frozen values -/

/-- Values that have a hash: no list, set that can change or dictionary is met on the way through
tuples. -/
inductive Frozen (h : Heap) : Value → Prop where
  | plain {v : Value} (plain : v.Plain) : Frozen h v
  | tuple (c : SequenceId) (inside : c.index < h.sequences.size)
    (items : ∀ v ∈ h.sequence c, Frozen h v) : Frozen h (.sequence .tuple c)
  | set (c : SetId) (inside : c.index < h.sets.size) : Frozen h (.set .frozen c)

theorem Frozen.grown (frozen : h.Frozen v) (grown : h.Grown h') : h'.Frozen v := by
  induction frozen with
  | plain plain => exact .plain plain
  | tuple c inside _ ih =>
    refine .tuple c (Nat.lt_of_lt_of_le inside grown.sequences) fun v mem => ih v ?_
    rwa [grown.sequence c inside] at mem
  | set c inside => exact .set c (Nat.lt_of_lt_of_le inside grown.sets)

/-! ## Nesting -/

/-- A value whose containers and scopes are not nested deeper than some number. They exist, scopes
bind texts, and keys of dictionaries have a hash. -/
def NestsWithin (h : Heap) : (depth : Nat) → Value → Prop
  | 0, _ => False
  | depth + 1, v =>
    match v with
    | .sequence _ c => c.index < h.sequences.size ∧ ∀ w ∈ h.sequence c, h.NestsWithin depth w
    | .set _ c => c.index < h.sets.size ∧ ∀ e ∈ (h.set c).entries, h.NestsWithin depth e.1.value
    | .dict d => d.index < h.dicts.size ∧ ∀ e ∈ (h.dict d).entries,
      h.Frozen e.1.value ∧ h.NestsWithin depth e.1.value ∧ h.NestsWithin depth e.2
    | .scope c => c.index < h.scopes.size ∧ (h.scope c).Textual ∧
      ∀ e ∈ (h.scope c).entries, h.NestsWithin depth (h.slot e.2).value
    | _ => True

/-- Values stay nested as they are in a heap that grows. -/
theorem NestsWithin.grown (nests : h.NestsWithin m v) (grown : h.Grown h') (le : m ≤ n) :
    h'.NestsWithin n v := by
  induction m generalizing n v with
  | zero => exact nests.elim
  | succ m ih =>
    obtain ⟨n, rfl⟩ := Nat.exists_eq_add_one.mpr (Nat.zero_lt_of_lt le)
    have inner : ∀ {w}, h.NestsWithin m w → h'.NestsWithin n w := fun nests =>
      ih nests (Nat.le_of_succ_le_succ le)
    cases v with
    | sequence kind c =>
      refine ⟨Nat.lt_of_lt_of_le nests.1 grown.sequences, ?_⟩
      rw [grown.sequence c nests.1]
      exact fun w mem => inner (nests.2 w mem)
    | set kind c =>
      refine ⟨Nat.lt_of_lt_of_le nests.1 grown.sets, ?_⟩
      rw [grown.set c nests.1]
      exact fun e mem => inner (nests.2 e mem)
    | dict d =>
      have same : h'.dict d = h.dict d := by rw [Heap.dict, grown.dicts, Heap.dict]
      refine ⟨grown.dicts ▸ nests.1, ?_⟩
      rw [same]
      intro e mem
      obtain ⟨frozen, key, content⟩ := nests.2 e mem
      exact ⟨frozen.grown grown, inner key, inner content⟩
    | scope c =>
      have same : h'.scope c = h.scope c := by rw [Heap.scope, grown.scopes, Heap.scope]
      refine ⟨grown.scopes ▸ nests.1, ?_⟩
      rw [same]
      refine ⟨nests.2.1, fun e mem => ?_⟩
      rw [slot, grown.slots]
      exact inner (nests.2.2 e mem)
    | _ => trivial

theorem NestsWithin.mono (nests : h.NestsWithin m v) (le : m ≤ n) : h.NestsWithin n v :=
  nests.grown (.refl h) le

/-! ## Cycles -/

/-- A value without cycles. What can be reached from it is there, scopes bind texts, and keys of
dictionaries have a hash. -/
structure Acyclic (h : Heap) (v : Value) : Prop where
  exist : ∀ o, h.Reaches v.objects o → h.Has o
  textual : ∀ c, h.Reaches v.objects (.scope c) → (h.scope c).Textual
  keys : ∀ d, h.Reaches v.objects (.dict d) → ∀ e ∈ (h.dict d).entries, h.Frozen e.1.value
  apart : ∀ o, h.Reaches v.objects o → ¬h.Reaches (h.cell o).parts o

theorem Reaches.trans {roots os : List Object} (first : ∀ o ∈ os, h.Reaches roots o) {o : Object}
    (reached : h.Reaches os o) : h.Reaches roots o := by
  induction reached with
  | root mem => exact first _ mem
  | part _ mem ih => exact .part ih mem

/-- All objects of a heap but serial numbers. -/
def objects (h : Heap) : List Object :=
  (List.range h.slots.size).map (.slot ⟨·⟩) ++ (List.range h.scopes.size).map (.scope ⟨·⟩) ++
  (List.range h.scopeStacks.size).map (.stack ⟨·⟩) ++
  (List.range h.sequences.size).map (.sequence ⟨·⟩) ++ (List.range h.sets.size).map (.set ⟨·⟩) ++
  (List.range h.dicts.size).map (.dict ⟨·⟩) ++
  (List.range h.arguments.size).map (.arguments ⟨·⟩) ++
  (List.range h.contexts.size).map (.context ⟨·⟩)

theorem length_objects (h : Heap) : h.objects.length = h.size := by
  simp only [objects, List.length_append, List.length_map, List.length_range, size]

theorem mem_objects {o : Object} (has : h.Has o) (held : ∀ n, o ≠ .serial n) : o ∈ h.objects := by
  cases o <;> simp only [objects, List.mem_append, List.mem_map, List.mem_range, reduceCtorEq,
    and_false, exists_false, or_false, false_or]
  case serial n => exact held n rfl
  all_goals exact ⟨_, has, rfl⟩

/-- Below a way down a value without cycles, on which all objects are different, there is no room for
more nesting than there are other objects. -/
theorem Acyclic.nestsWithin_below (acyclic : h.Acyclic v) (n : Nat) {path : List Object}
    (distinct : path.Nodup) (exist : ∀ o ∈ path, o ∈ h.objects)
    (reached : ∀ p ∈ w.objects, h.Reaches v.objects p)
    (below : ∀ o ∈ path, ∀ p ∈ w.objects, h.Reaches (h.cell o).parts p)
    (enough : h.size < path.length + n) : h.NestsWithin n w := by
  induction n generalizing path w with
  | zero =>
    have few := (List.subperm_of_subset distinct exist).length_le
    rw [length_objects] at few
    omega
  | succ n ih =>
    -- From an object of `w` the way goes on to what is inside of it.
    have inner : ∀ x u, x ∈ w.objects → (∀ k, x ≠ .serial k) →
        (∀ p ∈ u.objects, h.Reaches (h.cell x).parts p) → h.NestsWithin n u := by
      intro x u mem held inside
      have top := reached x mem
      have distinct' : (x :: path).Nodup := List.nodup_cons.mpr
        ⟨fun again => acyclic.apart x top (below x again x mem), distinct⟩
      exact ih distinct'
        (List.forall_mem_cons.mpr ⟨mem_objects (acyclic.exist x top) held, exist⟩)
        (fun p hp => .trans (fun q hq => .part top hq) (inside p hp))
        (List.forall_mem_cons.mpr ⟨inside, fun o ho p hp =>
          .trans (fun q hq => .part (below o ho x mem) hq) (inside p hp)⟩)
        (by rw [List.length_cons]; omega)
    have here : ∀ {x}, x ∈ w.objects → h.Has x := fun mem => acyclic.exist _ (reached _ mem)
    cases w with
    | sequence kind c =>
      refine ⟨here List.mem_cons_self, fun u mem => ?_⟩
      exact inner (.sequence c) u List.mem_cons_self nofun fun p hp =>
        .root (List.mem_flatMap.mpr ⟨u, mem, hp⟩)
    | set kind c =>
      refine ⟨here List.mem_cons_self, fun e mem => ?_⟩
      exact inner (.set c) e.1.value List.mem_cons_self nofun fun p hp =>
        .root (List.mem_flatMap.mpr ⟨e, mem, hp⟩)
    | dict d =>
      refine ⟨here List.mem_cons_self, fun e mem => ⟨?_, ?_, ?_⟩⟩
      · exact acyclic.keys d (reached _ List.mem_cons_self) e mem
      · exact inner (.dict d) e.1.value List.mem_cons_self nofun fun p hp =>
          .root (List.mem_flatMap.mpr ⟨e, mem, List.mem_append_left _ hp⟩)
      · exact inner (.dict d) e.2 List.mem_cons_self nofun fun p hp =>
          .root (List.mem_flatMap.mpr ⟨e, mem, List.mem_append_right _ hp⟩)
    | scope c =>
      refine ⟨here List.mem_cons_self, acyclic.textual c (reached _ List.mem_cons_self),
        fun e mem => ?_⟩
      have slot : h.Reaches (h.cell (.scope c)).parts (.slot e.2) :=
        .root (List.mem_flatMap.mpr ⟨e, mem, List.mem_cons_self⟩)
      exact inner (.scope c) (h.slot e.2).value List.mem_cons_self nofun fun p hp => .part slot hp
    | _ => trivial

/-- A value without cycles is not nested deeper than its heap is large. -/
theorem Acyclic.nestsWithin (acyclic : h.Acyclic v) : h.NestsWithin (h.size + 1) v :=
  acyclic.nestsWithin_below (h.size + 1) List.nodup_nil nofun (fun _ => .root) nofun (by simp)

/-! ## Values without objects -/

/-- Nothing is reached from nothing. -/
theorem not_reaches_nil (o : Object) : ¬h.Reaches [] o := fun reached =>
  Reaches.inside (T := fun _ => False) (fun _ mem => absurd mem List.not_mem_nil)
    (fun _ none => none.elim) reached

/-- A value without objects has no cycles. -/
theorem acyclic_of_objects_eq_nil (none : v.objects = []) : h.Acyclic v := by
  constructor <;> rw [none]
  all_goals exact fun o reached => absurd reached (not_reaches_nil _)

/-- A list of values without objects has no cycles. -/
theorem acyclic_list {q : SequenceId} (has : h.Has (.sequence q))
    (flat : (h.sequence q).flatMap Value.objects = []) : h.Acyclic (.sequence .list q) := by
  have parts : (h.cell (.sequence q)).parts = [] := flat
  have only : ∀ o, h.Reaches [.sequence q] o → o = .sequence q := fun o => by
    refine Reaches.inside (T := (· = .sequence q)) (fun o mem => List.mem_singleton.mp mem) ?_
    rintro o rfl p mem
    rw [parts] at mem
    cases mem
  refine ⟨fun o reached => ?_, fun c reached => ?_, fun d reached => ?_, fun o reached again => ?_⟩
  · rw [only o reached]
    exact has
  · cases only _ reached
  · cases only _ reached
  · rw [only o reached, parts] at again
    exact not_reaches_nil _ again

end Heap

end LexEnv
