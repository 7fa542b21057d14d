import LexEnv.Proofs.Mirror
import LexEnv.Written
import Mathlib.Data.Multiset.Basic
import Mathlib.Tactic.Linarith

/-!
# Written forms of linked values

Values that are alike have the same written form (`Link.Mirrors.written`). The walk that writes a value
is cut off after a number of steps that grows with the heap, so this takes an argument: a walk that
needs more steps than its own heap allows goes in circles and never ends.

A walk that comes to an end with one step more, and not before, takes a last step that is the last one
of a shorter such walk (`OneShort.inside`). The walks behind each other either get into a container
that they were not in, or pass a slot or scope that they did not pass since, and a heap has only so
many of both (`OneShort.bounded`).
-/

namespace LexEnv

/-! ## Comparing outcomes -/

/-- A way to compare outcomes that steps one after another keep. -/
structure Comparison where
  rel {α : Type} : Except Error α → Except Error α → Prop
  ok {α : Type} (a : α) : rel (.ok a) (.ok a)
  error {α : Type} (e : Error) : e.value? = none → rel (.error e : Except Error α) (.error e)
  bind {α β : Type} {r r' : Except Error α} {f f' : α → Except Error β} :
    rel r r' → (∀ a, rel (f a) (f' a)) → rel (r >>= f) (r' >>= f')

namespace Comparison

/-- Outcomes that are equal. -/
def same : Comparison where
  rel r r' := r = r'
  ok _ := rfl
  error _ _ := rfl
  bind first next := first ▸ congrArg _ (funext next)

/-- Outcomes that are equal, unless the first one is for want of steps. -/
def atLeast : Comparison where
  rel r r' := r = .error .endless ∨ r = r'
  ok _ := .inr rfl
  error _ _ := .inr rfl
  bind {α β r r' f f'} first next := by
    rcases first with rfl | rfl
    · exact .inl rfl
    · cases r with
      | error e => exact .inr rfl
      | ok a => exact next a

/-- Outcomes that are equal and carry no value if they are errors. -/
def plain : Comparison where
  rel r r' := r = r' ∧ ∀ e, r = .error e → e.value? = none
  ok _ := ⟨rfl, nofun⟩
  error e none := ⟨rfl, fun _ h => Except.error.inj h ▸ none⟩
  bind {α β r r' f f'} first next := by
    obtain ⟨rfl, carries⟩ := first
    cases r with
    | error e => exact ⟨rfl, fun e' h => carries e' (congrArg _ (Except.error.inj h))⟩
    | ok a => exact next a

theorem mapM (C : Comparison) {α β γ : Type} {f : α → Except Error γ} {f' : β → Except Error γ}
    {as : List α} {bs : List β} (all : List.Forall₂ (fun a b => C.rel (f a) (f' b)) as bs) :
    C.rel (as.mapM f) (bs.mapM f') := by
  induction all with
  | nil => exact C.ok []
  | cons first _ ih =>
    rw [List.mapM_cons, List.mapM_cons]
    exact C.bind first fun _ => C.bind ih fun _ => C.ok _

end Comparison

/-! ## The walk that writes a value -/

/-- The object that a container is a part of. -/
def Enclosing.object : Enclosing → Object
  | .sequence c => .sequence c
  | .set c => .set c
  | .dict d => .dict d
  | .positional a | .named a => .arguments a

namespace Heap

/-- Where the walk inside some containers goes on from a value: inside which ones, and to what. -/
inductive Inside (h : Heap) : List Enclosing → Value → List Enclosing → Value → Prop where
  | item {path : List Enclosing} {kind : SequenceKind} {c : SequenceId} {w : Value}
    (out : .sequence c ∉ path) (mem : w ∈ h.sequence c) :
    Inside h path (.sequence kind c) (.sequence c :: path) w
  | element {path : List Enclosing} {kind : SetKind} {c : SetId} {w : Value}
    (out : .set c ∉ path) (mem : w ∈ (h.set c).keyValues) :
    Inside h path (.set kind c) (.set c :: path) w
  | key {path : List Enclosing} {d : DictId} {e : Key × Value} (out : .dict d ∉ path)
    (mem : e ∈ (h.dict d).entries) : Inside h path (.dict d) (.dict d :: path) e.1.value
  | entry {path : List Enclosing} {d : DictId} {e : Key × Value} (out : .dict d ∉ path)
    (mem : e ∈ (h.dict d).entries) : Inside h path (.dict d) (.dict d :: path) e.2
  | content {path : List Enclosing} {s : SlotId} : Inside h path (.slot s) path (h.slot s).value
  | bound {path : List Enclosing} {c : ScopeId} {s : SlotId} :
    Inside h path (.scope c) path (h.slot s).value
  | positional {path : List Enclosing} {a : ArgumentsId} {w : Value} (out : .positional a ∉ path)
    (mem : w ∈ (h.args a).positional) : Inside h path (.arguments a) (.positional a :: path) w
  | named {path : List Enclosing} {a : ArgumentsId} {e : String × Value} (out : .named a ∉ path)
    (mem : e ∈ (h.args a).named) : Inside h path (.arguments a) (.named a :: path) e.2

/-- Something written inside a container, unless the walk is inside it already. -/
def enclosed (path : List Enclosing) (c : Enclosing) (ellipsis : String)
    (write : List Enclosing → Except Error String) : Except Error String :=
  if c ∈ path then .ok ellipsis else write (c :: path)

section

variable (h : Heap) (k : Nat) (path : List Enclosing)

theorem writeWithin_sequence (kind : SequenceKind) (c : SequenceId) :
    h.writeWithin (k + 1) path (.sequence kind c) =
      enclosed path (.sequence c) kind.ellipsis fun path => do
        return kind.bracket (← (h.sequence c).mapM (h.writeWithin k path)) := rfl

theorem writeWithin_set (kind : SetKind) (c : SetId) :
    h.writeWithin (k + 1) path (.set kind c) =
      enclosed path (.set c) kind.ellipsis fun path => do
        return kind.bracket (← (h.set c).keyValues.mapM (h.writeWithin k path)) := rfl

theorem writeWithin_dict (d : DictId) :
    h.writeWithin (k + 1) path (.dict d) =
      enclosed path (.dict d) "\x7b...\x7d" fun path => do
        return bracketEntries (← (h.dict d).entries.mapM fun e => do
          return (← h.writeWithin k path e.1.value) ++ ": " ++ (← h.writeWithin k path e.2)) := rfl

theorem writeWithin_slot (s : SlotId) :
    h.writeWithin (k + 1) path (.slot s) =
      match (h.slot s).kind with
      | .bare => .ok ("<" ++ SlotKind.bare.typeName ++ " object>")
      | kind => do
        return kind.typeName ++ "(" ++ (← h.writeWithin k path (h.slot s).value) ++ ")" := rfl

theorem writeWithin_arguments (a : ArgumentsId) :
    h.writeWithin (k + 1) path (.arguments a) = do
      let positional ← enclosed path (.positional a) SequenceKind.list.ellipsis fun path => do
        return SequenceKind.list.bracket (← (h.args a).positional.mapM (h.writeWithin k path))
      let named ← enclosed path (.named a) "\x7b...\x7d" fun path => do
        return bracketEntries (← (h.args a).named.mapM fun e => do
          return Text.quote e.1 ++ ": " ++ (← h.writeWithin k path e.2))
      return "Args(" ++ positional ++ ", " ++ named ++ ")" := rfl

/-- A scope whose names are texts is written with its names as they are. -/
theorem writeWithin_scope {c : ScopeId} {es : List (String × SlotId)}
    (listed : h.enumerate (h.scope c) = .ok (es.map fun e => (.text e.1, e.2))) :
    h.writeWithin (k + 1) path (.scope c) = do
      let shown ← es.mapM fun e => do
        return e.1 ++ ": " ++ (← h.writeWithin k path (h.slot e.2).value)
      return "Scope " ++ bracketEntries shown := by
  rw [writeWithin, listed]
  show (List.mapM (m := Except Error) _ (es.map _) >>= _) = _
  rw [List.mapM_map]
  rfl

end

end Heap

namespace Link

variable {L : Link}

/-- Containers that stand for each other. -/
inductive Enclosings (L : Link) : Enclosing → Enclosing → Prop where
  | sequence {c d : SequenceId} (linked : L (.sequence c) (.sequence d)) :
    Enclosings L (.sequence c) (.sequence d)
  | set {c d : SetId} (linked : L (.set c) (.set d)) : Enclosings L (.set c) (.set d)
  | dict {d e : DictId} (linked : L (.dict d) (.dict e)) : Enclosings L (.dict d) (.dict e)
  | positional {a b : ArgumentsId} (linked : L (.arguments a) (.arguments b)) :
    Enclosings L (.positional a) (.positional b)
  | named {a b : ArgumentsId} (linked : L (.arguments a) (.arguments b)) :
    Enclosings L (.named a) (.named b)

namespace Mirrors

variable {h g : Heap} (m : L.Mirrors h g)

include m

/-- Containers stand for each other one to one. -/
theorem enclosings_unique : Relator.BiUnique L.Enclosings := by
  constructor
  · intro a b c ha hb
    cases ha with
    | sequence linked => cases hb with | sequence linked' => cases m.injective linked linked'; rfl
    | set linked => cases hb with | set linked' => cases m.injective linked linked'; rfl
    | dict linked => cases hb with | dict linked' => cases m.injective linked linked'; rfl
    | positional linked => cases hb with | positional linked' => cases m.injective linked linked'; rfl
    | named linked => cases hb with | named linked' => cases m.injective linked linked'; rfl
  · intro a b c ha hb
    cases ha with
    | sequence linked => cases hb with | sequence linked' => cases m.functional linked linked'; rfl
    | set linked => cases hb with | set linked' => cases m.functional linked linked'; rfl
    | dict linked => cases hb with | dict linked' => cases m.functional linked linked'; rfl
    | positional linked => cases hb with | positional linked' => cases m.functional linked linked'; rfl
    | named linked => cases hb with | named linked' => cases m.functional linked linked'; rfl

/-- A walk is inside a container exactly when the walk in the other heap is inside its
counterpart. -/
theorem enclosed (C : Comparison) {p q : List Enclosing} {c d : Enclosing}
    (paths : List.Forall₂ L.Enclosings p q) (linked : L.Enclosings c d) (ellipsis : String)
    {write write' : List Enclosing → Except Error String}
    (inner : c ∉ p → C.rel (write (c :: p)) (write' (d :: q))) :
    C.rel (Heap.enclosed p c ellipsis write) (Heap.enclosed q d ellipsis write') := by
  have inside : c ∈ p ↔ d ∈ q := List.rel_mem m.enclosings_unique linked paths
  unfold Heap.enclosed
  by_cases here : c ∈ p
  · rw [if_pos here, if_pos (inside.mp here)]
    exact C.ok _
  · rw [if_neg here, if_neg fun there => here (inside.mpr there)]
    exact inner here

/-- Walks over values that are alike compare as the walks that they go on with. -/
theorem writeWithin (C : Comparison) {k l : Nat} {p q : List Enclosing} {v w : Value}
    (paths : List.Forall₂ L.Enclosings p q) (alike : L.Alike v w)
    (inner : ∀ {p' q' v' w'}, h.Inside p v p' v' → List.Forall₂ L.Enclosings p' q' →
      L.Alike v' w' → C.rel (h.writeWithin k p' v') (g.writeWithin l q' w')) :
    C.rel (h.writeWithin (k + 1) p v) (g.writeWithin (l + 1) q w) := by
  cases alike with
  | none => exact C.ok _
  | bool b => exact C.ok _
  | int n =>
    rw [Heap.writeWithin, Heap.writeWithin]
    split
    · exact C.ok _
    · exact C.error _ rfl
  | float x serials => exact C.ok _
  | text s => exact C.ok _
  | bytes b => exact C.ok _
  | func name native serials => exact C.ok _
  | cls name template serials => exact C.ok _
  | stack linked => exact C.ok _
  | context linked => exact C.ok _
  | @sequence kind c d linked =>
    rw [Heap.writeWithin_sequence, Heap.writeWithin_sequence]
    refine m.enclosed C paths (.sequence linked) _ fun out => C.bind (C.mapM ?_) fun _ => C.ok _
    refine (forall₂_mem (m.sequence linked)).imp fun v w both => ?_
    exact inner (.item out both.2.1) (.cons (.sequence linked) paths) both.1
  | @set kind c d linked =>
    rw [Heap.writeWithin_set, Heap.writeWithin_set]
    refine m.enclosed C paths (.set linked) _ fun out => C.bind (C.mapM ?_) fun _ => C.ok _
    refine (forall₂_mem (m.set linked).keyValues).imp fun v w both => ?_
    exact inner (.element out both.2.1) (.cons (.set linked) paths) both.1
  | @dict d e linked =>
    rw [Heap.writeWithin_dict, Heap.writeWithin_dict]
    refine m.enclosed C paths (.dict linked) _ fun out => C.bind (C.mapM ?_) fun _ => C.ok _
    refine (forall₂_mem (m.dict linked)).imp fun e f both => ?_
    refine C.bind (inner (.key out both.2.1) (.cons (.dict linked) paths) both.1.1.value) fun _ => ?_
    exact C.bind (inner (.entry out both.2.1) (.cons (.dict linked) paths) both.1.2) fun _ => C.ok _
  | @slot s t linked =>
    obtain ⟨kinds, value⟩ := m.slot linked
    rw [Heap.writeWithin_slot, Heap.writeWithin_slot, ← kinds]
    split
    · exact C.ok _
    · exact C.bind (inner .content paths value) fun _ => C.ok _
  | @scope c d linked =>
    obtain ⟨es, fs, listed, listed', named⟩ := m.enumerate linked
    rw [Heap.writeWithin_scope h k p listed, Heap.writeWithin_scope g l q listed']
    refine C.bind (C.mapM (named.imp fun e f named => ?_)) fun _ => C.ok _
    rw [named.1]
    exact C.bind (inner .bound paths (m.slot named.2).2) fun _ => C.ok _
  | @arguments a b linked =>
    obtain ⟨positional, named⟩ := m.args linked
    rw [Heap.writeWithin_arguments, Heap.writeWithin_arguments]
    refine C.bind (m.enclosed C paths (.positional linked) _ fun out => ?_) fun _ =>
      C.bind (m.enclosed C paths (.named linked) _ fun out => ?_) fun _ => C.ok _
    · refine C.bind (C.mapM ?_) fun _ => C.ok _
      refine (forall₂_mem positional).imp fun v w both => ?_
      exact inner (.positional out both.2.1) (.cons (.positional linked) paths) both.1
    · refine C.bind (C.mapM ?_) fun _ => C.ok _
      refine (forall₂_mem named).imp fun e f both => ?_
      rw [both.1.1]
      exact C.bind (inner (.named out both.2.1) (.cons (.named linked) paths) both.1.2) fun _ => C.ok _

/-- Walks of the same number of steps over values that are alike end alike. -/
theorem writeWithin_eq (k : Nat) {p q : List Enclosing} {v w : Value}
    (paths : List.Forall₂ L.Enclosings p q) (alike : L.Alike v w) :
    Comparison.plain.rel (h.writeWithin k p v) (g.writeWithin k q w) := by
  induction k generalizing p q v w with
  | zero => exact Comparison.plain.error .endless rfl
  | succ k ih => exact m.writeWithin .plain paths alike fun _ paths alike => ih paths alike

end Mirrors

/-! ## A heap and itself -/

section

variable {T : Object → Prop}

theorem eq_of_alike_on {v w : Value} (alike : (on T).Alike v w) : v = w := by
  have serials : ∀ {m n : Nat}, (on T).Serials m n → m = n := by
    rintro m n (⟨rfl, rfl⟩ | ⟨same, -⟩)
    · rfl
    · exact Object.serial.inj same
  cases alike with
  | float x same => rw [serials same]
  | func name native same => rw [serials same]
  | cls name template same => rw [serials same]
  | sequence kind linked => cases linked.1; rfl
  | set kind linked => cases linked.1; rfl
  | dict linked => cases linked.1; rfl
  | slot linked => cases linked.1; rfl
  | scope linked => cases linked.1; rfl
  | stack linked => cases linked.1; rfl
  | arguments linked => cases linked.1; rfl
  | context linked => cases linked.1; rfl
  | _ => rfl

theorem eq_of_enclosings_on {c d : Enclosing} (linked : (on T).Enclosings c d) : c = d := by
  cases linked with
  | sequence linked => cases linked.1; rfl
  | set linked => cases linked.1; rfl
  | dict linked => cases linked.1; rfl
  | positional linked => cases linked.1; rfl
  | named linked => cases linked.1; rfl

theorem eq_of_paths_on {p q : List Enclosing} (paths : List.Forall₂ (on T).Enclosings p q) :
    p = q := by
  induction paths with
  | nil => rfl
  | cons first _ ih => rw [eq_of_enclosings_on first, ih]

end

end Link

namespace Heap

open Link

variable {h : Heap} {T : Object → Prop} {p : List Enclosing} {v : Value}

/-- A walk that is cut off, and is not with one step more. -/
def OneShort (h : Heap) (n : Nat) (p : List Enclosing) (v : Value) : Prop :=
  h.writeWithin n p v = .error .endless ∧ h.writeWithin (n + 1) p v ≠ .error .endless

section

variable (m : (on T).Mirrors h h) (paths : List.Forall₂ (on T).Enclosings p p)
  (alike : (on T).Alike v v)

include m paths alike

/-- More steps do not change how a walk ends. -/
theorem atLeast_writeWithin {k l : Nat} (le : k ≤ l) :
    Comparison.atLeast.rel (h.writeWithin k p v) (h.writeWithin l p v) := by
  induction k generalizing l p v with
  | zero => exact .inl rfl
  | succ k ih =>
    obtain ⟨l, rfl⟩ := Nat.exists_eq_succ_of_ne_zero (Nat.ne_of_gt (Nat.zero_lt_of_lt le))
    refine m.writeWithin .atLeast paths alike fun {p' q' v' w'} _ paths' alike' => ?_
    cases eq_of_paths_on paths'
    cases eq_of_alike_on alike'
    exact ih paths' alike' (Nat.le_of_succ_le_succ le)

theorem OneShort.eq {n k : Nat} (short : h.OneShort n p v) (short' : h.OneShort k p v) : n = k := by
  have le : ∀ {n k : Nat}, h.OneShort n p v → h.OneShort k p v → k ≤ n := by
    intro n k short short'
    refine Nat.le_of_not_lt fun less => ?_
    rcases atLeast_writeWithin m paths alike (Nat.succ_le_of_lt less) with cut | same
    · exact short.2 cut
    · exact short.2 (same.trans short'.1)
  exact Nat.le_antisymm (le short' short) (le short short')

/-- The last step of a walk that is just long enough is the last one of a shorter such walk. -/
theorem OneShort.inside {n : Nat} (short : h.OneShort (n + 1) p v) :
    ∃ p' v', h.Inside p v p' v' ∧ List.Forall₂ (on T).Enclosings p' p' ∧ (on T).Alike v' v' ∧
      h.OneShort n p' v' := by
  by_contra none
  refine short.2 ((short.1.symm.trans ?_).symm)
  refine m.writeWithin .same paths alike fun {p' q' v' w'} inside paths' alike' => ?_
  cases eq_of_paths_on paths'
  cases eq_of_alike_on alike'
  rcases atLeast_writeWithin m paths' alike' (Nat.le_succ n) with cut | same
  · rw [cut]
    by_contra more
    exact none ⟨p', v', inside, paths', alike', cut, Ne.symm more⟩
  · exact same

end

/-! ## How long walks are -/

/-- The containers of a heap that a walk can be inside of. -/
def enclosings (h : Heap) : List Enclosing :=
  (List.range h.sequences.size).map (fun i => .sequence ⟨i⟩) ++
  (List.range h.sets.size).map (fun i => .set ⟨i⟩) ++
  (List.range h.dicts.size).map (fun i => .dict ⟨i⟩) ++
  (List.range h.arguments.size).map (fun i => .positional ⟨i⟩) ++
  (List.range h.arguments.size).map (fun i => .named ⟨i⟩)

/-- The slots and scopes of a heap. -/
def holders (h : Heap) : List Value :=
  (List.range h.slots.size).map (fun i => .slot ⟨i⟩) ++
  (List.range h.scopes.size).map (fun i => .scope ⟨i⟩)

theorem mem_enclosings (c : Enclosing) (has : h.Has c.object) : c ∈ h.enclosings := by
  cases c <;> simp only [enclosings, List.mem_append, List.mem_map, List.mem_range, reduceCtorEq,
    and_false, exists_false, or_false, false_or]
  all_goals exact ⟨_, has, rfl⟩

theorem slot_mem_holders {s : SlotId} (has : h.Has (.slot s)) : .slot s ∈ h.holders :=
  List.mem_append_left _ (List.mem_map.mpr ⟨s.index, List.mem_range.mpr has, rfl⟩)

theorem scope_mem_holders {c : ScopeId} (has : h.Has (.scope c)) : .scope c ∈ h.holders :=
  List.mem_append_right _ (List.mem_map.mpr ⟨c.index, List.mem_range.mpr has, rfl⟩)

/-- A walk goes on inside a container that it was not in, or passes a slot or scope. -/
theorem Inside.cases_path (m : (on T).Mirrors h h) (alike : (on T).Alike v v) {p' : List Enclosing}
    {v' : Value} (inside : h.Inside p v p' v') :
    (∃ c, c ∈ h.enclosings ∧ c ∉ p ∧ p' = c :: p) ∨ v ∈ h.holders ∧ p' = p := by
  cases inside with
  | item out mem =>
    cases alike with
    | sequence _ linked => exact .inl ⟨_, mem_enclosings (.sequence _) (m.exist linked).1, out, rfl⟩
  | element out mem =>
    cases alike with
    | set _ linked => exact .inl ⟨_, mem_enclosings (.set _) (m.exist linked).1, out, rfl⟩
  | key out mem =>
    cases alike with
    | dict linked => exact .inl ⟨_, mem_enclosings (.dict _) (m.exist linked).1, out, rfl⟩
  | entry out mem =>
    cases alike with
    | dict linked => exact .inl ⟨_, mem_enclosings (.dict _) (m.exist linked).1, out, rfl⟩
  | positional out mem =>
    cases alike with
    | arguments linked => exact .inl ⟨_, mem_enclosings (.positional _) (m.exist linked).1, out, rfl⟩
  | named out mem =>
    cases alike with
    | arguments linked => exact .inl ⟨_, mem_enclosings (.named _) (m.exist linked).1, out, rfl⟩
  | content =>
    cases alike with
    | slot linked => exact .inr ⟨slot_mem_holders (m.exist linked).1, rfl⟩
  | bound =>
    cases alike with
    | scope linked => exact .inr ⟨scope_mem_holders (m.exist linked).1, rfl⟩

/-- A walk that is just long enough is not longer than there are containers and, for each of them,
slots and scopes. Here it is inside of the containers of `p`, and `passed` are the slots and scopes
that it passed since it got into the last one. -/
theorem OneShort.bounded (m : (on T).Mirrors h h) {n : Nat}
    (paths : List.Forall₂ (on T).Enclosings p p) (alike : (on T).Alike v v)
    (short : h.OneShort n p v) (distinct : p.Nodup) (exist : ∀ c ∈ p, c ∈ h.enclosings)
    {passed : List Value} (apart : passed.Nodup) (known : ∀ w ∈ passed, w ∈ h.holders)
    (longer : ∀ w ∈ passed, (on T).Alike w w ∧ ∃ k, n < k ∧ h.OneShort k p w) :
    n + p.length * (h.holders.length + 1) + passed.length ≤
      h.enclosings.length * (h.holders.length + 1) + h.holders.length := by
  have few : passed.length ≤ h.holders.length := (List.subperm_of_subset apart known).length_le
  induction n generalizing p v passed with
  | zero =>
    have inside : p.length ≤ h.enclosings.length := (List.subperm_of_subset distinct exist).length_le
    have := Nat.mul_le_mul_right (h.holders.length + 1) inside
    omega
  | succ n ih =>
    obtain ⟨p', v', inside, paths', alike', short'⟩ := short.inside m paths alike
    rcases inside.cases_path m alike with ⟨c, mem, out, rfl⟩ | ⟨mem, rfl⟩
    · have bound := ih paths' alike' short' (List.nodup_cons.mpr ⟨out, distinct⟩)
        (List.forall_mem_cons.mpr ⟨mem, exist⟩) List.nodup_nil nofun nofun (Nat.zero_le _)
      rw [List.length_cons, Nat.succ_mul] at bound
      simp only [List.length_nil] at bound
      omega
    · -- A slot or scope that was passed is not met again: its walk would be of two lengths.
      have new : v ∉ passed := fun old => by
        obtain ⟨_, k, less, short''⟩ := longer v old
        exact Nat.ne_of_lt less (short.eq m paths alike short'')
      have all : ∀ w ∈ v :: passed, w ∈ h.holders := List.forall_mem_cons.mpr ⟨mem, known⟩
      have apart' : (v :: passed).Nodup := List.nodup_cons.mpr ⟨new, apart⟩
      have bound := ih paths' alike' short' distinct exist apart' all
        (List.forall_mem_cons.mpr ⟨⟨alike, _, Nat.lt_succ_self n, short⟩, fun w old => by
          obtain ⟨same, k, less, longer⟩ := longer w old
          exact ⟨same, k, Nat.lt_of_succ_lt less, longer⟩⟩)
        (List.subperm_of_subset apart' all).length_le
      rw [List.length_cons] at bound
      omega

theorem exists_reach (h : Heap) : ∃ k, h.reach = k + 1 :=
  Nat.exists_eq_add_one.mpr (Nat.mul_pos (Nat.succ_pos _) (Nat.succ_pos _))

/-- A heap allows for walks that are longer than any that is just long enough, by more than a step. -/
theorem lt_reach (h : Heap) :
    h.enclosings.length * (h.holders.length + 1) + h.holders.length + 1 < h.reach := by
  have holders : h.holders.length = h.slots.size + h.scopes.size := by simp [holders]
  have enclosings : h.enclosings.length ≤
      2 * (h.sequences.size + h.sets.size + h.dicts.size + h.arguments.size) := by
    simp [enclosings]
    omega
  have size : h.sequences.size + h.sets.size + h.dicts.size + h.arguments.size +
      h.holders.length ≤ h.size := by
    rw [holders, Heap.size]
    omega
  rw [reach]
  generalize h.sequences.size + h.sets.size + h.dicts.size + h.arguments.size = a at *
  generalize h.holders.length = b at *
  nlinarith [Nat.mul_le_mul size size, Nat.mul_le_mul_right (b + 1) enclosings]

/-- Nothing changes when more steps are taken than the longest walk needs. -/
theorem writeWithin_of_le (m : (on T).Mirrors h h) (alike : (on T).Alike v v) {k n : Nat}
    (enough : h.enclosings.length * (h.holders.length + 1) + h.holders.length < k) (more : k ≤ n) :
    h.writeWithin n [] v = h.writeWithin k [] v := by
  rcases atLeast_writeWithin m .nil alike more with cut | same
  · rw [cut]
    -- If the walk came to an end at all, it would be just long enough somewhere above the bound.
    induction more with
    | refl => exact cut
    | @step n more ih =>
      have more : k ≤ n := more
      by_contra ends
      have bound := OneShort.bounded m .nil alike ⟨ih, ends⟩ List.nodup_nil nofun List.nodup_nil
        nofun nofun
      simp only [List.length_nil] at bound
      omega
  · exact same.symm

/-- The written form takes a step less than a heap allows for. -/
theorem written_eq (m : (on T).Mirrors h h) (alike : (on T).Alike v v) {n : Nat}
    (enough : h.reach ≤ n + 1) : h.writeWithin n [] v = h.written v := by
  have room := h.lt_reach
  obtain ⟨k, reach⟩ := h.exists_reach
  rw [written, reach, writeWithin_of_le m alike (k := k) (by omega) (by omega),
    writeWithin_of_le m alike (k := k) (by omega) (Nat.le_succ k)]

end Heap

/-- Values that are alike have the same written form, or none for the same reason. -/
theorem Link.Mirrors.written {L : Link} {h g : Heap} (m : L.Mirrors h g) {v w : Value}
    (alike : L.Alike v w) :
    h.written v = g.written w ∧ ∀ e, h.written v = .error e → e.value? = none := by
  have left : (on L.source).Alike v v := alike_on alike.spans.1
  have right : (on L.target).Alike w w := alike_on alike.spans.2
  rw [← Heap.written_eq m.source left (Nat.le_succ_of_le (Nat.le_max_left h.reach g.reach)),
    ← Heap.written_eq m.target right (Nat.le_succ_of_le (Nat.le_max_right h.reach g.reach))]
  exact m.writeWithin_eq _ .nil alike

end LexEnv
