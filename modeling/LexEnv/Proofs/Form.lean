import LexEnv.Hash
import Mathlib.Data.Multiset.Basic

/-!
# Forms

A form is what is left of a value when all identity is taken off it: a tree of quantities, texts and
names, in which numbers of all types are quantities, a set is the same whether it can change or not,
and the elements of a set and the entries of a dictionary stand in an order of their own, whatever
order they were put in. Two values are equal exactly when their forms are (`Proofs/Equality.lean`).

The hash of a value is a function of its form (`Form.code`), and so is the form of its frozen form
(`Form.frozen`). Freezing changes neither the hash (`code_frozen`) nor the depth (`depth_frozen`).
-/

namespace LexEnv

/-- The shapes of containers. -/
inductive Shape where
  | list | tuple | set | dict | scope
deriving DecidableEq, Repr

/-- What a value is apart from identity. The parts of a dictionary or scope are entries. -/
inductive Form where
  | none
  | number (q : Quantity)
  | text (s : String)
  | bytes (b : List UInt8)
  | func (name : String) (native : Native)
  | cls (name : String) (template : Template)
  | entry (key content : Form)
  | node (shape : Shape) (parts : List Form)

/-! ## The hash of a set -/

namespace HashCode

theorem lex_of_notAfter {v w : List Int} (h : notAfter v w = true) :
    (w.lex v fun m n => decide (m < n)) = false := (Bool.not_eq_true' _).mp h

theorem notAfter_trans (u v w : List Int) (uv : notAfter u v = true) (vw : notAfter v w = true) :
    notAfter u w = true :=
  (Bool.not_eq_true' _).mpr (List.lex_eq_false_iff_ge.mpr (List.le_trans
    (List.lex_eq_false_iff_ge.mp (lex_of_notAfter uv))
    (List.lex_eq_false_iff_ge.mp (lex_of_notAfter vw))))

theorem notAfter_total (v w : List Int) : (notAfter v w || notAfter w v) = true := by
  rw [Bool.or_eq_true, notAfter, notAfter, Bool.not_eq_true', Bool.not_eq_true',
    List.lex_eq_false_iff_ge, List.lex_eq_false_iff_ge]
  exact List.le_total v w

theorem notAfter_antisymm {v w : List Int} (vw : notAfter v w = true) (wv : notAfter w v = true) :
    v = w :=
  List.le_antisymm (List.lex_eq_false_iff_ge.mp (lex_of_notAfter vw))
    (List.lex_eq_false_iff_ge.mp (lex_of_notAfter wv))

/-- The order of the elements does not matter for the hash of a set. -/
theorem ofElements_perm {cs ds : List HashCode} (same : cs.Perm ds) :
    ofElements cs = ofElements ds := by
  have sorted : ∀ ws : List (List Int), (ws.mergeSort notAfter).Pairwise (notAfter · ·) :=
    List.pairwise_mergeSort notAfter_trans notAfter_total
  have words : (cs.map word).mergeSort notAfter = (ds.map word).mergeSort notAfter :=
    List.Perm.eq_of_pairwise (fun _ _ _ _ => notAfter_antisymm) (sorted _) (sorted _)
      ((List.mergeSort_perm _ _).trans ((same.map word).trans (List.mergeSort_perm _ _).symm))
  rw [ofElements, ofElements, words, same.length_eq]

end HashCode

namespace Form

/-! ## Parts without an order -/

/-- The same forms in an order that depends on nothing else than how often each of them occurs. -/
noncomputable def bag (fs : List Form) : List Form := (fs : Multiset Form).toList

theorem bag_perm (fs : List Form) : (bag fs).Perm fs :=
  Multiset.coe_eq_coe.mp (Multiset.coe_toList _)

theorem bag_eq_iff {fs gs : List Form} : bag fs = bag gs ↔ fs.Perm gs := by
  refine ⟨fun same => ?_, fun perm => congrArg Multiset.toList (Multiset.coe_eq_coe.mpr perm)⟩
  exact (bag_perm fs).symm.trans (same ▸ bag_perm gs)

theorem mem_bag {f : Form} {fs : List Form} : f ∈ bag fs ↔ f ∈ fs := (bag_perm fs).mem_iff

/-! ## Depth -/

mutual

/-- How many containers and entries are inside each other. -/
def depth : Form → Nat
  | .entry key content => max key.depth content.depth + 1
  | .node _ parts => depths parts + 1
  | _ => 0

/-- The depth of the deepest form. -/
def depths : List Form → Nat
  | [] => 0
  | f :: fs => max f.depth (depths fs)

end

theorem depths_le_iff {fs : List Form} {n : Nat} : depths fs ≤ n ↔ ∀ f ∈ fs, f.depth ≤ n := by
  induction fs with
  | nil => simp [depths]
  | cons f fs ih => rw [depths, Nat.max_le, ih, List.forall_mem_cons]

theorem depths_perm {fs gs : List Form} (same : fs.Perm gs) : depths fs = depths gs :=
  Nat.le_antisymm
    (depths_le_iff.mpr fun f mem => depths_le_iff.mp (Nat.le_refl _) f (same.mem_iff.mp mem))
    (depths_le_iff.mpr fun f mem => depths_le_iff.mp (Nat.le_refl _) f (same.mem_iff.mpr mem))

/-- Of some forms one is as deep as the deepest. -/
theorem exists_depth_eq {fs : List Form} (ne : fs ≠ []) : ∃ f ∈ fs, f.depth = depths fs := by
  induction fs with
  | nil => exact absurd rfl ne
  | cons f fs ih =>
    rcases Nat.le_total (depths fs) f.depth with le | le
    · exact ⟨f, List.mem_cons_self, (Nat.max_eq_left le).symm⟩
    · cases fs with
      | nil => exact ⟨f, List.mem_cons_self, (Nat.max_eq_left (Nat.zero_le _)).symm⟩
      | cons g gs =>
        obtain ⟨f', mem, deepest⟩ := ih (List.cons_ne_nil _ _)
        exact ⟨f', List.mem_cons_of_mem _ mem, deepest.trans (Nat.max_eq_right le).symm⟩

/-- What is inside of a container is less deep. -/
theorem depth_lt_of_mem (shape : Shape) {f : Form} {parts : List Form} (mem : f ∈ parts) :
    f.depth < (node shape parts).depth :=
  Nat.lt_succ_of_le (depths_le_iff.mp (Nat.le_refl _) f mem)

/-- A key and a content as an entry. -/
def ofPair (p : Form × Form) : Form := .entry p.1 p.2

theorem ofPair_injective : Function.Injective ofPair := by
  rintro ⟨k, c⟩ ⟨k', c'⟩ same
  cases same
  rfl

theorem depth_bag (shape : Shape) (fs : List Form) :
    (node shape (bag fs)).depth = (node shape fs).depth :=
  congrArg (· + 1) (depths_perm (bag_perm fs))

/-- Key and content of an entry are less deep. -/
theorem depth_lt_of_mem_pairs (shape : Shape) {p : Form × Form} {ps : List (Form × Form)}
    (mem : p ∈ ps) : p.1.depth + 1 < (node shape (ps.map ofPair)).depth ∧
      p.2.depth + 1 < (node shape (ps.map ofPair)).depth := by
  have inside := depth_lt_of_mem shape (List.mem_map_of_mem (f := ofPair) mem)
  rw [show (ofPair p).depth = max p.1.depth p.2.depth + 1 from rfl] at inside
  omega

theorem depth_lt_of_mem_bag_pairs (shape : Shape) {p : Form × Form} {ps : List (Form × Form)}
    (mem : p ∈ ps) : p.1.depth + 1 < (node shape (bag (ps.map ofPair))).depth ∧
      p.2.depth + 1 < (node shape (bag (ps.map ofPair))).depth := by
  rw [depth_bag]
  exact depth_lt_of_mem_pairs shape mem

end Form

/-! ## Hashes -/

/-- The hash of a container from those of its parts. -/
def Shape.hash (shape : Shape) (parts : List HashCode) : HashCode :=
  match shape with
  | .list | .tuple => .ofItems parts
  | .set | .dict => .ofElements parts
  | .scope => .ofItems (.ofNat parts.length :: parts)

namespace Form

mutual

/-- The hash of the frozen values of a form. -/
def code : Form → HashCode
  | .none => ⟨[5]⟩
  | .number q => .ofQuantity q
  | .text s => .ofText s
  | .bytes b => .ofStored (b.map UInt8.toNat)
  | .func name native => .ofItems [.ofText name, ⟨[6, native.code]⟩]
  | .cls name template => .ofItems [.ofText name, ⟨[7, template.code]⟩]
  | .entry key content => .ofItems [key.code, content.code]
  | .node shape parts => shape.hash (codes parts)

/-- The hashes of the frozen values of some forms. -/
def codes : List Form → List HashCode
  | [] => []
  | f :: fs => f.code :: codes fs

end

@[simp] theorem codes_eq_map (fs : List Form) : codes fs = fs.map code := by
  induction fs with
  | nil => rfl
  | cons f fs ih => rw [codes, ih, List.map_cons]

/-! ## Freezing -/

mutual

/-- The form of a frozen value: lists become tuples, dictionaries become sets of pairs, scopes stay
as they are. -/
noncomputable def frozen : Form → Form
  | .entry key content => .node .tuple [key, content.frozen]
  | .node .scope parts => .node .scope parts
  | .node .list parts => .node .tuple (frozens parts)
  | .node .tuple parts => .node .tuple (frozens parts)
  | .node .set parts => .node .set (bag (frozens parts))
  | .node .dict parts => .node .set (bag (frozens parts))
  | f => f

/-- The forms of some frozen values. -/
noncomputable def frozens : List Form → List Form
  | [] => []
  | f :: fs => f.frozen :: frozens fs

end

@[simp] theorem frozens_eq_map (fs : List Form) : frozens fs = fs.map frozen := by
  induction fs with
  | nil => rfl
  | cons f fs ih => rw [frozens, ih, List.map_cons]

theorem frozen_ofPair (p : Form × Form) : (ofPair p).frozen = .node .tuple [p.1, p.2.frozen] := by
  rw [ofPair, frozen]

/-- The entries of a dictionary are frozen one by one. -/
theorem frozen_dict (ps : List (Form × Form)) : (node .dict (bag (ps.map ofPair))).frozen =
    .node .set (bag (ps.map fun p => (ofPair p).frozen)) := by
  rw [frozen, frozens_eq_map, bag_eq_iff.mpr ((bag_perm _).map _), List.map_map]
  rfl

/-- Elements are hashed in any order. -/
theorem code_set_bag (fs : List Form) :
    (node .set (bag fs)).code = .ofElements (fs.map code) := by
  rw [code, codes_eq_map]
  exact HashCode.ofElements_perm ((bag_perm fs).map code)

mutual

/-- Freezing does not change the hash. -/
theorem code_frozen : ∀ f : Form, f.frozen.code = f.code
  | .none | .number _ | .text _ | .bytes _ | .func _ _ | .cls _ _ => rfl
  | .entry key content => by
    simp only [frozen, code, codes, code_frozen content]
    rfl
  | .node .scope _ => rfl
  | .node .list parts => by
    rw [frozen, code, code, codes_frozens parts]
    rfl
  | .node .tuple parts => by rw [frozen, code, code, codes_frozens parts]
  | .node .set parts => by
    rw [frozen, code_set_bag, code, ← codes_eq_map, codes_frozens parts]
    rfl
  | .node .dict parts => by
    rw [frozen, code_set_bag, code, ← codes_eq_map, codes_frozens parts]
    rfl

theorem codes_frozens : ∀ fs : List Form, codes (frozens fs) = codes fs
  | [] => rfl
  | f :: fs => by rw [frozens, codes, codes, code_frozen f, codes_frozens fs]

end

mutual

/-- Freezing does not change the depth. -/
theorem depth_frozen : ∀ f : Form, f.frozen.depth = f.depth
  | .none | .number _ | .text _ | .bytes _ | .func _ _ | .cls _ _ => rfl
  | .entry key content => by
    simp only [frozen, depth, depths, depth_frozen content, Nat.max_zero]
  | .node .scope _ => rfl
  | .node .list parts => by rw [frozen, depth, depth, depths_frozens parts]
  | .node .tuple parts => by rw [frozen, depth, depth, depths_frozens parts]
  | .node .set parts => by rw [frozen, depth_bag, depth, depth, depths_frozens parts]
  | .node .dict parts => by rw [frozen, depth_bag, depth, depth, depths_frozens parts]

theorem depths_frozens : ∀ fs : List Form, depths (frozens fs) = depths fs
  | [] => rfl
  | f :: fs => by rw [frozens, depths, depths, depth_frozen f, depths_frozens fs]

end

end Form

end LexEnv
