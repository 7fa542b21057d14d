import LexEnv.Proofs.Request

/-!
# Evaluations over one base

Several hosts work in one heap, each with an evaluation of its own: a context with its stack, its
styles and its output. All stacks look names up in the same base at last, whose slots are all
constant; apart from the base, its slots and serial numbers no object can be reached by two of them
(`Apart`). The hosts take turns in any order. Then each of them is answered what it is answered when
it works alone, and it finds the same output and styles (`Apart.same_alone`).

The objects that are made on the way are not at the same places of both heaps, so that they are the
same is said along a link (`Link.Mirrors`). Objects that were there from the start stand for
themselves.
-/

namespace LexEnv

/-! ## Reach -/

/-- The objects that can be reached from some objects. -/
inductive Heap.Reaches (h : Heap) (roots : List Object) : Object → Prop where
  | root {o : Object} (mem : o ∈ roots) : h.Reaches roots o
  | part {o p : Object} (reached : h.Reaches roots o) (mem : p ∈ (h.cell o).parts) :
    h.Reaches roots p

/-- Objects whose parts are among them are all that can be reached. -/
theorem Heap.Reaches.inside {h : Heap} {roots : List Object} {T : Object → Prop}
    (start : ∀ o ∈ roots, T o) (closed : ∀ o, T o → ∀ p ∈ (h.cell o).parts, T p) {o : Object}
    (reached : h.Reaches roots o) : T o := by
  induction reached with
  | root mem => exact start _ mem
  | part _ mem ih => exact closed _ ih _ mem

/-! ## Hosts and plays -/

/-- A host: the context of its evaluation and the values that it knows from the start. -/
structure Host where
  context : ContextId
  known : List Value

/-- The stack of a host. -/
def Host.stack (x : Host) (h : Heap) : Stack := h.stack (h.context x.context).stack

/-- What a host can reach from. -/
def Host.roots (x : Host) : List Object := .context x.context :: x.known.flatMap Value.objects

/-- The values that come with an answer or an error. -/
def carried : Except Error (List Value) → List Value
  | .ok vs => vs
  | .error e => e.value?.toList

/-- How far a play is: the state, and what each host was answered. -/
structure Play (ι : Type) where
  state : State
  answers : ι → List (Except Error (List Value))

namespace Play

variable {ι : Type} [DecidableEq ι]

/-- A play without answers so far. -/
def start (st : State) : Play ι := ⟨st, fun _ => []⟩

/-- The values that a host knows. -/
def known (hosts : ι → Host) (p : Play ι) (i : ι) : List Value :=
  (hosts i).known ++ (p.answers i).flatMap carried

/-- A host makes a request, with the values that it knows. -/
def move (hosts : ι → Host) (p : Play ι) (m : ι × Request) : Play ι :=
  let outcome := (m.2.perform (hosts m.1).context (p.known hosts m.1)).run p.state
  ⟨outcome.2, Function.update p.answers m.1 (p.answers m.1 ++ [outcome.1])⟩

/-- The hosts make their requests in turn. -/
def run (hosts : ι → Host) (p : Play ι) (moves : List (ι × Request)) : Play ι :=
  moves.foldl (move hosts) p

section

variable (hosts : ι → Host) (p : Play ι) (i : ι) (r : Request)

theorem answers_move :
    (p.move hosts (i, r)).answers i
      = p.answers i ++ [((r.perform (hosts i).context (p.known hosts i)).run p.state).1] :=
  Function.update_self _ _ _

theorem answers_move_of_ne {k : ι} (other : k ≠ i) :
    (p.move hosts (i, r)).answers k = p.answers k := Function.update_of_ne other _ _

/-- Alone, only the host that makes a move goes on. -/
theorem run_filter_cons (alone : ι → Play ι) (m : ι × Request) (moves : List (ι × Request)) :
    (alone i).run hosts ((m :: moves).filter (·.1 = i))
      = (Function.update alone m.1 ((alone m.1).move hosts m) i).run hosts
          (moves.filter (·.1 = i)) := by
  rcases eq_or_ne m.1 i with same | other
  · subst same
    rw [Function.update_self, List.filter_cons_of_pos (by simp)]
    rfl
  · rw [Function.update_of_ne other.symm, List.filter_cons_of_neg (by simpa using other)]

end

end Play

/-! ## What keeps evaluations apart -/

/-- The evaluation of a host over a base. -/
def Host.evaluation (x : Host) (h : Heap) (base : ScopeId) : Evaluation where
  context := x.context
  content := h.context x.context
  base := base
  slots := (h.scope base).entries.map (·.2)

/-- Hosts whose evaluations have a constant base in common and nothing else but serial numbers. -/
structure Apart {ι : Type} (h : Heap) (base : ScopeId) (hosts : ι → Host) : Prop where
  exist : ∀ i o, h.Reaches (hosts i).roots o → h.Has o
  textual : ∀ i c, h.Reaches (hosts i).roots (.scope c) → (h.scope c).Textual
  based : ∀ i, ((hosts i).stack h).base = some base
  own : ∀ i, base ∉ ((hosts i).stack h).own
  constant : ∀ e ∈ (h.scope base).entries, (h.slot e.2).kind = .constant
  styles : ∀ i, h.StyleMap (h.context (hosts i).context).styles
  apart : ∀ i j, i ≠ j → ∀ o, h.Reaches (hosts i).roots o → h.Reaches (hosts j).roots o →
    ((hosts i).evaluation h base).Common o

/-- A play in company is the same to a host as one that it played alone: along a link, by which the
objects that it could reach from the start stand for themselves, the heaps mirror each other, its
answers are alike, and so are its styles and its output. -/
structure SameTo {ι : Type} (x : Host) (i : ι) (h : Heap) (L : Link) (alone joint : Play ι) :
    Prop where
  mirrors : L.Mirrors alone.state.heap joint.state.heap
  start : ∀ o, h.Reaches x.roots o → L o o
  answers : List.Forall₂ (L.Outcomes (List.Forall₂ L.Alike)) (alone.answers i) (joint.answers i)
  context : L.Contexts (alone.state.heap.context x.context) (joint.state.heap.context x.context)
  written : ∀ v w, L.Alike v w → alone.state.heap.written v = joint.state.heap.written w

open Evaluation Link

variable {ι : Type} {h : Heap} {base : ScopeId} {hosts : ι → Host}

/-! ## One move -/

/-- An evaluation does not notice changes to what it is not linked to or shares with others. -/
theorem Evaluation.Joins.kept {E F : Evaluation} {L L' M : Link} {g g' : Heap}
    (j : F.Joins L' h g) (future : E.Future L M g g')
    (apart : ∀ o q p, L o p → L' q p → E.Common o) : F.Joins L' h g' := by
  have kept : ∀ {q p}, L' q p → g'.cell p = g.cell p := fun linked =>
    future.kept _ (j.mirrors.exist linked).2 fun o linked' => apart o _ _ linked' linked
  refine ⟨⟨fun linked => ?_, j.mirrors.functional, j.mirrors.injective, fun linked => ?_⟩,
    j.settled, j.linked, ?_⟩
  · exact ⟨(j.mirrors.exist linked).1, future.has _ (j.mirrors.exist linked).2⟩
  · rw [kept linked]
    exact j.mirrors.cells linked
  · exact (Cell.context.inj (kept j.linked)).trans j.context

/-- Each host's play alone goes along with the play of all, each along a link of its own. -/
structure Together (h : Heap) (base : ScopeId) (hosts : ι → Host) (L : ι → Link)
    (alone : ι → Play ι) (joint : Play ι) : Prop where
  joins : ∀ i, ((hosts i).evaluation h base).Joins (L i) (alone i).state.heap joint.state.heap
  known : ∀ i, Lists (L i) (hosts i).known (hosts i).known
  answers : ∀ i, List.Forall₂ ((L i).Outcomes (Lists (L i))) ((alone i).answers i) (joint.answers i)
  apart : ∀ i j, i ≠ j → ∀ o q p, L i o p → L j q p → ((hosts i).evaluation h base).Common o
  start : ∀ i o, h.Reaches (hosts i).roots o → L i o o

theorem lists_carried {L : Link} {r r' : Except Error (List Value)}
    (outcomes : L.Outcomes (Lists L) r r') : Lists L (carried r) (carried r') := by
  cases outcomes with
  | ok lists => exact lists
  | error errors =>
    cases errors with
    | plain none =>
      rw [carried, none]
      exact .nil
    | constantWrite alike => exact .cons alike .nil
    | given alike => exact .cons alike .nil

namespace Together

variable {L : ι → Link} {alone : ι → Play ι} {joint : Play ι}

theorem lists (t : Together h base hosts L alone joint) (i : ι) :
    Lists (L i) ((alone i).known hosts i) (joint.known hosts i) :=
  List.rel_append (t.known i) (List.rel_flatMap (t.answers i) fun _ _ => lists_carried)

variable {i : ι} {M : Link} {g' : Heap}

/-- What the link of one evaluation gains is new, so no other evaluation is linked to it. -/
theorem common_of_future (t : Together h base hosts L alone joint)
    (future : ((hosts i).evaluation h base).Future (L i) M joint.state.heap g') {k : ι}
    (other : k ≠ i) {o q p : Object} (linked : M o p) (linked' : L k q p) :
    ((hosts i).evaluation h base).Common o ∧ ((hosts i).evaluation h base).Common q := by
  rcases future.fresh o p linked with old | new
  · exact ⟨t.apart i k other.symm o q p old linked', t.apart k i other q o p linked' old⟩
  · exact absurd ((t.joins k).mirrors.exist linked').2 new

variable [DecidableEq ι]

theorem apart_update (t : Together h base hosts L alone joint)
    (future : ((hosts i).evaluation h base).Future (L i) M joint.state.heap g') (j k : ι)
    (ne : j ≠ k) (o q p : Object) (linked : Function.update L i M j o p)
    (linked' : Function.update L i M k q p) : ((hosts j).evaluation h base).Common o := by
  rcases eq_or_ne j i with rfl | other
  · rw [Function.update_self] at linked
    rw [Function.update_of_ne ne.symm] at linked'
    exact (t.common_of_future future ne.symm linked linked').1
  · rw [Function.update_of_ne other] at linked
    rcases eq_or_ne k i with rfl | other'
    · rw [Function.update_self] at linked'
      exact (t.common_of_future future other linked' linked).2
    · rw [Function.update_of_ne other'] at linked'
      exact t.apart j k ne o q p linked linked'

/-- A move keeps the plays together: the one host's link grows, and the other hosts' links do for
the new heap as they are. -/
theorem move (t : Together h base hosts L alone joint) (m : ι × Request) :
    ∃ L', Together h base hosts L'
      (Function.update alone m.1 ((alone m.1).move hosts m)) (joint.move hosts m) := by
  obtain ⟨i, r⟩ := m
  -- `M` is what becomes of the link of the host that moves.
  obtain ⟨M, future, joins, outcomes⟩ := inStep_request r (t.lists i) _ _ (t.joins i)
  refine ⟨Function.update L i M, fun k => ?_, ?_, fun k => ?_, t.apart_update future, ?_⟩
  · rcases eq_or_ne k i with rfl | other
    · rw [Function.update_self, Function.update_self]
      exact joins
    · rw [Function.update_of_ne other, Function.update_of_ne other]
      exact (t.joins k).kept future fun o q p => t.apart i k other.symm o q p
  · exact (Function.forall_update_iff L fun k N => Lists N (hosts k).known (hosts k).known).mpr
      ⟨(t.known i).mono future.le, fun k _ => t.known k⟩
  · rcases eq_or_ne k i with rfl | other
    · rw [Function.update_self, Function.update_self, Play.answers_move, Play.answers_move]
      refine List.rel_append ((t.answers k).imp fun _ _ old => ?_) (.cons outcomes .nil)
      exact old.mono future.le fun _ _ lists => lists.mono future.le
    · rw [Function.update_of_ne other, Function.update_of_ne other,
        Play.answers_move_of_ne _ _ _ _ other]
      exact t.answers k
  · exact (Function.forall_update_iff L fun k N => ∀ o, h.Reaches (hosts k).roots o → N o o).mpr
      ⟨fun o reached => future.le o o (t.start i o reached), fun k _ => t.start k⟩

/-! ## All moves -/

theorem run (t : Together h base hosts L alone joint) (moves : List (ι × Request)) :
    ∃ L', Together h base hosts L'
      (fun i => (alone i).run hosts (moves.filter (·.1 = i))) (joint.run hosts moves) := by
  induction moves generalizing L alone joint with
  | nil => exact ⟨L, t⟩
  | cons m moves ih =>
    obtain ⟨L₁, t₁⟩ := t.move m
    obtain ⟨L₂, t₂⟩ := ih t₁
    simp only [Play.run_filter_cons]
    exact ⟨L₂, t₂⟩

end Together

/-! ## From the start -/

namespace Apart

variable (a : Apart h base hosts) (i : ι)

include a

theorem reaches_base : h.Reaches (hosts i).roots (.scope base) := by
  have stack : h.Reaches (hosts i).roots (.stack (h.context (hosts i).context).stack) :=
    .part (.root List.mem_cons_self) List.mem_cons_self
  refine .part stack (List.mem_map_of_mem (List.mem_append_right _ ?_))
  exact Option.mem_toList.mpr (a.based i)

theorem settled : ((hosts i).evaluation h base).Settled h where
  context := rfl
  base := a.exist i _ (a.reaches_base i)
  slots s mem := by
    obtain ⟨e, bound, rfl⟩ := List.mem_map.mp mem
    refine ⟨a.exist i _ (.part (a.reaches_base i) ?_), ?_⟩
    · exact List.mem_flatMap.mpr ⟨e, bound, List.mem_cons_self⟩
    · rw [a.constant e bound]
      decide
  own c mem same := by
    subst same
    exact a.own i mem
  styles := a.styles i

theorem joins :
    ((hosts i).evaluation h base).Joins (on (h.Reaches (hosts i).roots)) h h where
  mirrors := mirrors_on (a.exist i) (fun _ reached _ mem => .part reached mem) (a.textual i)
  settled := a.settled i
  linked := on_self (.root List.mem_cons_self)
  context := rfl

end Apart

theorem Apart.together [DecidableEq ι] {st : State} (a : Apart st.heap base hosts) :
    Together st.heap base hosts (fun i => on (st.heap.Reaches (hosts i).roots))
      (fun _ => .start st) (.start st) where
  joins := a.joins
  known i := List.forall₂_same.mpr fun v mem => alike_on fun o ho =>
    .root (List.mem_cons_of_mem _ (List.mem_flatMap.mpr ⟨v, mem, ho⟩))
  answers _ := .nil
  apart := by
    rintro i j ne o q p ⟨rfl, reached⟩ ⟨rfl, reached'⟩
    exact a.apart i j ne _ reached reached'
  start _ _ := on_self

/-! ## The same as alone -/

/-- A new library, and two new contexts whose stacks have it as their base. -/
def overLibrary : State :=
  let build : Action Unit := do
    let base ← ScopeId.newLibrary
    let _ ← ContextId.create (← StackId.create (some base) 1000 none) .none .none
    let _ ← ContextId.create (← StackId.create (some base) 1000 none) .none .none
  (build.run .initial).2

/-- Two hosts, each with one of the contexts, a number and a text. -/
def overLibraryHosts (i : Bool) : Host := ⟨⟨i.toNat⟩, [.int 7, .text "size"]⟩

/-- What the hosts reach. -/
def overLibraryReach (i : Bool) : List Object :=
  [.context ⟨i.toNat⟩, .stack ⟨i.toNat⟩, .dict ⟨i.toNat⟩, .sequence ⟨i.toNat⟩,
    .scope ⟨i.toNat + 1⟩, .scope ⟨0⟩]
    ++ (List.range 12).map (.slot ⟨·⟩) ++ (List.range' 1 9).map .serial

theorem mem_overLibraryReach (i : Bool) (o : Object)
    (reached : overLibrary.heap.Reaches (overLibraryHosts i).roots o) : o ∈ overLibraryReach i := by
  have start : ∀ i, ∀ o ∈ (overLibraryHosts i).roots, o ∈ overLibraryReach i := by decide +kernel
  have closed : ∀ i, ∀ o ∈ overLibraryReach i, ∀ p ∈ (overLibrary.heap.cell o).parts,
      p ∈ overLibraryReach i := by decide +kernel
  exact reached.inside (start i) (closed i)

theorem overLibrary_apart : Apart overLibrary.heap ⟨0⟩ overLibraryHosts where
  exist i o reached :=
    have exist : ∀ i, ∀ o ∈ overLibraryReach i, overLibrary.heap.Has o := by decide +kernel
    exist i o (mem_overLibraryReach i o reached)
  textual i c reached := by
    have scopes : ∀ i : Bool, (overLibrary.heap.scope ⟨i.toNat + 1⟩).Textual ∧
      (overLibrary.heap.scope ⟨0⟩).Textual := by decide +kernel
    have mem : c = ⟨i.toNat + 1⟩ ∨ c = ⟨0⟩ := by
      simpa [overLibraryReach] using mem_overLibraryReach i _ reached
    rcases mem with rfl | rfl
    · exact (scopes i).1
    · exact (scopes i).2
  based := by decide +kernel
  own := by decide +kernel
  constant := by decide +kernel
  styles i d is w found := by
    have empty : ∀ i, (overLibrary.heap.context (overLibraryHosts i).context).styles = .dict ⟨i.toNat⟩ ∧
      (overLibrary.heap.dict ⟨i.toNat⟩).get? "record" = none := by decide +kernel
    cases (empty i).1.symm.trans is
    rw [(empty i).2] at found
    cases found
  apart i j ne o reached reached' :=
    have common : ∀ i j, i ≠ j → ∀ o ∈ overLibraryReach i, o ∈ overLibraryReach j →
      ((overLibraryHosts i).evaluation overLibrary.heap ⟨0⟩).Common o := by decide +kernel
    common i j ne o (mem_overLibraryReach i o reached) (mem_overLibraryReach j o reached')

/-- While the one host sets a default for records and hides a name of the library, the other one
prints, makes a record and looks the name up. -/
def overLibraryMoves : List (Bool × Request) :=
  [(true, .get "record"), (false, .get "print"), (true, .call .set 2 [] [("size", 0)]),
    (false, .call .call 2 [0, 1] []), (true, .defineMut "record" 0), (false, .get "record"),
    (false, .call .construct 4 [] []), (true, .assign "record" 1), (false, .assign "len" 0)]

-- The record is another dictionary than the first host would have got alone.
example : ((Play.start overLibrary).run overLibraryHosts overLibraryMoves).answers false
    = [.ok [.func ⟨"print", .builtin .print, 7⟩], .ok [.none], .ok [.cls ⟨"record", .record, 9⟩],
      .ok [.dict ⟨3⟩], .error (.constantWrite (.int 7))] := by decide +kernel

end LexEnv
