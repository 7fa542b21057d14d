import LexEnv.Proofs.Closure

/-!
# Shallow binding

A stack of scopes finds a name by walking from the active scope outwards. The same answers come from
an environment that has no scopes at all: it keeps, for each name by itself, the pairs of a depth and
a slot under which the name is defined at present, the deepest first (`Shallow`). A definition
replaces the pair of the present depth or puts one in front, and leaving a scope drops the pairs that
are too deep.

What relates the two is that the pairs of a name are what its look-up meets on the way outwards, each
scope counted by how many scopes lie beneath it (`Heap.pairs`). Every step keeps that
(`Shallow.Represents.step`). Main statement: `StackId.lookup_shallow`.
-/

namespace LexEnv

open LexEnv.Action

/-! ## The environment -/

/-- An environment that keeps for each name the depths at which it is defined, with the slot that it
has there; the deepest comes first. -/
structure Shallow where
  depth : Nat
  pairs : String → List (Nat × SlotId)

namespace Shallow

/-- Nothing is defined. -/
def empty : Shallow := ⟨0, fun _ => []⟩

/-- Pairs with one more for some depth: it takes the place of the pair of this depth, and if there is
none it comes first. -/
def place (depth : Nat) (t : SlotId) : List (Nat × SlotId) → List (Nat × SlotId)
  | [] => [(depth, t)]
  | (d, u) :: ps => if d = depth then (depth, t) :: ps else (depth, t) :: (d, u) :: ps

/-- The environment after a definition at the present depth. -/
def define (env : Shallow) (name : String) (t : SlotId) : Shallow :=
  { env with pairs := fun n => if n = name then place env.depth t (env.pairs n) else env.pairs n }

/-- The environment one scope less deep: the pairs that are deeper are dropped. -/
def leave (env : Shallow) : Shallow :=
  ⟨env.depth - 1, fun name => (env.pairs name).filter (·.1 ≤ env.depth - 1)⟩

/-- The slot of the deepest pair of a name, or what the name falls back to. -/
def lookup (env : Shallow) (fallback : String → Option SlotId) (name : String) : Option SlotId :=
  match env.pairs name with
  | [] => fallback name
  | (_, t) :: _ => some t

end Shallow

/-! ## Steps -/

/-- What is done to a stack. A scope is entered with some memory in use. -/
inductive StackStep where
  | enter (resident : Int)
  | exit
  | defineConst (name : String) (v : Value)
  | defineMut (name : String) (v : Value)
  | bind (name : String) (t : SlotId)

/-- Does a step to a stack. -/
def StackStep.perform (s : StackId) : StackStep → Action Unit
  | .enter resident => do
    Command.setResident resident
    s.enter
  | .exit => s.exit
  | .defineConst name v => s.defineConst (.text name) v
  | .defineMut name v => s.defineMut (.text name) v
  | .bind name t => s.bind (.text name) t

namespace Shallow

/-- The environment after a step that ended in some way, in which a definition made the given
slot. -/
def step (env : Shallow) (outcome : Except Error Unit) (made : SlotId) : StackStep → Shallow
  | .enter _ =>
    match outcome with
    | .ok _ => { env with depth := env.depth + 1 }
    | .error _ => env
  | .exit =>
    match outcome with
    | .ok _ => env.leave
    | .error _ => env
  | .defineConst name _ | .defineMut name _ => env.define name made
  | .bind name t => env.define name t

end Shallow

/-- Does steps to a stack one after the other, whether they succeed or fail, and has an environment
follow them. -/
def StackId.follow (s : StackId) : List StackStep → State → Shallow → State × Shallow
  | [], st, env => (st, env)
  | x :: xs, st, env =>
    let ended := (x.perform s).run st
    s.follow xs ended.2 (env.step ended.1 ⟨st.heap.slots.size⟩ x)

/-! ## Pairs of a chain of scopes -/

namespace Heap

/-- The pairs of a name in some scopes, from the innermost outwards: those scopes that bind the name,
each with the number of scopes beneath it. -/
def pairs (h : Heap) (name : String) : List ScopeId → List (Nat × SlotId)
  | [] => []
  | c :: cs =>
    match (h.scope c).get? name with
    | some t => (cs.length, t) :: h.pairs name cs
    | none => h.pairs name cs

variable {h h' : Heap} {name : String}

theorem pairs_congr {cs : List ScopeId} (same : ∀ c ∈ cs, h'.scope c = h.scope c) :
    h'.pairs name cs = h.pairs name cs := by
  induction cs with
  | nil => rfl
  | cons c cs ih =>
    rw [pairs, pairs, same c List.mem_cons_self, ih fun d hd => same d (List.mem_cons_of_mem _ hd)]

/-- All pairs are shallower than the number of scopes. -/
theorem lt_length_of_mem_pairs {cs : List ScopeId} {p : Nat × SlotId}
    (hp : p ∈ h.pairs name cs) : p.1 < cs.length := by
  induction cs with
  | nil => exact absurd hp List.not_mem_nil
  | cons c cs ih =>
    rw [List.length_cons]
    unfold pairs at hp
    split at hp
    · rcases List.mem_cons.mp hp with rfl | outer
      · exact Nat.lt_succ_self _
      · exact Nat.lt_succ_of_lt (ih outer)
    · exact Nat.lt_succ_of_lt (ih hp)

/-- The deepest pair comes first. -/
theorem pairs_descending (cs : List ScopeId) :
    (h.pairs name cs).Pairwise fun p q => q.1 < p.1 := by
  induction cs with
  | nil => exact List.Pairwise.nil
  | cons c cs ih =>
    unfold pairs
    split
    · exact List.pairwise_cons.mpr ⟨fun p hp => lt_length_of_mem_pairs hp, ih⟩
    · exact ih

/-- The pairs that are not too deep for the outer scopes are the pairs of the outer scopes. -/
theorem filter_pairs (c : ScopeId) {cs : List ScopeId} (ne : cs ≠ []) :
    (h.pairs name (c :: cs)).filter (·.1 ≤ cs.length - 1) = h.pairs name cs := by
  have pos : 0 < cs.length := List.length_pos_iff.mpr ne
  have kept : (h.pairs name cs).filter (·.1 ≤ cs.length - 1) = h.pairs name cs := by
    rw [List.filter_eq_self]
    intro p hp
    have := lt_length_of_mem_pairs hp
    exact decide_eq_true (by omega)
  rw [pairs]
  split
  · have deep : ¬ cs.length ≤ cs.length - 1 := by omega
    rw [List.filter_cons_of_neg (by simpa using deep), kept]
  · exact kept

/-- Binding a name in the innermost scope defines it there. -/
theorem pairs_insert {c : ScopeId} {cs : List ScopeId} {t : SlotId}
    (bound : h'.scope c = (h.scope c).insert name t) (same : ∀ d ∈ cs, h'.scope d = h.scope d) :
    h'.pairs name (c :: cs) = Shallow.place cs.length t (h.pairs name (c :: cs)) := by
  have outer : ∀ p ∈ h.pairs name cs, p.1 ≠ cs.length := fun p hp =>
    Nat.ne_of_lt (lt_length_of_mem_pairs hp)
  rw [pairs, pairs, bound, Table.get?_insert, if_pos rfl, pairs_congr same]
  cases (h.scope c).get? name with
  | some u => rw [Shallow.place, if_pos rfl]
  | none =>
    cases hp : h.pairs name cs with
    | nil => rfl
    | cons p ps =>
      have ne : p.1 ≠ cs.length := outer p (hp ▸ List.mem_cons_self)
      show _ = Shallow.place cs.length t (p :: ps)
      rw [Shallow.place, if_neg ne]

/-- Binding another name in the innermost scope leaves the pairs as they are. -/
theorem pairs_insert_of_ne {c : ScopeId} {cs : List ScopeId} {n : String} {t : SlotId}
    (ne : name ≠ n) (bound : h'.scope c = (h.scope c).insert n t)
    (same : ∀ d ∈ cs, h'.scope d = h.scope d) :
    h'.pairs name (c :: cs) = h.pairs name (c :: cs) := by
  rw [pairs, pairs, bound, Table.get?_insert, if_neg ne, pairs_congr same]

/-- The first scope that binds a name gives its deepest pair. -/
theorem findSome?_eq_pairs (cs : List ScopeId) :
    (cs.findSome? fun c => (h.scope c).get? name) = (h.pairs name cs).head?.map (·.2) := by
  induction cs with
  | nil => rfl
  | cons c cs ih =>
    rw [List.findSome?_cons, pairs]
    cases (h.scope c).get? name with
    | some t => rfl
    | none => exact ih

end Heap

/-! ## Representation -/

/-- An environment represents a stack: it is as deep, and the pairs of every name are those of the
scopes of the stack. The base of the stack binds what names fall back to. -/
structure Shallow.Represents (s : StackId) (fallback : String → Option SlotId) (h : Heap)
    (env : Shallow) : Prop where
  exist : s.index < h.scopeStacks.size
  sound : (h.stack s).Sound h.scopes.size
  depth : env.depth = (h.stack s).depth
  pairs : ∀ name, env.pairs name = h.pairs name (h.stack s).own
  base : ∀ name, ((h.stack s).base.bind fun b => (h.scope b).get? name) = fallback name

namespace Shallow.Represents

variable {s : StackId} {fallback : String → Option SlotId} {h h' : Heap} {env : Shallow}

/-- A represented stack finds under a name what the environment has. -/
theorem resolved (rep : env.Represents s fallback h) (name : String) :
    h.resolved s name = env.lookup fallback name := by
  have outermost : ((h.stack s).base.toList.findSome? fun c => (h.scope c).get? name) =
      fallback name := by
    rw [← rep.base name]
    cases (h.stack s).base with
    | none => rfl
    | some b =>
      show [b].findSome? _ = (h.scope b).get? name
      rw [List.findSome?_cons]
      cases (h.scope b).get? name <;> rfl
  show ((h.stack s).own ++ (h.stack s).base.toList).findSome? _ = _
  rw [List.findSome?_append, Heap.findSome?_eq_pairs, outermost, lookup, rep.pairs]
  cases h.pairs name (h.stack s).own <;> rfl

/-- Which scopes a represented stack has, and what they bind, is all that matters. -/
theorem congr (rep : env.Represents s fallback h) (untouched : h'.scopeStacks = h.scopeStacks)
    (scopes : h'.scopes = h.scopes) : env.Represents s fallback h' := by
  have stack : h'.stack s = h.stack s := by rw [Heap.stack, Heap.stack, untouched]
  have scope : ∀ c, h'.scope c = h.scope c := fun c => by rw [Heap.scope, Heap.scope, scopes]
  refine ⟨untouched ▸ rep.exist, ?_, ?_, fun name => ?_, fun name => ?_⟩
  · rw [stack, scopes]
    exact rep.sound
  · rw [stack]
    exact rep.depth
  · rw [stack, Heap.pairs_congr fun c _ => scope c]
    exact rep.pairs name
  · rw [stack]
    simp only [scope]
    exact rep.base name

/-- Binding a name in the active scope is a definition. -/
theorem define (rep : env.Represents s fallback h) (name : String) (t : SlotId) :
    (env.define name t).Represents s fallback (h.setScope (h.stack s).active
      ((h.scope (h.stack s).active).insert name t)) := by
  have exist := rep.sound.exist _ (Stack.active_mem_own _)
  have bound : ∀ x, (h.setScope (h.stack s).active x).scope (h.stack s).active = x := fun x =>
    (Heap.scope_setScope h _ _ x exist).trans (if_pos rfl)
  have outer : ∀ x, ∀ c ∈ (h.stack s).suspended,
      (h.setScope (h.stack s).active x).scope c = h.scope c := by
    intro x c hc
    refine Heap.scope_setScope_of_ne h x ?_
    rintro rfl
    exact rep.sound.active_not_mem hc
  refine ⟨rep.exist, ?_, rep.depth, fun n => ?_, fun n => ?_⟩
  · rw [Heap.size_scopes_setScope]
    exact rep.sound
  · simp only [Shallow.define, Heap.stack_setScope]
    rw [rep.pairs n, rep.depth]
    by_cases same : n = name
    · subst same
      rw [if_pos rfl]
      exact (Heap.pairs_insert (bound _) (outer _)).symm
    · rw [if_neg same]
      exact (Heap.pairs_insert_of_ne same (bound _) (outer _)).symm
  · rw [← rep.base n, Heap.stack_setScope]
    cases hb : (h.stack s).base with
    | none => rfl
    | some b =>
      have ne : b ≠ (h.stack s).active := by
        rintro rfl
        exact rep.sound.base_ne (Stack.active_mem_own _) hb
      show ((h.setScope _ _).scope b).get? n = (h.scope b).get? n
      rw [Heap.scope_setScope_of_ne h _ ne]

/-- Entering a scope makes the environment deeper. -/
theorem enter (rep : env.Represents s fallback h) (passage : Passage) :
    { env with depth := env.depth + 1 : Shallow }.Represents s fallback
      ((Event.entered passage s).act h) := by
  have pushed : ((Event.entered passage s).act h).stack s = (h.stack s).push ⟨h.scopes.size⟩ :=
    ((Event.entered passage s).stack_act rep.exist).trans (by simp [Event.enters])
  have fresh : ((Event.entered passage s).act h).scope ⟨h.scopes.size⟩ = .empty :=
    Heap.scope_addScope_new h .empty rfl
  have kept : ∀ c ∈ (h.stack s).chain, ((Event.entered passage s).act h).scope c = h.scope c :=
    fun c hc => Event.scope_act _ (rep.sound.chain_exist hc)
  have size : ((Event.entered passage s).act h).scopes.size = h.scopes.size + 1 := by
    simp [Event.act, Heap.addScope, Heap.setStack]
  refine ⟨Nat.lt_of_lt_of_le rep.exist (Event.scopeStacks_size_le _ h), ?_, ?_, fun name => ?_,
    fun name => ?_⟩
  · rw [pushed, size]
    exact rep.sound.push
  · rw [pushed, Stack.depth_push, rep.depth]
  · rw [pushed]
    show env.pairs name = Heap.pairs _ name (⟨h.scopes.size⟩ :: (h.stack s).own)
    rw [Heap.pairs, fresh, rep.pairs name]
    exact (Heap.pairs_congr fun c hc => kept c (Stack.mem_chain.mpr (.inl hc))).symm
  · rw [pushed, ← rep.base name]
    show ((h.stack s).base.bind _) = _
    cases hb : (h.stack s).base with
    | none => rfl
    | some b =>
      show (Heap.scope _ b).get? name = (h.scope b).get? name
      rw [kept b (Stack.mem_chain.mpr (.inr hb))]

/-- Leaving a scope drops the pairs that are too deep. -/
theorem exit (rep : env.Represents s fallback h) (passage : Passage)
    (ne : (h.stack s).suspended ≠ []) :
    env.leave.Represents s fallback ((Event.exited passage s).act h) := by
  have popped : ((Event.exited passage s).act h).stack s = (h.stack s).pop :=
    ((Event.exited passage s).stack_act rep.exist).trans (by simp [Event.enters, Event.exits])
  refine ⟨Nat.lt_of_lt_of_le rep.exist (Event.scopeStacks_size_le _ h), ?_, ?_, fun name => ?_,
    fun name => ?_⟩
  · rw [popped]
    exact rep.sound.pop ne
  · rw [popped, Stack.depth_pop, ← rep.depth]
    rfl
  · have kept : ∀ c, ((Event.exited passage s).act h).scope c = h.scope c := fun c => rfl
    rw [popped, Stack.own_pop ne, Heap.pairs_congr fun c _ => kept c]
    show (env.pairs name).filter (·.1 ≤ env.depth - 1) = h.pairs name (h.stack s).suspended
    rw [rep.pairs name, rep.depth]
    exact Heap.filter_pairs _ ne
  · rw [popped, Stack.base_pop]
    exact rep.base name

end Shallow.Represents

/-! ## Simulation -/

namespace StackId

/-- Defining a text in a stack never fails: it binds the text to a new slot in the active scope. -/
theorem run_define_text (s : StackId) (st : State) (r : String → TraceRecord) (kind : SlotKind)
    (name : String) (v : Value) :
    ∃ trace, (recordShown r (·.display (.text name)) >>= fun _ =>
      (st.heap.stack s).active.define kind (.text name) v).run st = (.ok (), { st with
        heap := (st.heap.addSlot ⟨kind, v⟩).2.setScope (st.heap.stack s).active
          ((st.heap.scope (st.heap.stack s).active).insert name ⟨st.heap.slots.size⟩)
        trace }) := by
  obtain ⟨trace, recorded⟩ := exists_run_recordShown r (·.display (.text name)) st
  refine ⟨trace, ?_⟩
  rw [run_recordShown_bind, recorded]
  exact ScopeId.run_define_text _ _ name kind v

end StackId

namespace Shallow.Represents

variable {s : StackId} {fallback : String → Option SlotId} {st : State} {env : Shallow}

/-- A new slot does not matter until it is bound. -/
theorem defineNew (rep : env.Represents s fallback st.heap) (x : Slot) (name : String) :
    (env.define name ⟨st.heap.slots.size⟩).Represents s fallback
      ((st.heap.addSlot x).2.setScope (st.heap.stack s).active
        ((st.heap.scope (st.heap.stack s).active).insert name ⟨st.heap.slots.size⟩)) := by
  have added : env.Represents s fallback (st.heap.addSlot x).2 := rep.congr rfl rfl
  exact added.define name _

/-- Every step to a stack, whether it succeeds or fails, keeps it represented. -/
theorem step (rep : env.Represents s fallback st.heap) (x : StackStep) :
    (env.step ((x.perform s).run st).1 ⟨st.heap.slots.size⟩ x).Represents s fallback
      ((x.perform s).run st).2.heap := by
  cases x with
  | enter resident =>
    have entering := s.run_enter { st with resident }
    show (env.step (s.enter.run { st with resident }).1 _ _).Represents s fallback
      (s.enter.run { st with resident }).2.heap
    rw [entering]
    cases (st.heap.stack s).mayEnter resident with
    | error e => exact rep
    | ok u => exact rep.enter .bare
  | exit =>
    show (env.step (s.exit.run st).1 _ _).Represents s fallback (s.exit.run st).2.heap
    rw [s.run_exit st]
    cases hs : (st.heap.stack s).suspended with
    | nil => exact rep
    | cons outer rest =>
      refine rep.exit .bare ?_
      rw [hs]
      exact List.cons_ne_nil outer rest
  | defineConst name v =>
    obtain ⟨trace, ran⟩ := s.run_define_text st
      (.definedConstant · (st.heap.stack s).depth) .constant name v
    show (env.define name _).Represents s fallback ((s.defineConst (.text name) v).run st).2.heap
    rw [StackId.defineConst, StackId.view, run_read_bind, ScopeId.defineConst, ran]
    exact rep.defineNew ⟨.constant, v⟩ name
  | defineMut name v =>
    obtain ⟨trace, ran⟩ := s.run_define_text st
      (.definedVariable · (st.heap.stack s).depth) .mutable name v
    show (env.define name _).Represents s fallback ((s.defineMut (.text name) v).run st).2.heap
    rw [StackId.defineMut, StackId.view, run_read_bind, ScopeId.defineMut, ran]
    exact rep.defineNew ⟨.mutable, v⟩ name
  | bind name t =>
    obtain ⟨trace, ran⟩ := s.run_bind_text st name t
    show (env.define name t).Represents s fallback ((s.bind (.text name) t).run st).2.heap
    rw [ran]
    exact rep.define name t

/-- Steps one after the other keep a stack represented. -/
theorem follow (rep : env.Represents s fallback st.heap) (xs : List StackStep) :
    (s.follow xs st env).2.Represents s fallback (s.follow xs st env).1.heap := by
  induction xs generalizing st env with
  | nil => exact rep
  | cons x xs ih => exact ih (rep.step x)

end Shallow.Represents

/-- A new stack is represented by the environment in which nothing is defined. -/
theorem Shallow.represents_created {st : State} {base : Option ScopeId}
    (hb : ∀ b ∈ base, b.index < st.heap.scopes.size) (maxDepth : Int) (memoryLimit : Option Int) :
    Shallow.empty.Represents ⟨st.heap.scopeStacks.size⟩
      (fun name => base.bind fun b => (st.heap.scope b).get? name)
      ((StackId.create base maxDepth memoryLimit).run st).2.heap := by
  have stack : ((StackId.create base maxDepth memoryLimit).run st).2.heap.stack
      ⟨st.heap.scopeStacks.size⟩ = ⟨⟨st.heap.scopes.size⟩, [], base, maxDepth, memoryLimit⟩ :=
    Heap.stack_addStack_new (st.heap.addScope .empty).2 _ rfl
  have fresh : ((StackId.create base maxDepth memoryLimit).run st).2.heap.scope
      ⟨st.heap.scopes.size⟩ = .empty := Heap.scope_addScope_new st.heap .empty rfl
  have size : ((StackId.create base maxDepth memoryLimit).run st).2.heap.scopes.size =
      st.heap.scopes.size + 1 := Array.size_push _
  refine ⟨Nat.lt_of_lt_of_eq (Nat.lt_succ_self _) (Array.size_push _).symm, ?_, ?_, fun name => ?_,
    fun name => ?_⟩
  · rw [stack, size]
    exact Stack.Sound.founded hb maxDepth memoryLimit
  · rw [stack]
    rfl
  · rw [stack]
    show [] = Heap.pairs _ name [⟨st.heap.scopes.size⟩]
    rw [Heap.pairs, fresh]
    rfl
  · rw [stack]
    cases base with
    | none => rfl
    | some b =>
      show (Heap.scope _ b).get? name = _
      exact congrArg (Table.get? · name) (Heap.scope_addScope_of_lt st.heap .empty (hb b rfl))

/-- A new stack over any base answers, after any steps of which some may fail, every look-up of a
name as an environment does that followed the steps: with the slot of the deepest pair of the name,
or with what the base binds the name to if the name has no pair. -/
theorem StackId.lookup_shallow {st : State} {base : Option ScopeId}
    (hb : ∀ b ∈ base, b.index < st.heap.scopes.size) (maxDepth : Int) (memoryLimit : Option Int)
    (xs : List StackStep) (name : String) :
    ∃ s st₁, (StackId.create base maxDepth memoryLimit).run st = (.ok s, st₁) ∧
      let ended := s.follow xs st₁ .empty
      (s.lookup (.text name)).run ended.1 =
        (.ok (ended.2.lookup (fun n => base.bind fun b => (st.heap.scope b).get? n) name),
          ended.1) ∧
      (ended.2.pairs name).Pairwise fun p q => q.1 < p.1 := by
  obtain ⟨st₁, created⟩ : ∃ st₁, (StackId.create base maxDepth memoryLimit).run st =
    (.ok ⟨st.heap.scopeStacks.size⟩, st₁) := ⟨_, rfl⟩
  have start := Shallow.represents_created hb maxDepth memoryLimit
  rw [created] at start
  have rep := start.follow xs
  refine ⟨⟨st.heap.scopeStacks.size⟩, st₁, created, ?_, ?_⟩
  · rw [StackId.run_lookup_text, rep.resolved]
  · rw [rep.pairs name]
    exact Heap.pairs_descending _

/-- Makes a base with two names. -/
def basing : Program ScopeId := do
  let base ← .exec (.createScope .empty)
  .exec (.scopeDefineConst base (.text "x") (.int 0))
  .exec (.scopeDefineConst base (.text "y") (.int 0))
  return base

/-- At the depths 0, 1 and 2 names are hidden and hidden again; one scope is left, and a scope beyond
the greatest depth is refused. -/
def covering : List StackStep :=
  [.defineMut "x" (.int 1), .enter 0, .bind "y" ⟨1⟩, .enter 0, .defineMut "x" (.int 2),
    .defineConst "x" (.int 3), .enter 0, .exit, .defineConst "z" (.int 4), .enter 0]

theorem StackId.lookup_shallow_covering :
    ∃ s st₁ env, (∀ b ∈ some (⟨0⟩ : ScopeId),
        b.index < (basing.toAction.run .initial).2.heap.scopes.size) ∧
      (StackId.create (some ⟨0⟩) 2 none).run (basing.toAction.run .initial).2 = (.ok s, st₁) ∧
      env = (s.follow covering st₁ .empty).2 ∧
      env.pairs "x" = [(0, ⟨2⟩)] ∧ env.pairs "y" = [(1, ⟨1⟩)] ∧
      ((s.lookup (.text "x")).run (s.follow covering st₁ .empty).1).1 = .ok (some ⟨2⟩) := by
  have hb : ∀ b ∈ some (⟨0⟩ : ScopeId),
      b.index < (basing.toAction.run .initial).2.heap.scopes.size := by decide +kernel
  obtain ⟨s, st₁, created, looked, -⟩ := StackId.lookup_shallow hb 2 none covering "x"
  have new : s = ⟨0⟩ := by
    have := congrArg Prod.fst created
    injection this.symm
  subst new
  have later : st₁ = ((StackId.create (some ⟨0⟩) 2 none).run (basing.toAction.run .initial).2).2 :=
    (congrArg Prod.snd created).symm
  refine ⟨_, st₁, _, hb, created, rfl, ?_, ?_, ?_⟩
  · rw [later]
    decide +kernel
  · rw [later]
    decide +kernel
  · rw [looked, later]
    decide +kernel

end LexEnv
