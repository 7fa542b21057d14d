import LexEnv.Proofs.Built

/-!
# Footprints

What an operation may change of the objects that are there. An action is confined to a set of
objects if it leaves every other object as it is and takes none away, however it ends; what it adds
does not count. An action that has the power to change these objects only is confined to them
(`Action.Built.confined`), and so is a command to its footprint (`Command.confined`).

An action that has changed less than that whenever it fails `FailsWithin` the smaller set.
-/

namespace LexEnv

/-! ## Heaps that differ in some objects only -/

/-- A heap in which every object of another one is still there, and holds what it held unless it is
one of a set. -/
structure Heap.Confined (T : Object → Prop) (h h' : Heap) : Prop where
  has : ∀ o, h.Has o → h'.Has o
  cell : ∀ o, h.Has o → ¬T o → h'.cell o = h.cell o

namespace Heap.Confined

variable {T U : Object → Prop} {h h' h'' : Heap} {o : Object}

theorem refl (T : Object → Prop) (h : Heap) : h.Confined T h := ⟨fun _ => id, fun _ _ _ => rfl⟩

theorem trans (first : h.Confined T h') (second : h'.Confined T h'') : h.Confined T h'' where
  has o there := second.has o (first.has o there)
  cell o there other := by
    rw [second.cell o (first.has o there) other, first.cell o there other]

theorem mono (confined : h.Confined T h') (sub : ∀ o, T o → U o) : h.Confined U h' where
  has := confined.has
  cell o there other := confined.cell o there fun inside => other (sub o inside)

theorem of_changes (change : h.Changes o h') (inside : T o) : h.Confined T h' where
  has x := (change.has x).mpr
  cell x _ other := change.cell x fun same => other (same ▸ inside)

theorem of_adds (add : h.Adds o h') : h.Confined T h' where
  has x there := (add.has x).mpr (.inl there)
  cell x there _ := add.cell x fun same => add.new (same ▸ there)

end Heap.Confined

/-- Powers to change the objects of a set, and to do anything else but change others. -/
def Powers.inside (T : Object → Prop) : Powers := { all with changes := T }

theorem Powers.within_inside (P : Powers) : P.Within (inside P.changes) :=
  ⟨fun _ _ => trivial, fun _ => id, fun _ _ => trivial, fun _ => trivial, fun _ => trivial⟩

section

variable (T : Object → Prop)

instance : (Powers.inside T).Failing := ⟨fun _ => trivial⟩

instance : (Powers.inside T).Faulting := ⟨fun _ => trivial⟩

instance : (Powers.inside T).Refusing := ⟨fun _ => trivial, trivial⟩

instance : (Powers.inside T).Making := ⟨fun _ => trivial⟩

end

namespace Action

variable {α β : Type} {T : Object → Prop}

/-! ## Confined actions -/

/-- An action that, however it ends, changes no object that is there but those of a set. -/
def Confined (T : Object → Prop) (x : Action α) : Prop :=
  ∀ st : State, st.heap.Confined T (x.run st).2.heap

/-- An action that, if it fails, has changed no object that was there but those of a set. -/
def FailsWithin (T : Object → Prop) (x : Action α) : Prop :=
  ∀ (st : State) (e : Error), (x.run st).1 = .error e → st.heap.Confined T (x.run st).2.heap

theorem Built.confined {x : Action α} (built : x.Built (.inside T)) : x.Confined T := by
  refine Built.keeps (R := fun st st' => st.heap.Confined T st'.heap) (fun st => .refl T st.heap)
    .trans (fun step => ?_) built
  cases step with
  | change inside change => exact .of_changes change inside
  | add _ adds => exact .of_adds adds
  | record | sample => exact .refl T _

theorem Confined.failsWithin {x : Action α} (confined : x.Confined T) : x.FailsWithin T :=
  fun st _ _ => confined st

/-- Where a confined action leads. -/
theorem Confined.of_run {x : Action α} (confined : x.Confined T) {st st' : State}
    {outcome : Except Error α} (ran : x.run st = (outcome, st')) : st.heap.Confined T st'.heap := by
  have there := confined st
  rwa [ran] at there

/-- What fails within a set after something that is confined to it does so as a whole. -/
theorem failsWithin_bind {x : Action α} {f : α → Action β} (hx : x.Confined T)
    (hf : ∀ a, (f a).FailsWithin T) : (x >>= f).FailsWithin T := by
  intro st e failed
  have first := hx st
  rw [run_bind] at failed ⊢
  rcases hr : x.run st with ⟨r, st'⟩
  rw [hr] at failed first
  cases r with
  | error e' => exact first
  | ok a => exact first.trans (hf a st' e failed)

/-- What cannot fail after something that fails within a set changes nothing about that. -/
theorem failsWithin_bind_ok {x : Action α} {f : α → Action β} (hx : x.FailsWithin T)
    (hf : ∀ a st, ∃ b, ((f a).run st).1 = .ok b) : (x >>= f).FailsWithin T := by
  intro st e failed
  have first := hx st
  rw [run_bind] at failed ⊢
  rcases hr : x.run st with ⟨r, st'⟩
  rw [hr] at failed first
  cases r with
  | error e' => exact first e' rfl
  | ok a =>
    obtain ⟨b, ok⟩ := hf a st'
    rw [ok] at failed
    cases failed

end Action

/-- Performing a command changes nothing that is there but its footprint. -/
theorem Command.confined {α : Type} (c : Command α) : c.run.Confined c.footprint :=
  (c.built.mono c.powers.within_inside).confined

end LexEnv
