import LexEnv.Proofs.Listing
import LexEnv.Proofs.Totality
import LexEnv.Proofs.WrittenForm

/-!
# Scopes with the same contents

Comparing, hashing and writing a scope go by the sorted map of its names and values
(`Heap.ListedAs.equal`, `ListedAs.hash`, `ListedAs.written`), so scopes that came to the same values
under the same names cannot be told apart, whatever was bound and written on the way
(`State.Run.shows_sorted_map`).
-/

namespace LexEnv

/-- A list is the same as itself, item by item. -/
theorem sameItems_self (equal : Value → Value → Except Error Bool) (vs : List Value) :
    sameItems (sameBy equal) vs vs = .ok true := by
  induction vs with
  | nil => rfl
  | cons v vs ih =>
    rw [sameItems, sameBy_self]
    exact ih

namespace Heap

variable {h : Heap} {c d : ScopeId} {m n : NameMap SlotId} {v : Value}

/-- The value that a scope has under a name. -/
def contentOf (h : Heap) (c : ScopeId) (name : String) : Option Value :=
  ((h.scope c).get? name).map fun t => (h.slot t).value

/-- The values of the slots in a sorted map. -/
def contents (h : Heap) (m : NameMap SlotId) : NameMap Value := m.map fun t => (h.slot t).value

/-- A scope is listed as a sorted map, which answers every look-up as it does. -/
structure ListedAs (h : Heap) (c : ScopeId) (m : NameMap SlotId) : Prop where
  listed : ∀ less, (h.scope c).ascending less = .ok (m.entries.map fun (name, t) => (.text name, t))
  answers : ∀ name, m.get? name = (h.scope c).get? name

/-! ## Comparing, hashing and writing by contents -/

namespace ListedAs

theorem get?_contents (hc : h.ListedAs c m) (name : String) :
    (h.contents m).get? name = h.contentOf c name := by
  rw [contents, NameMap.get?_map, hc.answers, contentOf]

theorem equalWithin (hc : h.ListedAs c m) (hd : h.ListedAs d n) (steps : Nat) :
    h.equalWithin (steps + 1) (.scope c) (.scope d) =
      let parts := fun (bs : NameMap Value) => bs.entries.flatMap fun b => [.text b.1, b.2]
      sameItems (sameBy (h.equalWithin steps)) (parts (h.contents m)) (parts (h.contents n)) := by
  simp only [Heap.equalWithin, hc.listed (h.lessWithin steps), hd.listed (h.lessWithin steps),
    bind, Except.bind, contents, NameMap.map, List.flatMap_map]

theorem hashWithin (hc : h.ListedAs c m) (steps : Nat) :
    Heap.hashWithin (steps + 1) h (.scope c) = (do
      let bs := (h.contents m).entries
      let (vs, h') ← (bs.mapM fun b => freezeWithin (Heap.hashWithin steps) steps b.2).run h
      let names ← bs.mapM fun b => Heap.hashWithin steps h' (.text b.1)
      let hashes ← vs.mapM (Heap.hashWithin steps h')
      let pairs := List.zipWith (fun n v => HashCode.ofItems [n, v]) names hashes
      return .ofItems (.ofNat bs.length :: pairs)) := by
  have listed : h.enumerate (h.scope c) = .ok (m.entries.map fun (name, t) => (.text name, t)) :=
    hc.listed h.less
  rw [Heap.hashWithin, listed]
  simp only [bind, Except.bind, contents, NameMap.map, List.mapM_map, List.length_map,
    Function.comp_def]

theorem writeWithin (hc : h.ListedAs c m) (steps : Nat) :
    h.writeWithin (steps + 1) [] (.scope c) = (do
      let shown ← (h.contents m).entries.mapM fun b => do
        return b.1 ++ ": " ++ (← h.writeWithin steps [] b.2)
      return "Scope " ++ bracketEntries shown) := by
  rw [h.writeWithin_scope steps [] (hc.listed h.less)]
  simp only [contents, NameMap.map, List.mapM_map, Function.comp_def]

section

variable (hc : h.ListedAs c m) (hd : h.ListedAs d n)
  (same : ∀ name, h.contentOf c name = h.contentOf d name)

include hc hd same

theorem contents_eq : h.contents m = h.contents n :=
  NameMap.ext_get? fun name => by rw [hc.get?_contents, hd.get?_contents, same]

theorem equal : h.equal (.scope c) (.scope d) = .ok true := by
  obtain ⟨k, reach⟩ := h.exists_reach
  rw [Heap.equal, reach, hc.equalWithin hd, hc.contents_eq hd same]
  exact sameItems_self _ _

theorem hash : h.hash (.scope c) = h.hash (.scope d) := by
  obtain ⟨k, reach⟩ := h.exists_reach
  rw [Heap.hash, Heap.hash, reach, hc.hashWithin, hd.hashWithin, hc.contents_eq hd same]

theorem written : h.written (.scope c) = h.written (.scope d) := by
  obtain ⟨k, reach⟩ := h.exists_reach
  rw [Heap.written, Heap.written, reach, hc.writeWithin, hd.writeWithin, hc.contents_eq hd same]

end

/-! ## Answers -/

/-- A scope with contents that have no cycles can be hashed. -/
theorem hash_answers (hc : h.ListedAs c m) (there : c.index < h.scopes.size)
    (textual : (h.scope c).Textual) (acyclic : ∀ name, ∀ v ∈ h.contentOf c name, h.Acyclic v) :
    Answers (h.hash (.scope c)) := by
  have nests : h.NestsWithin (h.size + 2) (.scope c) := by
    refine ⟨there, textual, fun e mem => ?_⟩
    obtain ⟨b, bound, rfl⟩ := List.mem_map.mp ((textual.perm hc.answers).mem_iff.mp mem)
    have found : h.contentOf c b.1 = some (h.slot b.2).value := by
      rw [contentOf, ← hc.answers, NameMap.mem_entries.mp bound]
      rfl
    exact (acyclic b.1 _ found).nestsWithin
  refine nests.hash_answers ?_
  rw [reach]
  exact Nat.mul_le_mul_right _ (Nat.le_add_left 2 _)

end ListedAs

/-- A value without cycles is written with a step less than there are. -/
theorem Acyclic.writeWithin (acyclic : h.Acyclic v) {k : Nat} (reach : h.reach = k + 1) :
    h.writeWithin k [] v = h.written v := by
  have mirrors := Link.mirrors_on acyclic.exist (fun o reached p mem => .part reached mem)
    acyclic.textual
  exact written_eq mirrors (Link.alike_on fun o mem => .root mem) (Nat.le_of_eq reach)

/-- A scope has a written form if its contents have no cycles and have one. -/
theorem ListedAs.written_answers (hc : h.ListedAs c m)
    (contents : ∀ name, ∀ v ∈ h.contentOf c name, h.Acyclic v ∧ Answers (h.written v)) :
    Answers (h.written (.scope c)) := by
  obtain ⟨k, reach⟩ := h.exists_reach
  rw [Heap.written, reach, hc.writeWithin]
  refine (Answers.mapM fun b mem => ?_).bind fun _ _ => .ok _
  have found : h.contentOf c b.1 = some b.2 := by
    rw [← hc.get?_contents]
    exact NameMap.mem_entries.mp mem
  obtain ⟨acyclic, written⟩ := contents b.1 b.2 found
  rw [acyclic.writeWithin reach]
  exact written.bind fun _ _ => .ok _

end Heap

/-! ## Any history -/

/-- After any run a scope whose names are texts shows a sorted map: each name with the slot that it
was bound to last. It shows the same map as often as it is looked at, until something is bound in it.
Any other such scope that has the same values under the same names by then, if these have no cycles
and have written forms, is equal to it, and has the same hash and written form. -/
theorem State.Run.shows_sorted_map {st st' : State} {es : List Event} (run : st.Run es st')
    {c : ScopeId} (named : c.NamedByTexts st es) :
    (∃ m : NameMap SlotId,
      (∀ name, m.get? name = (lastBound c name es).or ((st.heap.scope c).get? name)) ∧
      ∀ later : State, later.heap.scope c = st'.heap.scope c → c.Shows m later) ∧
    ∀ {start : State} {fs : List Event} {d : ScopeId}, start.Run fs st' → d.NamedByTexts start fs →
      (∀ name, st'.heap.contentOf c name = st'.heap.contentOf d name) →
      (∀ name, ∀ v ∈ st'.heap.contentOf c name,
        st'.heap.Acyclic v ∧ Answers (st'.heap.written v)) →
      st'.heap.equal (.scope c) (.scope d) = .ok true ∧
      st'.heap.equal (.scope d) (.scope c) = .ok true ∧
      (∃ code, st'.heap.hash (.scope c) = .ok code ∧ st'.heap.hash (.scope d) = .ok code) ∧
      ∃ s, st'.heap.written (.scope c) = .ok s ∧ st'.heap.written (.scope d) = .ok s := by
  obtain ⟨textual, last⟩ := run.binds_last named
  constructor
  · obtain ⟨m, answers, shows⟩ := ScopeId.shows_of_textual (c := c) textual
    exact ⟨m, fun name => (answers name).trans (last name), shows⟩
  · intro start fs d run' named' same contents
    obtain ⟨m, listed, answers⟩ := textual.sorted
    obtain ⟨n, listed', answers'⟩ := (run'.binds_last named').1.sorted
    have hc : st'.heap.ListedAs c m := ⟨listed, answers⟩
    have hd : st'.heap.ListedAs d n := ⟨listed', answers'⟩
    obtain ⟨code, hashed⟩ := hc.hash_answers (run.evolves.exists_scope named.there) textual
      fun name v mem => (contents name v mem).1
    obtain ⟨s, written⟩ := hc.written_answers contents
    exact ⟨hc.equal hd same, hd.equal hc fun name => (same name).symm,
      ⟨code, hashed, (hc.hash hd same).symm.trans hashed⟩,
      ⟨s, written, (hc.written hd same).symm.trans written⟩⟩

/-! ### Two histories -/

/-- Makes two scopes and a list. -/
def scopesAndList : Program Unit := do
  let _ ← .exec (.createScope .empty)
  let _ ← .exec (.createScope .empty)
  let _ ← .exec (.newSequence .list [.int 1])

/-- Gives both scopes a number and the list. The second one gets them in another order, the list by a
slot of the first one that replaces another slot, and the number by a late write. -/
def twoHistories : Program Unit := do
  .exec (.scopeDefineMut ⟨0⟩ (.text "x") (.int 2))
  .exec (.scopeDefineConst ⟨0⟩ (.text "y") (.sequence .list ⟨0⟩))
  .exec (.scopeDefineConst ⟨1⟩ (.text "y") .none)
  .exec (.scopeBind ⟨1⟩ (.text "y") ⟨1⟩)
  .exec (.scopeDefineMut ⟨1⟩ (.text "x") (.int 5))
  .exec (.setSlot ⟨3⟩ (.int 2))

theorem State.Run.shows_sorted_map_twoHistories : ∃ st st',
    st = (scopesAndList.toAction.run .initial).2 ∧ st' = (twoHistories.toAction.run st).2 ∧
    (∃ m : NameMap SlotId, m.get? "x" = some ⟨3⟩ ∧ (⟨1⟩ : ScopeId).Shows m st') ∧
    st'.heap.equal (.scope ⟨1⟩) (.scope ⟨0⟩) = .ok true ∧
    ∃ s, st'.heap.written (.scope ⟨1⟩) = .ok s ∧ st'.heap.written (.scope ⟨0⟩) = .ok s := by
  obtain ⟨st, hst⟩ : ∃ st, st = (scopesAndList.toAction.run .initial).2 := ⟨_, rfl⟩
  obtain ⟨st', hst'⟩ : ∃ st', st' = (twoHistories.toAction.run st).2 := ⟨_, rfl⟩
  have run : st.Run (twoHistories.events st) st' := by
    rw [hst']
    exact .one st twoHistories
  have named : ∀ c ∈ [(⟨0⟩ : ScopeId), ⟨1⟩], c.NamedByTexts st (twoHistories.events st) := by
    have known : ∀ c ∈ [(⟨0⟩ : ScopeId), ⟨1⟩], c.index < st.heap.scopes.size ∧
        (st.heap.scope c).Textual ∧ ∀ e ∈ twoHistories.events st, e.BindsTexts c := by
      rw [hst]
      decide +kernel
    exact fun c mem => ⟨(known c mem).1, (known c mem).2.1, (known c mem).2.2⟩
  have last : lastBound ⟨1⟩ "x" (twoHistories.events st) = some ⟨3⟩ := by
    rw [hst]
    decide +kernel
  have scopes : (st'.heap.scope ⟨0⟩).entries = [(.text "x", ⟨0⟩), (.text "y", ⟨1⟩)] ∧
      (st'.heap.scope ⟨1⟩).entries = [(.text "y", ⟨1⟩), (.text "x", ⟨3⟩)] := by
    rw [hst', hst]
    decide +kernel
  have values : (st'.heap.slot ⟨0⟩).value = .int 2 ∧ (st'.heap.slot ⟨3⟩).value = .int 2 ∧
      (st'.heap.slot ⟨1⟩).value = .sequence .list ⟨0⟩ := by
    rw [hst', hst]
    decide +kernel
  have list : st'.heap.Has (.sequence ⟨0⟩) ∧
      (st'.heap.sequence ⟨0⟩).flatMap Value.objects = [] := by
    rw [hst', hst]
    decide +kernel
  have written : st'.heap.written (.int 2) = .ok "2" ∧
      st'.heap.written (.sequence .list ⟨0⟩) = .ok "[1]" := by
    rw [hst', hst]
    decide +kernel
  have contents : ∀ c ∈ [(⟨0⟩ : ScopeId), ⟨1⟩], ∀ name, st'.heap.contentOf c name =
      if "x" = name then some (.int 2) else if "y" = name then some (.sequence .list ⟨0⟩)
        else none := by
    intro c mem name
    simp only [List.mem_cons, List.not_mem_nil, or_false] at mem
    by_cases x : "x" = name
    · subst x
      rcases mem with rfl | rfl <;>
        simp [Heap.contentOf, Table.get?, scopes, Entries.find?, values]
    · rcases mem with rfl | rfl <;>
        simp [Heap.contentOf, Table.get?, scopes, Entries.find?, x] <;>
        split <;> simp [values]
  obtain ⟨⟨m, looked, shows⟩, others⟩ := run.shows_sorted_map (named ⟨1⟩ (by decide))
  obtain ⟨equal, -, -, s, written⟩ := others run (named ⟨0⟩ (by decide))
    (fun name => by rw [contents ⟨1⟩ (by decide), contents ⟨0⟩ (by decide)]) fun name v mem => by
      rw [contents ⟨1⟩ (by decide)] at mem
      split at mem
      · obtain rfl := Option.some.inj mem
        exact ⟨Heap.acyclic_of_objects_eq_nil rfl, _, written.1⟩
      · split at mem
        · obtain rfl := Option.some.inj mem
          exact ⟨Heap.acyclic_list list.1 list.2, _, written.2⟩
        · cases mem
  refine ⟨st, st', hst, hst', ⟨m, ?_, shows st' rfl⟩, equal, s, written⟩
  rw [looked, last]
  rfl

end LexEnv
