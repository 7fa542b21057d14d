import LexEnv.Proofs.Acyclic
import LexEnv.Proofs.Freezing

/-!
# Comparing and hashing come to an end

Values that are not nested deeper than there are steps can be compared
(`NestsWithin.equal_answers`), frozen and hashed (`hashes_and_freezes_end`). Hashing a frozen value
does not go into frozen sets, which keep the hashes of their elements, so it takes no more steps than
the value had levels before it was frozen (`Hashes`); comparing goes into them, and freezing a
dictionary makes two levels of one.
-/

namespace LexEnv

/-! ## Questions that have an answer -/

/-- A question has an answer. -/
def Answers {α : Type} (r : Except Error α) : Prop := ∃ a, r = .ok a

namespace Answers

variable {α β : Type}

theorem ok (a : α) : Answers (.ok a) := ⟨a, rfl⟩

theorem bind {r : Except Error α} {f : α → Except Error β} (first : Answers r)
    (next : ∀ a, r = .ok a → Answers (f a)) : Answers (r >>= f) := by
  obtain ⟨a, rfl⟩ := first
  exact next a rfl

theorem mapM {f : α → Except Error β} {as : List α} (each : ∀ a ∈ as, Answers (f a)) :
    Answers (as.mapM f) := by
  induction as with
  | nil => exact ok []
  | cons a as ih =>
    obtain ⟨first, rest⟩ := List.forall_mem_cons.mp each
    rw [List.mapM_cons]
    exact first.bind fun b _ => (ih rest).bind fun bs _ => ok (b :: bs)

/-- A test that is only made if another one is positive. -/
theorem and {t s : Except Error Bool} (first : Answers t) (next : Answers s) :
    Answers (do if ← t then s else return false) :=
  first.bind fun b _ => by
    cases b with
    | true => exact next
    | false => exact ok false

theorem allM {test : α → Except Error Bool} {as : List α} (each : ∀ a ∈ as, Answers (test a)) :
    Answers (as.allM test) := by
  induction as with
  | nil => exact ok true
  | cons a as ih =>
    obtain ⟨first, rest⟩ := List.forall_mem_cons.mp each
    rw [List.allM]
    refine first.bind fun b _ => ?_
    cases b with
    | true => exact ih rest
    | false => exact ok false

section

variable {equal : Value → Value → Except Error Bool}

theorem sameBy {v w : Value} (compared : Answers (equal v w)) : Answers (sameBy equal v w) := by
  unfold LexEnv.sameBy
  split
  · exact ok true
  · exact compared

theorem sameItems {same : Value → Value → Except Error Bool} {vs ws : List Value}
    (compared : ∀ v ∈ vs, ∀ w ∈ ws, Answers (same v w)) : Answers (sameItems same vs ws) := by
  induction vs generalizing ws with
  | nil => cases ws <;> exact ok _
  | cons v vs ih =>
    cases ws with
    | nil => exact ok false
    | cons w ws =>
      refine (compared v List.mem_cons_self w List.mem_cons_self).and (ih fun v' hv w' hw => ?_)
      exact compared v' (List.mem_cons_of_mem _ hv) w' (List.mem_cons_of_mem _ hw)

theorem matching {k l : Key} (compared : Answers (equal k.value l.value)) :
    Answers (k.matching equal l) := by
  cases k with
  | text s => cases l <;> exact ok _
  | other v hash =>
    cases l with
    | text s => exact ok false
    | other w hash' =>
      rw [Key.matching]
      split
      · exact compared.sameBy
      · exact ok false

variable {γ : Type} {k : Key} {es : List (Key × γ)}

theorem findMatching (compared : ∀ e ∈ es, Answers (equal e.1.value k.value)) :
    ∃ found, Entries.findMatching equal k es = .ok found ∧ ∀ a ∈ found, ∃ e ∈ es, e.2 = a := by
  induction es with
  | nil => exact ⟨none, rfl, nofun⟩
  | cons e es ih =>
    obtain ⟨first, rest⟩ := List.forall_mem_cons.mp compared
    obtain ⟨b, matched⟩ := first.matching
    rw [Entries.findMatching, matched]
    cases b with
    | true => exact ⟨some e.2, rfl, fun a is => ⟨e, List.mem_cons_self, Option.mem_some.mp is⟩⟩
    | false =>
      obtain ⟨found, eq, inside⟩ := ih rest
      refine ⟨found, eq, fun a mem => ?_⟩
      obtain ⟨e', mem', is⟩ := inside a mem
      exact ⟨e', List.mem_cons_of_mem _ mem', is⟩

theorem put {t : Table γ} (a : γ) (compared : ∀ e ∈ t.entries, Answers (equal e.1.value k.value)) :
    Answers (t.put equal k a) := by
  have entries : Answers (Entries.putMatching equal k a t.entries) := by
    generalize t.entries = es at compared
    induction es with
    | nil => exact ok _
    | cons e es ih =>
      obtain ⟨first, rest⟩ := List.forall_mem_cons.mp compared
      refine first.matching.bind fun b _ => ?_
      cases b with
      | true => exact ok _
      | false => exact (ih rest).bind fun _ _ => ok _
  obtain ⟨fs, put⟩ := entries
  unfold Table.put
  split
  · exact ok _
  · next e refused => cases refused.symm.trans put

theorem within {same : γ → γ → Except Error Bool} {t u : Table γ}
    (keys : ∀ e ∈ t.entries, ∀ f ∈ u.entries, Answers (equal f.1.value e.1.value))
    (contents : ∀ e ∈ t.entries, ∀ f ∈ u.entries, Answers (same e.2 f.2)) :
    Answers (t.within equal same u) := by
  refine allM fun e mem => ?_
  obtain ⟨found, eq, inside⟩ := findMatching (k := e.1) (keys e mem)
  show Answers (u.find? equal e.1 >>= _)
  rw [Table.find?, eq]
  cases found with
  | none => exact ok false
  | some a =>
    obtain ⟨f, mem', rfl⟩ := inside a rfl
    exact contents e mem f mem'

end

end Answers

namespace Heap

variable {h h' : Heap} {m n d : Nat} {v w : Value}

/-- The names of a scope and the values of their slots are nested less deep than the scope. -/
theorem NestsWithin.namesAndValues {c : ScopeId} (hc : h.NestsWithin (n + 1) (.scope c)) :
    ∃ bs : List (String × SlotId),
      (∀ less, (h.scope c).ascending less = .ok (bs.map fun b => (.text b.1, b.2))) ∧
      ∀ b ∈ bs, h.NestsWithin n (.text b.1) ∧ h.NestsWithin n (h.slot b.2).value := by
  obtain ⟨m, listed, answers⟩ := hc.2.1.sorted
  refine ⟨m.entries, listed, fun b mem => ?_⟩
  have content := hc.2.2 _ (Table.mem_of_get? ((answers b.1).symm.trans (NameMap.mem_entries.mp mem)))
  cases n with
  | zero => exact content.elim
  | succ n => exact ⟨trivial, content⟩

/-! ## Comparing -/

/-- Values that are not nested deeper than there are steps can be compared. -/
theorem NestsWithin.equal_answers (hv : h.NestsWithin n v) (hw : h.NestsWithin n w) {steps : Nat}
    (enough : n ≤ steps) : Answers (h.equalWithin steps v w) := by
  induction n generalizing v w steps with
  | zero => exact hv.elim
  | succ n ih =>
    obtain ⟨steps, rfl⟩ := Nat.exists_eq_add_one.mpr (Nat.zero_lt_of_lt enough)
    have equal : ∀ v w, h.NestsWithin n v → h.NestsWithin n w → Answers (h.equalWithin steps v w) :=
      fun v w hv hw => ih hv hw (Nat.le_of_succ_le_succ enough)
    have same : ∀ v w, h.NestsWithin n v → h.NestsWithin n w →
        Answers (LexEnv.sameBy (h.equalWithin steps) v w) :=
      fun v w hv hw => (equal v w hv hw).sameBy
    have parts : ∀ {bs : List (String × SlotId)},
        (∀ b ∈ bs, h.NestsWithin n (.text b.1) ∧ h.NestsWithin n (h.slot b.2).value) →
        ∀ v ∈ (bs.map fun b => (Value.text b.1, b.2)).flatMap fun e => [e.1, (h.slot e.2).value],
          h.NestsWithin n v := by
      intro bs each v mem
      simp only [List.mem_flatMap, List.mem_map, List.mem_cons, List.not_mem_nil, or_false] at mem
      obtain ⟨_, ⟨b, hb, rfl⟩, rfl | rfl⟩ := mem
      · exact (each b hb).1
      · exact (each b hb).2
    unfold equalWithin
    split
    · simp only
      split
      · exact .sameItems fun v mem w mem' => same v w (hv.2 v mem) (hw.2 w mem')
      · exact .ok false
    · exact .sameItems fun v mem w mem' => same v w (hv.2 v mem) (hw.2 w mem')
    · simp only
      split
      · exact .within (fun e mem f mem' => equal _ _ (hw.2 f mem') (hv.2 e mem))
          fun _ _ _ _ => .ok true
      · exact .ok false
    · simp only
      split
      · exact .within (fun e mem f mem' => equal _ _ (hw.2 f mem').2.1 (hv.2 e mem).2.1)
          fun e mem f mem' => same _ _ (hv.2 e mem).2.2 (hw.2 f mem').2.2
      · exact .ok false
    · exact .ok _
    · exact .ok _
    · obtain ⟨es, listed, left⟩ := hv.namesAndValues
      obtain ⟨fs, listed', right⟩ := hw.namesAndValues
      simp only [listed, listed', bind, Except.bind]
      exact .sameItems fun v mem w mem' => same v w (parts left v mem) (parts right w mem')
    · simp only
      split <;> exact .ok _

/-! ## Values with a hash -/

/-- A value with a hash that takes no more steps than some number. Inside of frozen sets none are
taken. -/
def Hashes (h : Heap) : (steps : Nat) → Value → Prop
  | 0, _ => False
  | steps + 1, v =>
    match v with
    | .sequence .tuple c => c.index < h.sequences.size ∧ ∀ w ∈ h.sequence c, h.Hashes steps w
    | .set .frozen c => c.index < h.sets.size
    | .sequence .list _ | .set .changing _ | .dict _ => False
    | .scope c => h.NestsWithin (steps + 1) (.scope c)
    | _ => True

theorem Hashes.grown (hashes : h.Hashes m v) (grown : h.Grown h') (le : m ≤ n) :
    h'.Hashes n v := by
  induction m generalizing n v with
  | zero => exact hashes.elim
  | succ m ih =>
    obtain ⟨n, rfl⟩ := Nat.exists_eq_add_one.mpr (Nat.zero_lt_of_lt le)
    cases v with
    | sequence kind c => cases kind with
      | list => exact hashes.elim
      | tuple =>
        refine ⟨Nat.lt_of_lt_of_le hashes.1 grown.sequences, ?_⟩
        rw [grown.sequence c hashes.1]
        exact fun w mem => ih (hashes.2 w mem) (Nat.le_of_succ_le_succ le)
    | set kind c => cases kind with
      | changing => exact hashes.elim
      | frozen => exact Nat.lt_of_lt_of_le hashes grown.sets
    | dict d => exact hashes.elim
    | scope c => exact NestsWithin.grown hashes grown le
    | _ => trivial

/-- Hashing a frozen value takes no more steps than it is nested deep. -/
theorem Frozen.hashes (frozen : h.Frozen v) (nests : h.NestsWithin n v) : h.Hashes n v := by
  induction frozen generalizing n with
  | plain plain => cases n with
    | zero => exact nests.elim
    | succ n => cases ‹Value› <;> first | exact plain.elim | exact nests
  | tuple c inside _ ih => cases n with
    | zero => exact nests.elim
    | succ n => exact ⟨inside, fun w mem => ih w mem (nests.2 w mem)⟩
  | set c inside => cases n with
    | zero => exact nests.elim
    | succ n => exact inside

/-! ## Making frozen values -/

/-- A value with a hash is made, without a change to what is there. -/
def Freezes (steps depth : Nat) (x : Building Value) (h : Heap) : Prop :=
  ∃ v h', x.run h = .ok (v, h') ∧ h.Grown h' ∧ h'.Hashes steps v ∧ h'.NestsWithin depth v

/-- Hashing values that take some number of steps comes to an end. -/
def HashesEnd (n : Nat) : Prop := ∀ (h : Heap) (v : Value), 2 * n ≤ h.reach → h.Hashes n v →
  ∀ steps, n ≤ steps → Answers (hashWithin steps h v)

/-- Freezing values that are nested up to some depth comes to an end. They may then be nested twice as
deep. -/
def FreezesEnd (n : Nat) : Prop := ∀ (h : Heap) (v : Value), 2 * n ≤ h.reach → h.NestsWithin n v →
  ∀ hashing steps, n ≤ hashing → n ≤ steps →
    Freezes n (2 * n) (freezeWithin (hashWithin hashing) steps v) h

/-- Values that are frozen one after the other. -/
theorem freezesAll {α : Type} (x : α → Building Value) (as : List α)
    (each : ∀ a ∈ as, ∀ h', h.Grown h' → Freezes n d (x a) h') :
    ∃ vs h', (as.mapM x).run h = .ok (vs, h') ∧ h.Grown h' ∧
      ∀ v ∈ vs, h'.Hashes n v ∧ h'.NestsWithin d v := by
  have all : List.Forall₂ (fun a _ => ∀ h', h.Grown h' → ∃ v h'', (x a).run h' = .ok (v, h'') ∧
      h'.Grown h'' ∧ h''.Hashes n v ∧ h''.NestsWithin d v) as as := List.forall₂_same.mpr each
  obtain ⟨vs, h', made, grown, items⟩ := exists_mapM_run x
    (P := fun _ h v => h.Hashes n v ∧ h.NestsWithin d v)
    (fun _ _ _ _ grown hv => ⟨hv.1.grown grown (Nat.le_refl n), hv.2.grown grown (Nat.le_refl d)⟩)
    all (.refl h)
  refine ⟨vs, h', made, grown, fun v mem => ?_⟩
  obtain ⟨a, _, hv⟩ := exists_of_mem_left items mem
  exact hv

theorem freezes_tuple {vs : List Value}
    (items : ∀ v ∈ vs, h.Hashes n v ∧ h.NestsWithin d v) :
    Freezes (n + 1) (d + 1) (Building.tuple vs) h := by
  have grown := h.grown_addSequence vs
  have inside : h.sequences.size < (h.addSequence vs).2.sequences.size := by simp [addSequence]
  have holds := h.sequence_addSequence_new vs (c := ⟨h.sequences.size⟩) rfl
  refine ⟨.sequence .tuple ⟨h.sequences.size⟩, (h.addSequence vs).2, rfl, grown, ⟨inside, ?_⟩,
    ⟨inside, ?_⟩⟩
  · rw [holds]
    exact fun v mem => (items v mem).1.grown grown (Nat.le_refl n)
  · rw [holds]
    exact fun v mem => (items v mem).2.grown grown (Nat.le_refl _)

theorem freezes_frozenSet {t : Table Unit}
    (elements : ∀ e ∈ t.entries, h.NestsWithin d e.1.value) :
    Freezes (n + 1) (d + 1) (Building.frozenSet t) h := by
  have grown := h.grown_addSet t
  have inside : h.sets.size < (h.addSet t).2.sets.size := by simp [addSet]
  have holds := h.set_addSet_new t (c := ⟨h.sets.size⟩) rfl
  refine ⟨.set .frozen ⟨h.sets.size⟩, (h.addSet t).2, rfl, grown, inside, inside, ?_⟩
  rw [holds]
  exact fun e mem => (elements e mem).grown grown (Nat.le_refl _)

theorem Freezes.after {β : Type} {x : Building β} {y : β → Building Value} {b : β} {h₁ : Heap}
    (made : Freezes n d (y b) h₁) (done : x.run h = .ok (b, h₁)) (grown : h.Grown h₁) :
    Freezes n d (x >>= y) h := exists_run_bind made done grown

theorem insert_ends {hash : Heap → Value → Except Error HashCode} (hashed : Answers (hash h v))
    (nests : h.NestsWithin n v) {t : Table Unit}
    (elements : ∀ e ∈ t.entries, h.NestsWithin n e.1.value) (enough : n ≤ h.reach) :
    ∃ t', (Building.insert hash t v).run h = .ok (t', h) ∧
      ∀ e ∈ t'.entries, h.NestsWithin n e.1.value := by
  obtain ⟨k, made, value⟩ : ∃ k, keyBy (hash h) v = .ok k ∧ k.value = v := by
    obtain ⟨code, hashed⟩ := hashed
    unfold keyBy
    split
    · exact ⟨_, rfl, rfl⟩
    · rw [hashed]
      exact ⟨_, rfl, rfl⟩
  subst value
  obtain ⟨t', put⟩ : Answers (t.put h.equal k ()) := .put () fun e mem =>
    (elements e mem).equal_answers nests enough
  refine ⟨t', ?_, fun e mem => ?_⟩
  · rw [Building.run_insert, made]
    show (t.put h.equal k () >>= _) = _
    rw [put]
    rfl
  · rcases Table.key_of_mem_put put mem with same | old
    · rw [same]
      exact nests
    · obtain ⟨e', mem', same⟩ := List.mem_map.mp old
      rw [← same]
      exact elements e' mem'

/-- Elements that are made one after the other are put into a set. -/
theorem insertAll_ends {α : Type} (hash : Heap → Value → Except Error HashCode)
    (x : α → Building Value) {as : List α} {h₀ : Heap}
    (each : ∀ a ∈ as, ∀ h', h₀.Grown h' → ∃ v h'', (x a).run h' = .ok (v, h'') ∧ h'.Grown h'' ∧
      h''.NestsWithin n v ∧ Answers (hash h'' v))
    {t : Table Unit} (elements : ∀ e ∈ t.entries, h.NestsWithin n e.1.value) (grown : h₀.Grown h)
    (enough : n ≤ h.reach) :
    ∃ t' h', (as.foldlM (fun t a => do
        Building.insert hash t (← x a)) t : Building (Table Unit)).run h = .ok (t', h') ∧
      h.Grown h' ∧ ∀ e ∈ t'.entries, h'.NestsWithin n e.1.value := by
  induction as generalizing h t with
  | nil => exact ⟨t, h, rfl, .refl h, elements⟩
  | cons a as ih =>
    obtain ⟨first, rest⟩ := List.forall_mem_cons.mp each
    obtain ⟨v, h₁, made, grown₁, nests, hashed⟩ := first h grown
    have enough₁ := Nat.le_trans enough grown₁.reach
    obtain ⟨t₁, inserted, elements₁⟩ := insert_ends hashed nests
      (fun e mem => (elements e mem).grown grown₁ (Nat.le_refl n)) enough₁
    obtain ⟨t', h', folded, grown', elements'⟩ := ih rest elements₁ (grown.trans grown₁) enough₁
    refine ⟨t', h', ?_, grown₁.trans grown', elements'⟩
    rw [List.foldlM_cons, StateT.run_bind, StateT.run_bind, made]
    show (do
      let p ← (Building.insert hash t v).run h₁
      (as.foldlM _ p.1 : Building (Table Unit)).run p.2) = _
    rw [inserted]
    exact folded

/-! ## Depth by depth -/

theorem hashesEnd_succ (hashes : HashesEnd n) (freezes : FreezesEnd n) : HashesEnd (n + 1) := by
  intro h v room hv steps enough
  obtain ⟨steps, rfl⟩ := Nat.exists_eq_add_one.mpr (Nat.zero_lt_of_lt enough)
  have enough : n ≤ steps := Nat.le_of_succ_le_succ enough
  have room : 2 * n ≤ h.reach := by omega
  cases v with
  | sequence kind c => cases kind with
    | list => exact hv.elim
    | tuple =>
      exact (Answers.mapM fun w mem => hashes h w room (hv.2 w mem) steps enough).bind fun _ _ => .ok _
  | set kind c => cases kind with
    | changing => exact hv.elim
    | frozen => exact .ok _
  | dict d => exact hv.elim
  | scope c =>
    obtain ⟨bs, listed, bound⟩ := hv.namesAndValues
    obtain ⟨vs, h', frozen, grown, made⟩ := freezesAll (h := h) (n := n)
      (fun e => freezeWithin (hashWithin steps) steps (h.slot e.2).value)
      (bs.map fun b => (Value.text b.1, b.2)) fun e mem h' grown => by
        obtain ⟨b, hb, rfl⟩ := List.mem_map.mp mem
        exact freezes h' _ (Nat.le_trans room grown.reach)
          ((bound b hb).2.grown grown (Nat.le_refl n)) steps steps enough enough
    have room' := Nat.le_trans room grown.reach
    obtain ⟨ns, names⟩ : Answers ((bs.map fun b => (Value.text b.1, b.2)).mapM fun e =>
        hashWithin steps h' e.1) := .mapM fun e mem => by
        obtain ⟨b, hb, rfl⟩ := List.mem_map.mp mem
        cases n with
        | zero => exact (bound b hb).1.elim
        | succ n => cases steps with
          | zero => exact absurd enough (Nat.not_succ_le_zero n)
          | succ steps => exact .ok _
    obtain ⟨cs, contents⟩ := Answers.mapM (f := hashWithin steps h') fun v mem =>
      hashes h' v room' (made v mem).1 steps enough
    exact ⟨_, hashWithin_scope (listed h.less) frozen names contents⟩
  | _ => exact .ok _

theorem freezesEnd_succ (hashes : HashesEnd n) (hashesNext : HashesEnd (n + 1))
    (freezes : FreezesEnd n) : FreezesEnd (n + 1) := by
  intro h v room hv hashing steps able enough
  obtain ⟨steps, rfl⟩ := Nat.exists_eq_add_one.mpr (Nat.zero_lt_of_lt enough)
  have enough : n ≤ steps := Nat.le_of_succ_le_succ enough
  have able' : n ≤ hashing := Nat.le_of_succ_le able
  -- What is inside is frozen in a heap that has grown by then.
  have inner : ∀ {w}, h.NestsWithin n w → ∀ h', h.Grown h' →
      Freezes n (2 * n) (freezeWithin (hashWithin hashing) steps w) h' := fun nests h' grown =>
    freezes h' _ (by have := grown.reach; omega) (nests.grown grown (Nat.le_refl n)) hashing steps
      able' enough
  have kept : v.Plain → (freezeWithin (hashWithin hashing) (steps + 1) v).run h = .ok (v, h) →
      Freezes (n + 1) (2 * (n + 1)) (freezeWithin (hashWithin hashing) (steps + 1) v) h :=
    fun plain ran => ⟨v, h, ran, .refl h, (Frozen.plain plain).hashes hv, hv.mono (by omega)⟩
  cases v with
  | sequence kind c =>
    obtain ⟨vs, h', made, grown, items⟩ := freezesAll
      (freezeWithin (hashWithin hashing) steps) (h.sequence c) fun w mem => inner (hv.2 w mem)
    have frozen := freezes_tuple (d := 2 * n + 1) fun v mem =>
      ⟨(items v mem).1, (items v mem).2.mono (by omega)⟩
    exact frozen.after made grown
  | set kind c =>
    obtain ⟨t, h', folded, grown, elements⟩ := insertAll_ends (n := 2 * n) (h := h)
      (hashWithin hashing) (freezeWithin (hashWithin hashing) steps) (t := .empty)
      (fun w mem h' grown => by
        obtain ⟨e, he, rfl⟩ := List.mem_map.mp mem
        obtain ⟨v, h'', made, grown', hashed, nests⟩ := inner (hv.2 e he) h' grown
        refine ⟨v, h'', made, grown', nests, hashes h'' v ?_ hashed hashing able'⟩
        have := grown.reach
        have := grown'.reach
        omega) nofun (.refl h) (by omega)
    have frozen := freezes_frozenSet (n := n) (d := 2 * n + 1) fun e mem =>
      (elements e mem).mono (by omega)
    exact frozen.after folded grown
  | dict d =>
    obtain ⟨t, h', folded, grown, elements⟩ := insertAll_ends (n := 2 * n + 1) (h := h)
      (hashWithin hashing) (freezeEntry (hashWithin hashing) steps) (t := .empty)
      (fun e mem h' grown => by
        obtain ⟨frozen, key, content⟩ := hv.2 e mem
        obtain ⟨w, h₁, made, grown₁, hashed, nests⟩ := inner content h' grown
        have key₁ := key.grown (grown.trans grown₁) (Nat.le_refl n)
        have items : ∀ v ∈ [e.1.value, w], h₁.Hashes n v ∧ h₁.NestsWithin (2 * n) v :=
          List.forall_mem_cons.mpr ⟨⟨(frozen.grown (grown.trans grown₁)).hashes key₁,
            key₁.mono (by omega)⟩, List.forall_mem_singleton.mpr ⟨hashed, nests⟩⟩
        obtain ⟨v, h'', paired, grown₂, hashed', nests'⟩ :=
          Freezes.after (y := fun c => .tuple [e.1.value, c]) (freezes_tuple items) made grown₁
        have room' := Nat.le_trans room (Nat.le_trans grown.reach grown₂.reach)
        exact ⟨v, h'', paired, grown₂, nests', hashesNext h'' v room' hashed' hashing able⟩)
      nofun (.refl h) (by omega)
    rw [freezeWithin_dict]
    have frozen := freezes_frozenSet (n := n) elements
    exact frozen.after folded grown
  | _ => exact kept trivial rfl

/-- Values that are nested up to some depth can be hashed if they have a hash at all, and frozen, when
there is room enough. -/
theorem hashes_and_freezes_end (n : Nat) : HashesEnd n ∧ FreezesEnd n := by
  induction n with
  | zero => exact ⟨fun _ _ _ hv => hv.elim, fun _ _ _ hv => hv.elim⟩
  | succ n ih =>
    have hashes := hashesEnd_succ ih.1 ih.2
    exact ⟨hashes, freezesEnd_succ ih.1 hashes ih.2⟩

/-- There is room in a heap for everything that is not nested deeper than twice its size. -/
theorem NestsWithin.hash_answers {c : ScopeId} (hc : h.NestsWithin n (.scope c))
    (room : 2 * n ≤ h.reach) : Answers (h.hash (.scope c)) := by
  cases n with
  | zero => exact hc.elim
  | succ n => exact (hashes_and_freezes_end (n + 1)).1 h (.scope c) room hc h.reach (by omega)

end Heap

end LexEnv
