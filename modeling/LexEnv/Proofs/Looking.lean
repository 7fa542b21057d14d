import LexEnv.Stack

/-!
# What looking at values can fail with

Comparing, ordering, hashing, freezing and writing values, and looking names up in tables, may fail:
values may have no order or no hash, an integer may be too long to be written, and objects may hold
themselves. None of that is a refused write; those come from slots alone. The errors are followed
through each of these functions once (`FailsAs`).

Main statements: `Heap.looks_equal`, `Heap.looks_written`, `Heap.looks_visible`, `Stack.fails_mayEnter`.
-/

namespace LexEnv

/-! ## Errors of some kind -/

/-- What can go wrong in looking at values. -/
inductive Error.OfLooking : Error → Prop where
  | typing (fault : TypeFault) : OfLooking (.typing fault)
  | digitLimit : OfLooking .digitLimit
  | endless : OfLooking .endless

/-- What fails with such errors only. -/
def FailsAs {α : Type} (P : Error → Prop) (r : Except Error α) : Prop := ∀ e, r = .error e → P e

namespace FailsAs

variable {α β : Type} {P Q : Error → Prop}

theorem ok (a : α) : FailsAs P (.ok a) := nofun

theorem error {e : Error} (is : P e) : FailsAs P (.error e : Except Error α) := by
  rintro e' ⟨⟩
  exact is

theorem mono {r : Except Error α} (fails : FailsAs P r) (sub : ∀ e, P e → Q e) : FailsAs Q r :=
  fun e is => sub e (fails e is)

theorem bind {r : Except Error α} {f : α → Except Error β} (first : FailsAs P r)
    (next : ∀ a, FailsAs P (f a)) : FailsAs P (r >>= f) := by
  cases r with
  | ok a => exact next a
  | error e => exact .error (first e rfl)

theorem mapM {f : α → Except Error β} (each : ∀ a, FailsAs P (f a)) (as : List α) :
    FailsAs P (as.mapM f) := by
  induction as with
  | nil => exact ok []
  | cons a as ih =>
    rw [List.mapM_cons]
    exact (each a).bind fun b => ih.bind fun bs => ok (b :: bs)

theorem foldlM {f : β → α → Except Error β} (each : ∀ b a, FailsAs P (f b a)) (b : β)
    (as : List α) : FailsAs P (as.foldlM f b) := by
  induction as generalizing b with
  | nil => exact ok b
  | cons a as ih =>
    rw [List.foldlM_cons]
    exact (each b a).bind ih

theorem allM {test : α → Except Error Bool} (each : ∀ a, FailsAs P (test a)) (as : List α) :
    FailsAs P (as.allM test) := by
  induction as with
  | nil => exact ok true
  | cons a as ih =>
    rw [List.allM]
    refine (each a).bind fun b => ?_
    cases b with
    | true => exact ih
    | false => exact ok false

/-- One way to go on, or another one. -/
theorem ite {c : Prop} [Decidable c] {r s : Except Error α} (yes : FailsAs P r) (no : FailsAs P s) :
    FailsAs P (if c then r else s) := by
  split
  · exact yes
  · exact no

/-! ## Tables -/

section

variable {equal less : Value → Value → Except Error Bool}

theorem sameBy (compared : ∀ v w, FailsAs P (equal v w)) (v w : Value) :
    FailsAs P (sameBy equal v w) := ite (ok true) (compared v w)

theorem matching (compared : ∀ v w, FailsAs P (equal v w)) (k l : Key) :
    FailsAs P (k.matching equal l) := by
  unfold Key.matching
  split
  · exact ok _
  · exact ite (sameBy compared _ _) (ok false)
  · exact ok false

variable {γ : Type}

theorem find? (compared : ∀ v w, FailsAs P (equal v w)) (key : Key) (t : Table γ) :
    FailsAs P (t.find? equal key) := by
  unfold Table.find?
  induction t.entries with
  | nil => exact ok none
  | cons e es ih => exact (matching compared e.1 key).bind fun b => ite (ok _) ih

theorem put (compared : ∀ v w, FailsAs P (equal v w)) (key : Key) (a : γ) (t : Table γ) :
    FailsAs P (t.put equal key a) := by
  have entries : ∀ es, FailsAs P (Entries.putMatching equal key a es) := fun es => by
    induction es with
    | nil => exact ok _
    | cons e es ih =>
      exact (matching compared e.1 key).bind fun b => ite (ok _) (ih.bind fun es => ok _)
  unfold Table.put
  split
  · exact ok _
  · next e failed => exact error (entries _ e failed)

/-! ## Sorting -/

theorem takeRun {goesOn : γ → γ → Except Error Bool} (compared : ∀ a b, FailsAs P (goesOn a b))
    (last : γ) (as : List γ) : FailsAs P (takeRun goesOn last as) := by
  induction as generalizing last with
  | nil => exact ok _
  | cons a as ih => exact (compared last a).bind fun b => ite ((ih a).bind fun r => ok _) (ok _)

theorem insertBy {less : γ → γ → Except Error Bool} (compared : ∀ a b, FailsAs P (less a b)) (x : γ)
    (sorted : List γ) : FailsAs P (insertBy less x sorted) := by
  fun_induction LexEnv.insertBy less x sorted with
  | case1 => exact ok _
  | case2 sorted middle above is below lower upper =>
    exact (compared x middle).bind fun b => ite (lower.bind fun _ => ok _) (upper.bind fun _ => ok _)

theorem sortBy {less : γ → γ → Except Error Bool} (compared : ∀ a b, FailsAs P (less a b))
    (as : List γ) : FailsAs P (sortBy less as) := by
  unfold LexEnv.sortBy
  split
  · exact ok _
  · exact ok _
  · next x y xs =>
    refine (compared y x).bind fun falling => ?_
    refine (takeRun (fun a b => (compared b a).bind fun _ => ok _) y xs).bind fun r => ?_
    exact foldlM (fun sorted x => insertBy compared x sorted) _ _

theorem ascending (ordered : ∀ v w, FailsAs P (less v w)) (t : Table γ) :
    FailsAs P (t.ascending less) := by
  unfold Table.ascending
  split
  · exact ok _
  · exact sortBy (fun a b : Value × γ => ordered a.1 b.1) _

/-! ## Containers -/

theorem within {same : γ → γ → Except Error Bool} (compared : ∀ v w, FailsAs P (equal v w))
    (contents : ∀ a b, FailsAs P (same a b)) (t u : Table γ) :
    FailsAs P (t.within equal same u) := by
  refine allM (fun e : Key × γ => (find? compared e.1 u).bind fun found => ?_) _
  cases found with
  | some b => exact contents e.2 b
  | none => exact ok false

theorem sameItems {same : Value → Value → Except Error Bool} (compared : ∀ v w, FailsAs P (same v w))
    (vs ws : List Value) : FailsAs P (sameItems same vs ws) := by
  induction vs generalizing ws with
  | nil => cases ws <;> exact ok _
  | cons v vs ih =>
    cases ws with
    | nil => exact ok false
    | cons w ws => exact (compared v w).bind fun b => ite (ih ws) (ok false)

theorem lessItems {same : Value → Value → Except Error Bool} (compared : ∀ v w, FailsAs P (same v w))
    (ordered : ∀ v w, FailsAs P (less v w)) (vs ws : List Value) :
    FailsAs P (lessItems same less vs ws) := by
  induction vs generalizing ws with
  | nil => cases ws <;> exact ok _
  | cons v vs ih =>
    cases ws with
    | nil => exact ok false
    | cons w ws => exact (compared v w).bind fun b => ite (ih ws) (ordered v w)

end

end FailsAs

/-! ## Values -/

/-- What looks at something fails as looking can. -/
abbrev Looks {α : Type} (r : Except Error α) : Prop := FailsAs Error.OfLooking r

namespace Heap

variable (h : Heap)

/-- Comparison and order, which need each other for scopes. -/
theorem looks_compareWithin (steps : Nat) (v w : Value) :
    Looks (h.equalWithin steps v w) ∧ Looks (h.lessWithin steps v w) := by
  induction steps generalizing v w with
  | zero =>
    simp only [equalWithin, lessWithin]
    exact ⟨.error .endless, .error .endless⟩
  | succ steps ih =>
    have equal := fun v w => (ih v w).1
    have less := fun v w => (ih v w).2
    have same := FailsAs.sameBy equal
    constructor
    · unfold equalWithin
      simp only
      split
      · exact .ite (.sameItems same _ _) (.ok false)
      · exact .sameItems same _ _
      · exact .ite (.within equal (fun _ _ => .ok true) _ _) (.ok false)
      · exact .ite (.within equal same _ _) (.ok false)
      · exact .ok _
      · exact .ok _
      · exact (FailsAs.ascending less _).bind fun left => (FailsAs.ascending less _).bind fun right =>
          .sameItems same _ _
      · split <;> exact .ok _
    · unfold lessWithin
      simp only
      split
      · exact .ok _
      · exact .ok _
      · exact .lessItems same less _ _
      · exact .lessItems same less _ _
      · exact .ite (.within equal (fun _ _ => .ok true) _ _) (.ok false)
      · split
        · exact .ok _
        · exact .error (.typing _)

theorem looks_equal (v w : Value) : Looks (h.equal v w) := (h.looks_compareWithin h.reach v w).1

theorem looks_enumerate (bindings : Scope) : Looks (h.enumerate bindings) :=
  .ascending (fun v w => (h.looks_compareWithin h.reach v w).2) bindings

/-! ## Hashes -/

/-- A value as a key fails as its hash does. -/
theorem looks_keyBy {hash : Value → Except Error HashCode} (hashed : ∀ v, Looks (hash v)) (v : Value) :
    Looks (keyBy hash v) := by
  unfold keyBy
  split
  · exact .ok _
  · exact (hashed _).bind fun _ => .ok _

theorem looks_insert {hash : Heap → Value → Except Error HashCode} (hashed : ∀ h v, Looks (hash h v))
    (elements : Table Unit) (v : Value) : Looks ((Building.insert hash elements v).run h) := by
  rw [Building.run_insert]
  exact ((looks_keyBy (hashed h) v).bind fun k => .put h.looks_equal k () elements).bind fun _ => .ok _

/-- Building one thing after the other fails as each building does. -/
theorem looks_run_bind {α β : Type} {x : Building α} {f : α → Building β} (first : ∀ h, Looks (x.run h))
    (next : ∀ a h, Looks ((f a).run h)) (h : Heap) : Looks ((x >>= f).run h) := by
  rw [StateT.run_bind]
  exact (first h).bind fun p => next p.1 p.2

theorem looks_run_mapM {α β : Type} {f : α → Building β} (each : ∀ a h, Looks ((f a).run h))
    (as : List α) (h : Heap) : Looks ((as.mapM f).run h) := by
  induction as generalizing h with
  | nil => exact .ok _
  | cons a as ih =>
    rw [List.mapM_cons]
    exact looks_run_bind (each a) (fun b => looks_run_bind ih fun bs _ => .ok _) h

theorem looks_run_foldlM {α β : Type} {f : β → α → Building β} (each : ∀ b a h, Looks ((f b a).run h))
    (b : β) (as : List α) (h : Heap) : Looks ((as.foldlM f b).run h) := by
  induction as generalizing b h with
  | nil => exact .ok _
  | cons a as ih =>
    rw [List.foldlM_cons]
    exact looks_run_bind (each b a) ih h

theorem looks_freezeWithin {hash : Heap → Value → Except Error HashCode}
    (hashed : ∀ h v, Looks (hash h v)) (steps : Nat) (v : Value) (h : Heap) :
    Looks ((freezeWithin hash steps v).run h) := by
  induction steps generalizing v h with
  | zero => exact .error .endless
  | succ steps ih =>
    unfold freezeWithin
    refine looks_run_bind (fun h => .ok _) (fun h₀ h => ?_) h
    split
    · exact looks_run_bind (looks_run_mapM ih _) (fun _ _ => .ok _) h
    · refine looks_run_bind (looks_run_foldlM (fun elements v => ?_) _ _) (fun _ _ => .ok _) h
      exact looks_run_bind (ih v) fun w h => h.looks_insert hashed elements w
    · refine looks_run_bind (looks_run_foldlM (fun elements e => ?_) _ _) (fun _ _ => .ok _) h
      exact looks_run_bind (ih e.2) fun content => looks_run_bind (fun _ => .ok _)
        fun pair h => h.looks_insert hashed elements pair
    · exact .ok _

theorem looks_hashWithin (steps : Nat) (h : Heap) (v : Value) : Looks (hashWithin steps h v) := by
  induction steps generalizing h v with
  | zero => exact .error .endless
  | succ steps ih =>
    unfold hashWithin
    split
    · exact .ok _
    · exact .ok _
    · exact .ok _
    · exact (FailsAs.mapM (ih h) _).bind fun _ => .ok _
    · exact .ok _
    · exact .ok _
    · exact .ok _
    · exact .ok _
    · exact .ok _
    · exact .ok _
    · exact .ok _
    · refine (h.looks_enumerate _).bind fun bindings => ?_
      refine FailsAs.bind (looks_run_mapM (fun e => looks_freezeWithin ih steps _) _ h) fun made => ?_
      exact (FailsAs.mapM (fun e => ih made.2 _) _).bind fun names =>
        (FailsAs.mapM (ih made.2) _).bind fun contents => .ok _
    · split
      · exact .ok _
      · exact .error (.typing _)

theorem looks_key (v : Value) : Looks (h.key v) := looks_keyBy (looks_hashWithin h.reach h) v

theorem looks_find? {α : Type} (key : Key) (t : Table α) : Looks (h.find? key t) :=
  .find? h.looks_equal key t

theorem looks_put {α : Type} (key : Key) (a : α) (t : Table α) : Looks (h.put key a t) :=
  .put h.looks_equal key a t

/-! ## Names on a stack -/

theorem looks_resolve (key : Key) (chain : List ScopeId) : Looks (h.resolve key chain) := by
  induction chain with
  | nil => exact .ok none
  | cons c chain ih =>
    refine (h.looks_find? key _).bind fun found => ?_
    cases found with
    | some t => exact .ok _
    | none => exact ih

theorem looks_visible (chain : List ScopeId) : Looks (h.visible chain) := by
  refine (FailsAs.foldlM (fun seen c => ?_) _ chain).bind fun seen => h.looks_enumerate seen
  refine (h.looks_enumerate _).bind fun bindings => .foldlM (fun seen e => ?_) _ _
  refine (h.looks_key e.1).bind fun key => (h.looks_find? key seen).bind fun found => ?_
  cases found with
  | some t => exact .ok _
  | none => exact h.looks_put key e.2 seen

/-! ## Written forms -/

theorem looks_writeWithin (steps : Nat) (path : List Enclosing) (v : Value) :
    Looks (h.writeWithin steps path v) := by
  induction steps generalizing path v with
  | zero => exact .error .endless
  | succ steps ih =>
    have inside : ∀ path vs, Looks (List.mapM (h.writeWithin steps path) vs) := fun path vs =>
      .mapM (ih path) vs
    unfold writeWithin
    split
    · exact .ok _
    · exact .ok _
    · exact .ite (.ok _) (.error .digitLimit)
    · exact .ok _
    · exact .ok _
    · exact .ok _
    · exact .ite (.ok _) ((inside _ _).bind fun _ => .ok _)
    · exact .ite (.ok _) ((inside _ _).bind fun _ => .ok _)
    · refine .ite (.ok _) ((FailsAs.mapM (fun e => ?_) _).bind fun _ => .ok _)
      exact (ih _ e.1.value).bind fun _ => (ih _ e.2).bind fun _ => .ok _
    · exact .ok _
    · exact .ok _
    · split
      · exact .ok _
      · exact (ih _ _).bind fun _ => .ok _
    · refine (h.looks_enumerate _).bind fun bindings => ?_
      refine (FailsAs.mapM (fun e => ?_) bindings).bind fun _ => .ok _
      have content : ∀ name : String, Looks do
          let shown ← h.writeWithin steps path (h.slot e.2).value
          return name ++ ": " ++ shown := fun name => (ih _ _).bind fun _ => .ok _
      dsimp only
      split
      · exact content _
      · exact (ih _ _).bind content
    · refine FailsAs.bind (.ite (.ok _) ((inside _ _).bind fun _ => .ok _)) fun positional => ?_
      refine FailsAs.bind (.ite (.ok _) ((FailsAs.mapM (fun e => ?_) _).bind fun _ => .ok _))
        fun named => .ok _
      exact (ih _ e.2).bind fun _ => .ok _
    · exact .ok _

theorem looks_written (v : Value) : Looks (h.written v) := h.looks_writeWithin h.reach [] v

theorem looks_display (v : Value) : Looks (h.display v) := by
  unfold display
  split
  · exact .ok _
  · exact h.looks_written _

theorem looks_gapText (v : Value) : Looks (h.gapText v) := by
  unfold gapText
  split
  · split
    · exact .error (.typing _)
    · exact h.looks_display _
    · exact .error (.typing _)
  · exact h.looks_display _

end Heap

/-! ## Entering a stack -/

/-- What can go wrong in entering a stack. -/
inductive Error.OfEntering : Error → Prop where
  | depthLimit (maxDepth : Number.WritableInt) : OfEntering (.depthLimit maxDepth)
  | memoryLimit (megabytes : Number.WritableInt) : OfEntering (.memoryLimit megabytes)
  | digitLimit : OfEntering .digitLimit
  | quotient : OfEntering (.overflow .quotient)

namespace Stack

/-- The error of a limit names it, or is that of the digits. -/
theorem refusal_of {P : Error → Prop} {cause : Number.WritableInt → Error} (named : ∀ n, P (cause n))
    (long : P .digitLimit) (limit : Int) : P (refusal cause limit) := by
  unfold refusal
  split
  · exact named _
  · exact long

theorem fails_mayEnter (st : Stack) (resident : Int) :
    FailsAs Error.OfEntering (st.mayEnter resident) := by
  unfold mayEnter
  refine .ite (.error (refusal_of .depthLimit .digitLimit _)) ?_
  split
  · exact .ok ()
  · refine FailsAs.bind (.ite (.error .quotient) (.ok _)) fun _ => ?_
    exact .ite (.error (refusal_of .memoryLimit .digitLimit _)) (.ok ())

end Stack

end LexEnv
