import LexEnv.Proofs.Mirror

/-!
# Equality along links

Two heaps of different sizes: a comparison in the larger one may take more steps. Along a link that
leaves everything but sequences and sets as it is (`Link.Follows`), values that stand for each other
are equal in both heaps or in neither, unless the steps do not suffice in the smaller one
(`Follows.equal`).
-/

namespace LexEnv

/-! ## Results with more steps -/

/-- A second result that was given more steps than the first: both are related, or the same error.
Nothing is said of it if the steps of the first one did not suffice. -/
inductive Prolongs {α β : Type} (R : α → β → Prop) : Except Error α → Except Error β → Prop where
  | endless (r : Except Error β) : Prolongs R (.error .endless) r
  | error (e : Error) : Prolongs R (.error e) (.error e)
  | ok {a : α} {b : β} (related : R a b) : Prolongs R (.ok a) (.ok b)

namespace Prolongs

variable {α β γ δ : Type} {R : α → β → Prop} {S : γ → δ → Prop} {r : Except Error α}
  {r' : Except Error β}

theorem imp {T : α → β → Prop} (p : Prolongs R r r') (imp : ∀ a b, R a b → T a b) :
    Prolongs T r r' := by
  cases p with
  | endless => exact .endless _
  | error e => exact .error e
  | ok related => exact .ok (imp _ _ related)

theorem bind (first : Prolongs R r r') {f : α → Except Error γ} {f' : β → Except Error δ}
    (next : ∀ a b, R a b → Prolongs S (f a) (f' b)) : Prolongs S (r >>= f) (r' >>= f') := by
  cases first with
  | endless r => exact .endless _
  | error e => exact .error e
  | ok related => exact next _ _ related

theorem mapM {f : α → Except Error γ} {f' : β → Except Error δ}
    (each : ∀ a b, R a b → Prolongs S (f a) (f' b)) {as : List α} {bs : List β}
    (all : List.Forall₂ R as bs) : Prolongs (List.Forall₂ S) (as.mapM f) (bs.mapM f') := by
  induction all with
  | nil => exact .ok .nil
  | cons first _ ih =>
    rw [List.mapM_cons, List.mapM_cons]
    exact (each _ _ first).bind fun c d related => ih.bind fun cs ds rest => .ok (.cons related rest)

/-- A test that is only made if another one is positive. -/
theorem and {t t' s s' : Except Error Bool} (first : Prolongs Eq t t') (next : Prolongs Eq s s') :
    Prolongs Eq (do if ← t then s else return false) (do if ← t' then s' else return false) :=
  first.bind fun a b same => by
    subst same
    cases a with
    | true => exact next
    | false => exact .ok rfl

theorem allM {test : α → Except Error Bool} {test' : β → Except Error Bool}
    (each : ∀ a b, R a b → Prolongs Eq (test a) (test' b)) {as : List α} {bs : List β}
    (all : List.Forall₂ R as bs) : Prolongs Eq (as.allM test) (bs.allM test') := by
  induction all with
  | nil => exact .ok rfl
  | cons first _ ih =>
    rw [List.allM, List.allM]
    refine (each _ _ first).bind fun a b same => ?_
    subst same
    cases a with
    | true => exact ih
    | false => exact .ok rfl

theorem of_map {f : α → γ} {f' : β → δ} (mapped : Prolongs S (r.map f) (r'.map f'))
    (related : ∀ a b, S (f a) (f' b) → R a b) : Prolongs R r r' := by
  cases r with
  | error e =>
    cases r' with
    | error e' =>
      rcases mapped with _ | _ | _
      · exact .endless _
      · exact .error e
    | ok b =>
      cases mapped with
      | endless r => exact .endless _
  | ok a =>
    cases r' with
    | error e' => cases mapped
    | ok b =>
      cases mapped with
      | ok s => exact .ok (related a b s)

/-- A result that came to an end is the same with more steps. -/
theorem eq_or {r r' : Except Error α} (p : Prolongs Eq r r') : r = .error .endless ∨ r' = r := by
  cases p with
  | endless r => exact .inl rfl
  | error e => exact .inr rfl
  | ok same => exact .inr (congrArg _ same.symm)

end Prolongs

/-! ## Links that leave most objects as they are -/

/-- Sequences and sets: the objects that freezing makes. -/
def Object.Freezable : Object → Prop
  | .sequence _ | .set _ => True
  | _ => False

namespace Link

/-- A heap of at least the same size mirrors another one, and all objects but sequences and sets
stand for themselves. -/
structure Follows (L : Link) (h g : Heap) : Prop where
  mirrors : L.Mirrors h g
  fixed : ∀ {o p}, L o p → o.Freezable ∨ o = p
  size : h.size ≤ g.size

variable {L : Link} {h g : Heap}

theorem le_trans {M N : Link} (first : L ≤ M) (next : M ≤ N) : L ≤ N := fun o p linked =>
  next o p (first o p linked)

/-! ### What stands for a value -/

theorem serials_flip {m n : Nat} : Serials (flip L) n m ↔ L.Serials m n :=
  or_congr And.comm Iff.rfl

/-- What stands for a value along a link, read the other way round. -/
theorem Alike.flip {v w : Value} (alike : L.Alike v w) : Alike (flip L) w v := by
  cases alike with
  | none => exact .none
  | bool b => exact .bool b
  | int n => exact .int n
  | float x serials => exact .float x (serials_flip.mpr serials)
  | text s => exact .text s
  | bytes b => exact .bytes b
  | sequence kind linked => exact .sequence kind linked
  | set kind linked => exact .set kind linked
  | dict linked => exact .dict linked
  | func name native serials => exact .func name native (serials_flip.mpr serials)
  | cls name template serials => exact .cls name template (serials_flip.mpr serials)
  | slot linked => exact .slot linked
  | scope linked => exact .scope linked
  | stack linked => exact .stack linked
  | arguments linked => exact .arguments linked
  | context linked => exact .context linked

/-- Only one value stands for a value if only one object does for each object. -/
theorem Alike.unique {v w w' : Value} (alike : L.Alike v w) (alike' : L.Alike v w')
    (one : ∀ {o p q}, L o p → L o q → p = q) (serials : ∀ {m n}, L.Serials m n → m = n) :
    w = w' := by
  cases alike with
  | none => cases alike'; rfl
  | bool b => cases alike'; rfl
  | int n => cases alike'; rfl
  | text s => cases alike'; rfl
  | bytes b => cases alike'; rfl
  | float x ser => cases alike' with
    | float _ ser' => rw [← serials ser, serials ser']
  | func name native ser => cases alike' with
    | func _ _ ser' => rw [← serials ser, serials ser']
  | cls name template ser => cases alike' with
    | cls _ _ ser' => rw [← serials ser, serials ser']
  | sequence kind linked => cases alike' with
    | sequence _ linked' => cases one linked linked'; rfl
  | set kind linked => cases alike' with
    | set _ linked' => cases one linked linked'; rfl
  | dict linked => cases alike' with
    | dict linked' => cases one linked linked'; rfl
  | slot linked => cases alike' with
    | slot linked' => cases one linked linked'; rfl
  | scope linked => cases alike' with
    | scope linked' => cases one linked linked'; rfl
  | stack linked => cases alike' with
    | stack linked' => cases one linked linked'; rfl
  | arguments linked => cases alike' with
    | arguments linked' => cases one linked linked'; rfl
  | context linked => cases alike' with
    | context linked' => cases one linked linked'; rfl

namespace Follows

variable (f : L.Follows h g)

include f

theorem serials {m n : Nat} (serials : L.Serials m n) : m = n := by
  rcases serials with ⟨rfl, rfl⟩ | linked
  · rfl
  · rcases f.fixed linked with made | same
    · exact made.elim
    · exact Object.serial.inj same

/-- Values are identical when those that stand for them are. -/
theorem identical {v v' w w' : Value} (hv : L.Alike v v') (hw : L.Alike w w') :
    v = w ↔ v' = w' := by
  constructor
  · rintro rfl
    exact hv.unique hw f.mirrors.functional f.serials
  · rintro rfl
    exact hv.flip.unique hw.flip (fun linked linked' => f.mirrors.injective linked linked')
      fun serials => (f.serials (serials_flip.mp serials)).symm

theorem quantity? {v w : Value} (alike : L.Alike v w) : v.quantity? = w.quantity? := by
  cases alike with
  | float x serials => rw [f.serials serials]
  | _ => rfl

end Follows

/-! ## Comparisons of what stands for each other -/

/-- A comparison gives the same for values that stand for each other as another one with fewer
steps. -/
def Compares (L : Link) (equal equal' : Value → Value → Except Error Bool) : Prop :=
  ∀ v v' w w', L.Alike v v' → L.Alike w w' → Prolongs Eq (equal v w) (equal' v' w')

section

variable (f : L.Follows h g) {equal equal' : Value → Value → Except Error Bool}
  (compares : L.Compares equal equal')

include f compares

theorem Follows.sameBy : L.Compares (sameBy equal) (sameBy equal') := by
  intro v v' w w' hv hw
  have iff := f.identical hv hw
  unfold LexEnv.sameBy
  by_cases same : v = w
  · rw [if_pos same, if_pos (iff.mp same)]
    exact .ok rfl
  · rw [if_neg same, if_neg (iff.not.mp same)]
    exact compares _ _ _ _ hv hw

theorem Follows.matching {k k' l l' : Key} (hk : L.Keys k k') (hl : L.Keys l l') :
    Prolongs Eq (k.matching equal l) (k'.matching equal' l') := by
  cases hk with
  | text s => cases hl <;> exact .ok rfl
  | other hv hash => cases hl with
    | text s => exact .ok rfl
    | other hw hash' =>
      rw [Key.matching, Key.matching]
      split
      · exact f.sameBy compares _ _ _ _ hv hw
      · exact .ok rfl

variable {α β : Type} {R : α → β → Prop}

theorem Follows.findMatching {k k' : Key} (hk : L.Keys k k') {es : List (Key × α)}
    {fs : List (Key × β)} (entries : List.Forall₂ (L.Entries R) es fs) :
    Prolongs (Option.Rel R) (Entries.findMatching equal k es)
      (Entries.findMatching equal' k' fs) := by
  induction entries with
  | nil => exact .ok .none
  | cons first _ ih =>
    refine (f.matching compares first.1 hk).bind fun a b same => ?_
    subst same
    cases a with
    | true => exact .ok (.some first.2)
    | false => exact ih

theorem Follows.putMatching {k k' : Key} (hk : L.Keys k k') {a : α} {b : β} (r : R a b)
    {es : List (Key × α)} {fs : List (Key × β)} (entries : List.Forall₂ (L.Entries R) es fs) :
    Prolongs (List.Forall₂ (L.Entries R)) (Entries.putMatching equal k a es)
      (Entries.putMatching equal' k' b fs) := by
  induction entries with
  | nil => exact .ok (.cons ⟨hk, r⟩ .nil)
  | cons first rest ih =>
    refine (f.matching compares first.1 hk).bind fun x y same => ?_
    subst same
    cases x with
    | true => exact .ok (.cons ⟨first.1, r⟩ rest)
    | false => exact ih.bind fun _ _ more => .ok (.cons first more)

theorem Follows.put {k k' : Key} (hk : L.Keys k k') {a : α} {b : β} (r : R a b) {t : Table α}
    {u : Table β} (tables : L.Tables R t u) :
    Prolongs (L.Tables R) (t.put equal k a) (u.put equal' k' b) := by
  have entries := f.putMatching compares hk r tables
  rw [← Table.map_entries_put, ← Table.map_entries_put] at entries
  exact entries.of_map fun _ _ related => related

theorem Follows.within {same : α → α → Except Error Bool} {same' : β → β → Except Error Bool}
    (contents : ∀ a a' b b', R a a' → R b b' → Prolongs Eq (same a b) (same' a' b'))
    {t u : Table α} {t' u' : Table β} (ht : L.Tables R t t') (hu : L.Tables R u u') :
    Prolongs Eq (t.within equal same u) (t'.within equal' same' u') :=
  Prolongs.allM (fun e e' related => (f.findMatching compares related.1 hu).bind fun x y found => by
    cases found with
    | none => exact .ok rfl
    | some r => exact contents _ _ _ _ related.2 r) ht

omit f in
theorem Compares.sameItems {vs vs' ws ws' : List Value} (hv : List.Forall₂ L.Alike vs vs')
    (hw : List.Forall₂ L.Alike ws ws') :
    Prolongs Eq (LexEnv.sameItems equal vs ws) (LexEnv.sameItems equal' vs' ws') := by
  induction hv generalizing ws ws' with
  | nil => cases hw <;> exact .ok rfl
  | cons first _ ih => cases hw with
    | nil => exact .ok rfl
    | cons first' rest => exact (compares _ _ _ _ first first').and (ih rest)

end

end Link

/-! ## Equality -/

/-- The kinds of values that are compared by what they hold. -/
inductive Holder where
  | sequence (kind : SequenceKind) | set | dict | func | cls | scope
deriving DecidableEq

/-- The kind of a value, if values of its kind are compared by what they hold. -/
def Value.holder? : Value → Option Holder
  | .sequence kind _ => some (.sequence kind)
  | .set _ _ => some .set
  | .dict _ => some .dict
  | .func _ => some .func
  | .cls _ => some .cls
  | .scope _ => some .scope
  | _ => Option.none

/-- Whether two values are equal that are not compared by what they hold. -/
def Value.plainEqual (v w : Value) : Bool :=
  match v.quantity?, w.quantity? with
  | some q, some r => q.equal r
  | _, _ => v == w

theorem Heap.equalWithin_plain (h : Heap) (steps : Nat) {v w : Value}
    (plain : v.holder? = Option.none ∨ v.holder? ≠ w.holder?) :
    h.equalWithin (steps + 1) v w = .ok (v.plainEqual w) := by
  unfold equalWithin Value.plainEqual
  split
  -- All kinds that are compared by what they hold are those of two values of one kind.
  all_goals try exact (plain.elim nofun fun ne => ne rfl).elim
  generalize v.quantity? = q
  generalize w.quantity? = r
  cases q <;> cases r <;> rfl

namespace Link

variable {L : Link} {h g : Heap}

theorem Alike.holder? {v w : Value} (alike : L.Alike v w) : v.holder? = w.holder? := by
  cases alike <;> rfl

theorem Follows.plainEqual (f : L.Follows h g) {v v' w w' : Value} (hv : L.Alike v v')
    (hw : L.Alike w w') : v.plainEqual w = v'.plainEqual w' := by
  have same : (v == w) = (v' == w') := by
    rw [Bool.eq_iff_iff, beq_iff_eq, beq_iff_eq]
    exact f.identical hv hw
  rw [Value.plainEqual, Value.plainEqual, f.quantity? hv, f.quantity? hw, same]

/-- Names and the values of their slots, as scopes are compared by. -/
theorem Mirrors.namesAndValues (m : L.Mirrors h g) {es fs : List (String × SlotId)}
    (named : List.Forall₂ (Named L.Slots) es fs) : List.Forall₂ L.Alike
      ((es.map fun e => (Value.text e.1, e.2)).flatMap fun e => [e.1, (h.slot e.2).value])
      ((fs.map fun e => (Value.text e.1, e.2)).flatMap fun e => [e.1, (g.slot e.2).value]) := by
  induction named with
  | nil => exact .nil
  | @cons e f es fs first _ ih =>
    obtain ⟨name, s⟩ := e
    obtain ⟨name', t⟩ := f
    obtain ⟨same, slots⟩ := first
    cases same
    exact .cons (.text name) (.cons (m.slot slots).2 ih)

/-- Values that stand for each other are equal with more steps when they are. -/
theorem Follows.equalWithin (f : L.Follows h g) {k l : Nat} (le : k ≤ l) :
    L.Compares (h.equalWithin k) (g.equalWithin l) := by
  have m := f.mirrors
  induction k generalizing l with
  | zero =>
    intro v v' w w' _ _
    rw [Heap.equalWithin]
    exact .endless _
  | succ k ih =>
    obtain ⟨l, rfl⟩ := Nat.exists_eq_add_one.mpr (Nat.lt_of_lt_of_le k.succ_pos le)
    have compares := ih (Nat.le_of_succ_le_succ le)
    intro v v' w w' hv hw
    by_cases plain : v.holder? = none ∨ v.holder? ≠ w.holder?
    · rw [h.equalWithin_plain k plain,
        g.equalWithin_plain l (by rwa [← hv.holder?, ← hw.holder?]), f.plainEqual hv hw]
      exact .ok rfl
    have held : v.holder? = w.holder? := not_not.mp (not_or.mp plain).2
    have same := f.sameBy compares
    cases hv with
    | sequence kind linked => cases hw with
      | sequence kind' linked' =>
        cases held
        have items := m.sequence linked
        have items' := m.sequence linked'
        have compared := same.sameItems items items'
        unfold Heap.equalWithin
        cases kind with
        | list =>
          simp only [items.length_eq, items'.length_eq]
          split
          · exact compared
          · exact .ok rfl
        | tuple => exact compared
      | _ => cases held
    | set kind linked => cases hw with
      | set kind' linked' =>
        have elements := m.set linked
        have elements' := m.set linked'
        unfold Heap.equalWithin
        simp only [elements.size_eq, elements'.size_eq]
        split
        · exact f.within compares (fun _ _ _ _ _ _ => .ok rfl) elements elements'
        · exact .ok rfl
      | _ => cases held
    | dict linked => cases hw with
      | dict linked' =>
        have entries := m.dict linked
        have entries' := m.dict linked'
        unfold Heap.equalWithin
        simp only [entries.size_eq, entries'.size_eq]
        split
        · exact f.within compares same entries entries'
        · exact .ok rfl
      | _ => cases held
    | func name native serials => cases hw with
      | func => exact .ok rfl
      | _ => cases held
    | cls name template serials => cases hw with
      | cls => exact .ok rfl
      | _ => cases held
    | scope linked => cases hw with
      | scope linked' =>
        obtain ⟨es, es', hes, hes', left⟩ :=
          (m.scope linked).2.ascending (m.scope linked).1 (h.lessWithin k) (g.lessWithin l)
        obtain ⟨fs, fs', hfs, hfs', right⟩ :=
          (m.scope linked').2.ascending (m.scope linked').1 (h.lessWithin k) (g.lessWithin l)
        unfold Heap.equalWithin
        simp only [hes, hes', hfs, hfs', bind, Except.bind]
        exact same.sameItems (m.namesAndValues left) (m.namesAndValues right)
      | _ => cases held
    | _ => exact absurd (.inl rfl) plain

theorem Follows.reach (f : L.Follows h g) : h.reach ≤ g.reach :=
  Nat.mul_le_mul (Nat.add_le_add_right f.size 2) (Nat.add_le_add_right f.size 2)

/-- Values that stand for each other are equal in both heaps or in neither, unless they cannot be
compared in the smaller one. -/
theorem Follows.equal (f : L.Follows h g) : L.Compares h.equal g.equal := f.equalWithin f.reach

end Link

end LexEnv
