import LexEnv.Proofs.LibraryCall

/-!
# Rejected calls of the library

What a call of a library function or class leaves behind when it fails. The functions read their
arguments before they do anything else, so one that fails itself has changed nothing but the
arguments that it read. Arguments that are left over are reported when the function is done, though,
and what it did then stays done: `print` has added its line, and setting the defaults for records has
put the named arguments over them.

Main statement: `rejected_library_call`.
-/

namespace LexEnv

open LexEnv.Action

/-! ## What a setting stores -/

/-- How named values are put into what stands under the name of records in a style map: over the
defaults, which are a new dictionary if there are none, or as names into a set. -/
inductive Heap.Stores (h : Heap) (d : DictId) (named : List (String × Value)) (h' : Heap) : Prop where
  | defaults (adds : h.AddsDefaults d "record" named h')
  | names {c : SetId} (there : (h.dict d).get? "record" = some (.set .changing c))
      (confined : h.Confined (· = .set c) h')
      (content : h.Has (.set c) →
        h'.set c = (h.set c).insertAll (named.map fun (name, _) => (name, ())))

/-- An update does not succeed with a function that fails at once. -/
theorem SlotId.run_update_fail_ne_ok (t : SlotId) (e : Error) (st : State) (v : Value) :
    ((t.update fun _ => fail e).run st).1 ≠ .ok v := by
  cases hk : (st.heap.slot t).kind with
  | mutable =>
    rw [run_update_mutable hk]
    intro same
    cases same
  | constant =>
    rw [run_update_constant hk]
    intro same
    cases same
  | bare =>
    rw [run_update_bare hk]
    intro same
    cases same

namespace ContextId

variable {c : ContextId} {st middle : State} {named : List (String × Value)}

/-- A style map that named values were put into is a dictionary, and stores them. -/
theorem stores_of_added (added : (c.addDefaults "record" named).run st = (.ok (), middle)) :
    ∃ d, st.heap.styleMap? c = some d ∧
      (st.heap.Has (.dict d) → st.heap.Stores d named middle.heap) := by
  have start : (c.addDefaults "record" named).run st =
      ((st.heap.context c).styles.entryOrNew "record" >>= (·.absorb named)).run st := by
    rw [addDefaults, view, run_read_bind]
  rw [start] at added
  cases styles : (st.heap.context c).styles with
  | dict d =>
    refine ⟨d, Heap.styleMap?_eq_some_iff.mpr styles, fun there => ?_⟩
    by_cases entry : ∀ v, (st.heap.dict d).get? "record" = some v → ∃ r, v = .dict r
    · obtain ⟨h, ran, adds⟩ :=
        addDefaults_adds (Heap.styleMap?_eq_some_iff.mpr styles) there entry named
      rw [start, added] at ran
      cases ran
      exact .defaults adds
    · obtain ⟨v, found, other⟩ :
          ∃ v, (st.heap.dict d).get? "record" = some v ∧ ¬∃ r, v = .dict r := by
        simpa only [not_forall, exists_prop] using entry
      rw [styles, Value.entryOrNew, bind_assoc, run_read_bind, found] at added
      -- Of all other values only a set takes the names.
      change (v.absorb named).run st = (.ok (), middle) at added
      unfold Value.absorb at added
      split at added
      · next r => exact absurd ⟨r, rfl⟩ other
      · next s =>
        cases added
        exact .names found (.of_changes (st.heap.changes_setSet s _) rfl) fun exist =>
          Cell.set.inj (Heap.cell_setSet exist _)
      · next t =>
        rw [run_bind] at added
        rcases updated : (t.update fun _ => fail (.typing (.notCallable "dict"))).run st with
          ⟨_ | w, st'⟩
        · rw [updated] at added
          cases added
        · exact absurd (congrArg Prod.fst updated) (t.run_update_fail_ne_ok _ st w)
      · cases added
  | _ =>
    rw [styles] at added
    cases added

end ContextId

/-! ## Calls that fail -/

namespace LibraryCall

/-- What a call that fails with some error leaves behind. -/
structure Rejected (x : LibraryCall) (e : Error) : Prop where
  /-- Nothing but arguments has changed, unless a printing or a setting fails for what is left
  over. -/
  unchanged : ¬(x.LeftOver e ∧ (x.Printing ∨ x.Setting)) →
    x.before.heap.Confined (· = .arguments x.args) x.after.heap
  /-- Such a printing has added the line that its arguments print. -/
  printed : x.LeftOver e → x.Printing → ∃ lines line, x.PrintingTo lines ∧
    x.before.heap.Prints x.args line ∧
    x.before.heap.Confined (fun o => o = .arguments x.args ∨ o = .sequence lines) x.after.heap ∧
    (x.before.heap.Has (.sequence lines) →
      x.after.heap.sequence lines = x.before.heap.sequence lines ++ [line])
  /-- Such a setting has stored the named arguments in the style map. -/
  stored : x.LeftOver e → x.Setting → ∃ d h, x.before.heap.styleMap? x.context = some d ∧
    (x.before.heap.Has (.dict d) → x.before.heap.Stores d (x.before.heap.args x.args).named h) ∧
    h.Confined (· = .arguments x.args) x.after.heap

variable {x : LibraryCall} {e : Error}

/-- A printing is no setting. -/
theorem Printing.not_setting (printing : x.Printing) : ¬x.Setting := by
  rintro ⟨use, -⟩
  have both := printing.1.symm.trans use
  cases both

theorem Course.rejected (course : x.Course) (failed : x.outcome = .error e) : x.Rejected e := by
  cases course with
  | reads confined fails =>
    -- The error of a printing or a setting is not of the script, so nothing was left over.
    have own : x.Printing ∨ x.Setting → ¬x.LeftOver e := by
      rintro either ⟨fault, -, rfl⟩
      obtain ⟨e, error, unscripted⟩ := fails either
      exact unscripted fault (Except.error.inj (error.symm.trans failed))
    exact ⟨fun _ => confined, fun left printing => absurd left (own (.inl printing)),
      fun left setting => absurd left (own (.inr setting))⟩
  | prints printing prints confined added left =>
    refine ⟨fun other => ?_, fun _ _ => ⟨_, _, printing, prints, confined, added⟩,
      fun _ setting => absurd setting printing.1.not_setting⟩
    exact absurd ⟨left e failed, .inl printing.1⟩ other
  | sets setting added confined left =>
    refine ⟨fun other => ?_, fun _ printing => absurd setting printing.not_setting, fun _ _ => ?_⟩
    · exact absurd ⟨left e failed, .inr setting⟩ other
    · obtain ⟨d, styles, stores⟩ := ContextId.stores_of_added added
      exact ⟨d, _, styles, stores, confined⟩

end LibraryCall

/-- Everything that a new library binds is standard. A call of a standard function or class that fails
has changed nothing but the arguments that it read, unless it had done its work and arguments were
left over. In that case, too, nothing else has changed but in two kinds of calls: a printing has added
its one line to the output, and a setting has stored the named arguments in the style map. -/
theorem rejected_library_call :
    (∀ st : State, ∃ c st', ScopeId.newLibrary.run st = (.ok c, st') ∧ st'.heap.BindsStandard c) ∧
    ∀ {x : LibraryCall} {e : Error}, x.target.isStandard = true →
      x.before.heap.Has (.arguments x.args) → x.outcome = .error e → x.Rejected e :=
  ⟨ScopeId.newLibrary_standard, fun {x} _ standard args => (x.course standard args).rejected⟩

/-- A call of `print` with an argument that nobody expects fails, and its line is in the output. -/
theorem rejected_print_adds_line :
    (libraryValue "print").isStandard = true ∧
    (overNewLibrary.heap.context ⟨0⟩).output = .sequence .list ⟨0⟩ ∧
    ((invoke .call (libraryValue "print") ⟨0⟩ ⟨0⟩).run overNewLibrary).1 =
      .error (.eval (.unexpectedNamed "extra")) ∧
    overNewLibrary.heap.sequence ⟨0⟩ = [] ∧
    ((invoke .call (libraryValue "print") ⟨0⟩ ⟨0⟩).run overNewLibrary).2.heap.sequence ⟨0⟩ =
      [.text "x"] := by
  decide +kernel

/-- A setting that leaves a text over has stored its named argument, and a printing that leaves a name
over has printed its text. -/
theorem rejected_library_call_leftover :
    ∃ x y : LibraryCall,
      x = ⟨.set, libraryValue "record", ⟨0⟩, ⟨0⟩, overNewLibrary⟩ ∧
      y = ⟨.call, libraryValue "print", ⟨0⟩, ⟨0⟩, overNewLibrary⟩ ∧
      x.outcome = .error (.eval .unexpectedPositional) ∧
      (∃ h, overNewLibrary.heap.Stores ⟨0⟩ [("extra", .int 1)] h ∧
        h.Confined (· = .arguments ⟨0⟩) x.after.heap) ∧
      y.outcome = .error (.eval (.unexpectedNamed "extra")) ∧
      ∃ line, y.PrintingTo ⟨0⟩ ∧ overNewLibrary.heap.Prints ⟨0⟩ line ∧
        y.after.heap.sequence ⟨0⟩ = [line] := by
  obtain ⟨-, rejected⟩ := rejected_library_call
  obtain ⟨st, hst⟩ : ∃ st, st = overNewLibrary := ⟨_, rfl⟩
  obtain ⟨record, hrecord⟩ : ∃ v, v = libraryValue "record" := ⟨_, rfl⟩
  obtain ⟨print, hprint⟩ : ∃ v, v = libraryValue "print" := ⟨_, rfl⟩
  rw [← hst, ← hrecord, ← hprint]
  have given : st.heap.Has (.arguments ⟨0⟩) ∧ st.heap.styleMap? ⟨0⟩ = some ⟨0⟩ ∧
      st.heap.Has (.dict ⟨0⟩) ∧ (st.heap.args ⟨0⟩).named = [("extra", .int 1)] ∧
      (st.heap.context ⟨0⟩).output = .sequence .list ⟨0⟩ ∧ st.heap.Has (.sequence ⟨0⟩) ∧
      st.heap.sequence ⟨0⟩ = [] := by
    rw [hst]
    decide +kernel
  have values : record = .cls ⟨"record", .record, 9⟩ ∧ print = .func ⟨"print", .builtin .print, 7⟩ := by
    rw [hrecord, hprint]
    decide +kernel
  let x : LibraryCall := ⟨.set, record, ⟨0⟩, ⟨0⟩, st⟩
  let y : LibraryCall := ⟨.call, print, ⟨0⟩, ⟨0⟩, st⟩
  have setting : record.isStandard = true ∧ x.outcome = .error (.eval .unexpectedPositional) ∧
      (x.after.heap.args ⟨0⟩).leftover? = some .unexpectedPositional := by
    show _ ∧ LibraryCall.outcome ⟨_, _, _, _, _⟩ = _ ∧
      ((LibraryCall.after ⟨_, _, _, _, _⟩).heap.args _).leftover? = _
    rw [hrecord, hst]
    decide +kernel
  have printing : print.isStandard = true ∧ y.outcome = .error (.eval (.unexpectedNamed "extra")) ∧
      (y.after.heap.args ⟨0⟩).leftover? = some (.unexpectedNamed "extra") := by
    show _ ∧ LibraryCall.outcome ⟨_, _, _, _, _⟩ = _ ∧
      ((LibraryCall.after ⟨_, _, _, _, _⟩).heap.args _).leftover? = _
    rw [hprint, hst]
    decide +kernel
  have stores := (rejected (x := x) setting.1 given.1 setting.2.1).stored
    ⟨_, setting.2.2, rfl⟩ ⟨rfl, "record", 9, values.1⟩
  have prints := (rejected (x := y) printing.1 given.1 printing.2.1).printed
    ⟨_, printing.2.2, rfl⟩ ⟨rfl, "print", 7, values.2⟩
  obtain ⟨d, h, styles, stores, read⟩ := stores
  obtain rfl : d = ⟨0⟩ := Option.some.inj (styles.symm.trans given.2.1)
  obtain ⟨lines, line, onto, prints, -, added⟩ := prints
  obtain ⟨rfl⟩ : lines = ⟨0⟩ := by
    have same := onto.2.symm.trans given.2.2.2.2.1
    cases same
    rfl
  refine ⟨x, y, rfl, rfl, setting.2.1, ⟨h, ?_, read⟩, printing.2.1, line, onto, prints, ?_⟩
  · rw [← given.2.2.2.1]
    exact stores given.2.2.1
  · rw [added given.2.2.2.2.2.1]
    show st.heap.sequence ⟨0⟩ ++ [line] = [line]
    rw [given.2.2.2.2.2.2, List.nil_append]

end LexEnv
