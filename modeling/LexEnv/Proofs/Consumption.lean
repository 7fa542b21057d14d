import LexEnv.Proofs.Footprint
import LexEnv.Proofs.Steps

/-!
# Arguments are delivered once

What becomes of the arguments of a call while a native reads them. A native is any program here: it
may read positional and named arguments in any order, catch its failures, hand its arguments to
another function, and stop anywhere. `Arguments.Accounted` is the account of a call after some steps:
the positional arguments delivered so far and those that remain make up those that were given, in
order; the named arguments that remain are those that were not asked for, in order; and no named
argument is delivered twice. One step keeps the account (`Step.accounted`), so a run does
(`Steps.Chain.accounted`).

When the native is over, whoever called it looks at what remains. Main statement: the call ends with
the result of the native exactly when everything was read, and otherwise reports a positional
argument first and then the first named one (`Program.finishing_accounts_for_arguments`).
-/

namespace LexEnv

open LexEnv.Action LexEnv.Steps

/-! ## Reading arguments -/

namespace ArgumentsId

variable {a : ArgumentsId} {st : State}

theorem args_setArguments {h : Heap} (there : h.Has (.arguments a)) (x : Arguments) :
    (h.setArguments a x).args a = x := Cell.arguments.inj (Heap.cell_setArguments there x)

/-- The arguments of a new call exist, and their names are distinct. -/
theorem created (positional : List Value) (named : List (String × Value)) (st : State) :
    ∃ st', (create positional named).run st = (.ok ⟨st.heap.arguments.size⟩, st') ∧
      st'.heap.Has (.arguments ⟨st.heap.arguments.size⟩) ∧
      (Entries.keys (st'.heap.args ⟨st.heap.arguments.size⟩).named).Nodup := by
  have content := Cell.arguments.inj (st.heap.cell_addArguments ⟨positional, Entries.ofList named⟩)
  refine ⟨{ st with heap := (st.heap.addArguments ⟨positional, Entries.ofList named⟩).2 }, rfl,
    ((st.heap.adds_addArguments _).has _).mpr (.inr rfl), ?_⟩
  rw [content]
  exact Entries.nodup_keys_merge named List.nodup_nil

theorem run_eat_nil (empty : (st.heap.args a).positional = []) : a.eat.run st = (.ok .none, st) := by
  rw [eat, view, run_read_bind, Arguments.eat?, empty]
  rfl

theorem run_eat_cons {v : Value} {vs : List Value} (next : (st.heap.args a).positional = v :: vs) :
    a.eat.run st = (.ok v, { st with
      heap := st.heap.setArguments a { st.heap.args a with positional := vs } }) := by
  rw [eat, view, run_read_bind, Arguments.eat?, next]
  rfl

theorem run_expect_nil (empty : (st.heap.args a).positional = []) (what : String) :
    (a.expect what).run st = (.error (.eval (.missingArgument what)), st) := by
  rw [expect, view, run_read_bind, Arguments.eat?, empty]
  rfl

theorem run_expect_cons {v : Value} {vs : List Value} (next : (st.heap.args a).positional = v :: vs)
    (what : String) :
    (a.expect what).run st = (.ok v, { st with
      heap := st.heap.setArguments a { st.heap.args a with positional := vs } }) := by
  rw [expect, view, run_read_bind, Arguments.eat?, next]
  rfl

theorem run_named (a : ArgumentsId) (name : String) (default : Value) (st : State) :
    (a.named name default).run st =
      (.ok ((Entries.find? name (st.heap.args a).named).getD default), { st with
        heap := st.heap.setArguments a
          { st.heap.args a with named := Entries.erase name (st.heap.args a).named } }) := rfl

theorem run_takeAllNamed (a : ArgumentsId) (st : State) :
    a.takeAllNamed.run st = (.ok (st.heap.args a).named, { st with
      heap := st.heap.setArguments a { st.heap.args a with named := [] } }) := rfl

theorem run_takeAllPositional (a : ArgumentsId) (st : State) :
    a.takeAllPositional.run st = (.ok (st.heap.args a).positional, { st with
      heap := st.heap.setArguments a { st.heap.args a with positional := [] } }) := rfl

theorem run_finish (a : ArgumentsId) (st : State) :
    a.finish.run st =
      match (st.heap.args a).leftover? with
      | some fault => (.error (.eval fault), st)
      | none => (.ok (), st) := by
  rw [finish, view, run_read_bind]
  cases (st.heap.args a).leftover? <;> rfl

end ArgumentsId

/-! ## What a step reads -/

/-- The arguments that a command reads from. -/
def Command.readFrom : {α : Type} → Command α → Option ArgumentsId
  | _, .eat a => some a
  | _, .expect a _ => some a
  | _, .named a _ _ => some a
  | _, .takeAllPositional a => some a
  | _, .takeAllNamed a => some a
  | _, _ => none

/-- Nothing but reading from arguments changes them. -/
theorem Command.footprint_arguments {α : Type} (c : Command α) (a : ArgumentsId) :
    c.footprint (.arguments a) ↔ c.readFrom = some a := by
  cases c <;>
    simp [footprint, readFrom, StackId.AnyScope, StackId.AnySlot, Value.Absorbing, eq_comm]

namespace Step

/-- The positional arguments that a step delivers. What is answered in place of an argument that is
not there is none of them. -/
def delivered (a : ArgumentsId) : Step → List Value
  | ⟨.eat b, st⟩ =>
    if b = a ∧ (st.heap.args a).positional ≠ [] then (b.eat.run st).1.toOption.toList else []
  | ⟨.expect b what, st⟩ => if b = a then ((b.expect what).run st).1.toOption.toList else []
  | ⟨.takeAllPositional b, st⟩ =>
    if b = a then (b.takeAllPositional.run st).1.toOption.getD [] else []
  | _ => []

/-- The names of the arguments that a step asks for. -/
def asked (a : ArgumentsId) : Step → List String
  | ⟨.named b name _, _⟩ => if b = a then [name] else []
  | ⟨.takeAllNamed b, st⟩ =>
    if b = a then Entries.keys ((b.takeAllNamed.run st).1.toOption.getD []) else []
  | _ => []

/-- The named arguments that a step delivers, with their names. A default is none of them. -/
def deliveredNamed (a : ArgumentsId) : Step → List (String × Value)
  | ⟨.named b name default, st⟩ =>
    if b = a ∧ name ∈ Entries.keys (st.heap.args a).named then
      ((b.named name default).run st).1.toOption.toList.map fun v => (name, v)
    else []
  | ⟨.takeAllNamed b, st⟩ => if b = a then (b.takeAllNamed.run st).1.toOption.getD [] else []
  | _ => []

end Step

/-! ## Accounts -/

namespace Arguments

/-- The account of a call: what was given, what some steps delivered of it, and what is left. -/
structure Accounted (a : ArgumentsId) (given : Arguments) (past : List Step) (left : Arguments) :
    Prop where
  /-- What was delivered and what remains are what was given, in order. -/
  positional : past.flatMap (·.delivered a) ++ left.positional = given.positional
  /-- What remains under names are the arguments that were not asked for, in order. -/
  named : left.named = given.named.filter fun e => e.1 ∉ past.flatMap (·.asked a)
  /-- No named argument is delivered twice, or delivered and left. -/
  once : (past.flatMap (·.deliveredNamed a) ++ left.named).Perm given.named

variable {a : ArgumentsId} {given middle left : Arguments} {past later : List Step}

theorem Accounted.refl (a : ArgumentsId) (given : Arguments) : Accounted a given [] given where
  positional := rfl
  named := (List.filter_eq_self.mpr fun _ _ => by simp).symm
  once := .refl _

theorem Accounted.append (first : Accounted a given past middle)
    (second : Accounted a middle later left) : Accounted a given (past ++ later) left where
  positional := by
    rw [List.flatMap_append, List.append_assoc, second.positional, first.positional]
  named := by
    rw [second.named, first.named, List.filter_filter, List.flatMap_append]
    refine List.filter_congr fun e _ => ?_
    simp only [List.mem_append, not_or, Bool.decide_and, Bool.and_comm]
  once := by
    rw [List.flatMap_append, List.append_assoc]
    exact (second.once.append_left _).trans first.once

/-- Names that are distinct stay so. -/
theorem Accounted.distinct (account : Accounted a given past left)
    (distinct : (Entries.keys given.named).Nodup) : (Entries.keys left.named).Nodup := by
  rw [account.named]
  exact distinct.sublist ((List.filter_sublist).map _)

/-- A step that delivers nothing and asks for nothing leaves what there was. -/
theorem accounted_idle {s : Step} (delivered : s.delivered a = []) (asked : s.asked a = [])
    (deliveredNamed : s.deliveredNamed a = []) : Accounted a given [s] given where
  positional := by simp [delivered]
  named := (List.filter_eq_self.mpr fun _ _ => by simp [asked]).symm
  once := by simp [deliveredNamed]

/-- A step that delivers positional arguments only. -/
theorem accounted_positional {s : Step} {vs : List Value} (asked : s.asked a = [])
    (deliveredNamed : s.deliveredNamed a = []) (taken : s.delivered a ++ vs = given.positional) :
    Accounted a given [s] { given with positional := vs } where
  positional := by simpa using taken
  named := (List.filter_eq_self.mpr fun _ _ => by simp [asked]).symm
  once := by simp [deliveredNamed]

/-- There is nothing to erase under a name without an entry. -/
theorem erase_of_not_mem {name : String} {es : List (String × Value)}
    (absent : name ∉ Entries.keys es) : Entries.erase name es = es := by
  refine List.filter_eq_self.mpr fun e mem => ?_
  have ne : e.1 ≠ name := by
    rintro rfl
    have present : e.1 ∈ Entries.keys es := List.mem_map_of_mem mem
    exact absent present
  exact decide_eq_true ne

/-- With distinct names, an entry that is found and those of other names are all entries. -/
theorem perm_cons_erase {name : String} {v : Value} {es : List (String × Value)}
    (distinct : (Entries.keys es).Nodup) (found : Entries.find? name es = some v) :
    ((name, v) :: Entries.erase name es).Perm es := by
  induction es with
  | nil => cases found
  | cons e es ih =>
    obtain ⟨k, w⟩ := e
    obtain ⟨new, distinct⟩ := List.nodup_cons.mp distinct
    by_cases same : k = name
    · subst same
      simp only [Entries.find?, if_true, Option.some.injEq] at found
      subst found
      have others : Entries.erase k es = es := erase_of_not_mem new
      simp only [Entries.erase, ne_eq, decide_not, List.filter_cons, decide_true, Bool.not_true,
        Bool.false_eq_true, if_false] at others ⊢
      rw [others]
    · simp only [Entries.find?, same, if_false] at found
      have rest := ih distinct found
      have kept : Entries.erase name ((k, w) :: es) = (k, w) :: Entries.erase name es := by
        simp [Entries.erase, same]
      rw [kept]
      exact (List.Perm.swap (k, w) (name, v) _).trans (rest.cons (k, w))

theorem exists_find?_of_mem {name : String} {es : List (String × Value)}
    (present : name ∈ Entries.keys es) : ∃ v, Entries.find? name es = some v := by
  induction es with
  | nil => cases present
  | cons e es ih =>
    obtain ⟨k, w⟩ := e
    by_cases same : k = name
    · exact ⟨w, by simp [Entries.find?, same]⟩
    · obtain ⟨v, found⟩ := ih ((List.mem_cons.mp present).resolve_left fun eq => same eq.symm)
      exact ⟨v, by simp [Entries.find?, same, found]⟩

end Arguments

open LexEnv.Arguments

/-! ## One step keeps the account -/

namespace Step

variable {a : ArgumentsId}

/-- What reads from other arguments, or from none, leaves these as they are. -/
theorem args_of_other (s : Step) (there : s.before.heap.Has (.arguments a))
    (other : s.command.readFrom ≠ some a) : s.after.heap.args a = s.before.heap.args a :=
  Cell.arguments.inj ((s.command.confined s.before).cell _ there fun inside =>
    other ((s.command.footprint_arguments a).mp inside))

theorem delivered_of_other {s : Step} (other : s.command.readFrom ≠ some a) :
    s.delivered a = [] ∧ s.asked a = [] ∧ s.deliveredNamed a = [] := by
  obtain ⟨c, st⟩ := s
  cases c with
  | eat b => simp_all [Command.readFrom, delivered, asked, deliveredNamed]
  | expect b what => simp_all [Command.readFrom, delivered, asked, deliveredNamed]
  | named b name default => simp_all [Command.readFrom, delivered, asked, deliveredNamed]
  | takeAllPositional b => simp_all [Command.readFrom, delivered, asked, deliveredNamed]
  | takeAllNamed b => simp_all [Command.readFrom, delivered, asked, deliveredNamed]
  | _ => exact ⟨rfl, rfl, rfl⟩

theorem accounted_eat {st : State} (there : st.heap.Has (.arguments a)) :
    Accounted a (st.heap.args a) [⟨.eat a, st⟩] ((⟨.eat a, st⟩ : Step).after.heap.args a) := by
  cases unread : (st.heap.args a).positional with
  | nil =>
    have same : (⟨.eat a, st⟩ : Step).after = st := congrArg Prod.snd (ArgumentsId.run_eat_nil unread)
    rw [same]
    exact accounted_idle (by simp [delivered, unread]) rfl rfl
  | cons v vs =>
    have run := ArgumentsId.run_eat_cons unread
    have left : (⟨.eat a, st⟩ : Step).after.heap.args a =
        { st.heap.args a with positional := vs } := by
      rw [after, Command.run, run]
      exact ArgumentsId.args_setArguments there _
    rw [left]
    refine accounted_positional rfl rfl ?_
    simp [delivered, unread, run, Except.toOption]

theorem accounted_expect {st : State} (there : st.heap.Has (.arguments a)) (what : String) :
    Accounted a (st.heap.args a) [⟨.expect a what, st⟩]
      ((⟨.expect a what, st⟩ : Step).after.heap.args a) := by
  cases unread : (st.heap.args a).positional with
  | nil =>
    have run := ArgumentsId.run_expect_nil unread what
    have same : (⟨.expect a what, st⟩ : Step).after = st := congrArg Prod.snd run
    rw [same]
    exact accounted_idle (by simp [delivered, run, Except.toOption]) rfl rfl
  | cons v vs =>
    have run := ArgumentsId.run_expect_cons unread what
    have left : (⟨.expect a what, st⟩ : Step).after.heap.args a =
        { st.heap.args a with positional := vs } := by
      rw [after, Command.run, run]
      exact ArgumentsId.args_setArguments there _
    rw [left]
    refine accounted_positional rfl rfl ?_
    simp [delivered, unread, run, Except.toOption]

theorem accounted_takeAllPositional {st : State} (there : st.heap.Has (.arguments a)) :
    Accounted a (st.heap.args a) [⟨.takeAllPositional a, st⟩]
      ((⟨.takeAllPositional a, st⟩ : Step).after.heap.args a) := by
  have left : (⟨.takeAllPositional a, st⟩ : Step).after.heap.args a =
      { st.heap.args a with positional := [] } := ArgumentsId.args_setArguments there _
  rw [left]
  refine accounted_positional rfl rfl ?_
  simp [delivered, ArgumentsId.run_takeAllPositional, Except.toOption]

theorem accounted_named {st : State} (there : st.heap.Has (.arguments a))
    (distinct : (Entries.keys (st.heap.args a).named).Nodup) (name : String) (default : Value) :
    Accounted a (st.heap.args a) [⟨.named a name default, st⟩]
      ((⟨.named a name default, st⟩ : Step).after.heap.args a) := by
  have left : (⟨.named a name default, st⟩ : Step).after.heap.args a =
      { st.heap.args a with named := Entries.erase name (st.heap.args a).named } :=
    ArgumentsId.args_setArguments there _
  rw [left]
  refine ⟨rfl, ?_, ?_⟩
  · simp [asked, Entries.erase]
  · by_cases present : name ∈ Entries.keys (st.heap.args a).named
    · obtain ⟨v, found⟩ := exists_find?_of_mem present
      have delivers : (⟨.named a name default, st⟩ : Step).deliveredNamed a = [(name, v)] := by
        simp [deliveredNamed, present, ArgumentsId.run_named, found, Except.toOption]
      simpa [delivers] using perm_cons_erase distinct found
    · have delivers : (⟨.named a name default, st⟩ : Step).deliveredNamed a = [] := by
        simp [deliveredNamed, present]
      simp [delivers, erase_of_not_mem present]

theorem accounted_takeAllNamed {st : State} (there : st.heap.Has (.arguments a)) :
    Accounted a (st.heap.args a) [⟨.takeAllNamed a, st⟩]
      ((⟨.takeAllNamed a, st⟩ : Step).after.heap.args a) := by
  have left : (⟨.takeAllNamed a, st⟩ : Step).after.heap.args a =
      { st.heap.args a with named := [] } := ArgumentsId.args_setArguments there _
  rw [left]
  refine ⟨rfl, ?_, ?_⟩
  · have names : (⟨.takeAllNamed a, st⟩ : Step).asked a = Entries.keys (st.heap.args a).named := by
      simp [asked, ArgumentsId.run_takeAllNamed, Except.toOption]
    symm
    refine List.filter_eq_nil_iff.mpr fun e mem => ?_
    have read : e.1 ∈ Entries.keys (st.heap.args a).named :=
      List.mem_map_of_mem mem
    simpa [names] using read
  · simp [deliveredNamed, ArgumentsId.run_takeAllNamed, Except.toOption]

/-- Every step keeps the account. -/
theorem accounted (s : Step) (there : s.before.heap.Has (.arguments a))
    (distinct : (Entries.keys (s.before.heap.args a).named).Nodup) :
    Accounted a (s.before.heap.args a) [s] (s.after.heap.args a) := by
  by_cases reads : s.command.readFrom = some a
  · obtain ⟨c, st⟩ := s
    cases c with
    | eat b =>
      cases reads
      exact accounted_eat there
    | expect b what =>
      cases reads
      exact accounted_expect there what
    | named b name default =>
      cases reads
      exact accounted_named there distinct name default
    | takeAllPositional b =>
      cases reads
      exact accounted_takeAllPositional there
    | takeAllNamed b =>
      cases reads
      exact accounted_takeAllNamed there
    | _ => cases reads
  · obtain ⟨delivered, asked, deliveredNamed⟩ := delivered_of_other reads
    rw [s.args_of_other there reads]
    exact accounted_idle delivered asked deliveredNamed

end Step

/-- Any steps keep the account. -/
theorem Steps.Chain.accounted {a : ArgumentsId} {h h' : Heap} {ss : List Step}
    (chain : Chain h ss h') (there : h.Has (.arguments a))
    (distinct : (Entries.keys (h.args a).named).Nodup) :
    Accounted a (h.args a) ss (h'.args a) := by
  induction ss generalizing h with
  | nil =>
    rw [chain_nil.mp chain]
    exact .refl a (h.args a)
  | cons s ss ih =>
    obtain ⟨rfl, rest⟩ := chain
    have first := s.accounted there distinct
    have still := (s.command.confined s.before).has _ there
    exact first.append (ih rest still (first.distinct distinct))

/-! ## The verdict of a call -/

namespace Program

/-- How a call ends whose body ended that way: as the body failed, or else as what is left unread
decides. -/
def judged (a : ArgumentsId) : Except Error Value × State → Except Error Value × State
  | (.error e, st) => (.error e, st)
  | (.ok v, st) =>
    match (st.heap.args a).leftover? with
    | some fault => (.error (.eval fault), st)
    | none => (.ok v, st)

theorem run_finishing (invoke : Invocation) (body : Program Value) (a : ArgumentsId) (st : State) :
    (body.finishing invoke a).run st = judged a ((body.run invoke).run st) := by
  rw [finishing, run_bind]
  rcases (body.run invoke).run st with ⟨_ | v, st'⟩
  · rfl
  · simp only [judged]
    rw [run_bind, ArgumentsId.run_finish]
    cases (st'.heap.args a).leftover? <;> rfl

/-- What has a body for a use runs it and reports what it left of its arguments. -/
theorem exists_run_invoke {use : Use} {target : Value}
    {body : ContextId → ArgumentsId → Program Value} (is : target.body? use = some body)
    (context : ContextId) (a : ArgumentsId) (st : State) :
    ∃ nesting, (LexEnv.invoke use target context a).run st =
      judged a (((body context a).run (invokeWithin nesting)).run st) := by
  obtain ⟨n, bound⟩ : ∃ n, st.heap.nestingBound context a = n + 1 := ⟨_, rfl⟩
  refine ⟨n, ?_⟩
  show (invokeWithin (st.heap.nestingBound context a) use target context a).run st = _
  rw [bound]
  simp only [invokeWithin, is]
  exact run_finishing _ _ _ _

/-- Whatever program reads the arguments of a call: at every moment what it was delivered and what
remains make up what was given, reading where nothing remains changes nothing, and the call ends with
the result of the program exactly when all was read. Otherwise it fails as the program did, or
reports a positional argument, or else the first named one that was not asked for. Calling a
function, constructing an object and setting defaults are such calls, each of the program that the
function or the class of the object has for it. -/
theorem finishing_accounts_for_arguments (body : Program Value) (nesting : Nat) (a : ArgumentsId)
    (st : State) (there : st.heap.Has (.arguments a))
    (distinct : (Entries.keys (st.heap.args a).named).Nodup) :
    let given := st.heap.args a
    let steps := body.stepsBy (invokeWithin nesting) (stepsWithin nesting) st
    let ended := (body.run (invokeWithin nesting)).run st
    let verdict := (body.finishing (invokeWithin nesting) a).run st
    let delivered := steps.flatMap (·.delivered a)
    let unread := given.named.filter fun e => e.1 ∉ steps.flatMap (·.asked a)
    (∀ past rest, steps = past ++ rest → ∃ h, Chain st.heap past h ∧
      Chain h rest ended.2.heap ∧ Accounted a given past (h.args a)) ∧
    (∀ st' : State, (st'.heap.args a).positional = [] →
      a.eat.run st' = (.ok .none, st') ∧
      ∀ what, (a.expect what).run st' = (.error (.eval (.missingArgument what)), st')) ∧
    (∀ v, verdict.1 = .ok v ↔
      ended.1 = .ok v ∧ delivered = given.positional ∧ unread = []) ∧
    (∀ e, ended.1 = .error e → verdict = (.error e, ended.2)) ∧
    (∀ v, ended.1 = .ok v → delivered ≠ given.positional →
      verdict = (.error (.eval .unexpectedPositional), ended.2) ∧
      EvalFault.unexpectedPositional.message = .text "unexpected argument") ∧
    (∀ v name w others, ended.1 = .ok v → delivered = given.positional →
      unread = (name, w) :: others →
      verdict = (.error (.eval (.unexpectedNamed name)), ended.2) ∧
      (EvalFault.unexpectedNamed name).message = .text s!"unexpected argument: {name}") ∧
    (∀ (f : Func) (context : ContextId), ∃ nesting,
      (LexEnv.invoke .call (.func f) context a).run st =
        ((f.native.program context a).finishing (invokeWithin nesting) a).run st) ∧
    (∀ (c : Class) (context : ContextId), ∃ nesting,
      (LexEnv.invoke .construct (.cls c) context a).run st =
        ((c.template.construct context a).finishing (invokeWithin nesting) a).run st) ∧
    (∀ (c : Class) (context : ContextId), ∃ nesting,
      (LexEnv.invoke .set (.cls c) context a).run st =
        ((c.template.set context a).finishing (invokeWithin nesting) a).run st) := by
  intro given steps ended verdict delivered unread
  have chain : Chain st.heap steps ended.2.heap :=
    body.chainBy (chain_invokeWithin nesting) st
  have account := chain.accounted there distinct
  -- What is left is told by the account, and the verdict by what is left.
  have positional : delivered = given.positional ↔ (ended.2.heap.args a).positional = [] := by
    rw [← account.positional]
    exact List.self_eq_append_right
  have named : (ended.2.heap.args a).named = unread := account.named
  have judgement : verdict = judged a ended := run_finishing _ body a st
  have invoked : ∀ {use target} {program : ContextId → ArgumentsId → Program Value},
      target.body? use = some program → ∀ context, ∃ nesting,
        (LexEnv.invoke use target context a).run st =
          ((program context a).finishing (invokeWithin nesting) a).run st := by
    intro use target program is context
    obtain ⟨nesting, ran⟩ := exists_run_invoke is context a st
    exact ⟨nesting, ran.trans (run_finishing _ _ _ _).symm⟩
  rw [← named]
  refine ⟨?_, ?_, ?_, ?_, ?_, ?_, fun f => invoked rfl, fun c => invoked rfl, fun c => invoked rfl⟩
  · intro past rest split
    rw [split] at chain
    obtain ⟨h, first, second⟩ := chain_append.mp chain
    exact ⟨h, first, second, first.accounted there distinct⟩
  · intro st' empty
    exact ⟨ArgumentsId.run_eat_nil empty, ArgumentsId.run_expect_nil empty⟩
  · intro v
    rw [positional, ← leftover?_eq_none_iff, judgement]
    rcases ended with ⟨_ | w, st'⟩
    · simp [judged]
    · cases left : (st'.heap.args a).leftover? <;> simp [judged, left]
  · intro e failed
    rw [judgement]
    rcases ended with ⟨_ | w, st'⟩ <;> simp_all [judged]
  · intro v done left
    rw [Ne, positional] at left
    have fault : (ended.2.heap.args a).leftover? = some .unexpectedPositional := by
      unfold leftover?
      split
      · rfl
      · next empty _ => exact absurd empty left
      · next empty _ => exact absurd empty left
    refine ⟨?_, rfl⟩
    rw [judgement]
    rcases ended with ⟨_ | w, st'⟩ <;> simp_all [judged]
  · intro v name w others done all first
    have fault : (ended.2.heap.args a).leftover? = some (.unexpectedNamed name) := by
      rw [leftover?, positional.mp all, first]
    refine ⟨?_, rfl⟩
    rw [judgement]
    rcases ended with ⟨_ | w, st'⟩ <;> simp_all [judged]

/-- A function of the host reads a positional argument and the named argument `mode`, and another
named argument is left over. -/
theorem finishing_accounts_for_arguments_optional :
    let st := ((ArgumentsId.create [.int 1] [("b", .int 3), ("mode", .int 4)]).run .initial).2
    st.heap.Has (.arguments ⟨0⟩) ∧ (Entries.keys (st.heap.args ⟨0⟩).named).Nodup ∧
    ((LexEnv.invoke .call (.func ⟨"optional", .guest .optional, 0⟩) ⟨0⟩ ⟨0⟩).run st).1 =
      .error (.eval (.unexpectedNamed "b")) := by
  intro st
  obtain ⟨st', made, there, distinct⟩ :=
    ArgumentsId.created [.int 1] [("b", .int 3), ("mode", .int 4)] .initial
  obtain rfl : st = st' := congrArg Prod.snd made
  let body := Guest.program .optional ⟨0⟩ ⟨0⟩
  obtain ⟨-, -, -, -, -, -, called, -, -⟩ :=
    finishing_accounts_for_arguments body 0 ⟨0⟩ st there distinct
  obtain ⟨nesting, ran⟩ := called ⟨"optional", .guest .optional, 0⟩ ⟨0⟩
  -- The body does not invoke anything, so it reads the same within any nesting.
  obtain ⟨-, -, -, -, -, left, -⟩ :=
    finishing_accounts_for_arguments body nesting ⟨0⟩ st there distinct
  have verdict := left (.sequence .list ⟨0⟩) "b" (.int 3) [] rfl rfl rfl
  refine ⟨there, distinct, ?_⟩
  rw [ran]
  exact congrArg Prod.fst verdict.1

end Program

end LexEnv
