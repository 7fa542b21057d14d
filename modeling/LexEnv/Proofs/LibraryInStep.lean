import LexEnv.Call
import LexEnv.Proofs.ContextInStep

/-!
# The library in step

Calls of the functions and classes of the library keep the runs of an evaluation in step. None of
them invokes anything, so they do so whatever invocations mean.
-/

namespace LexEnv.Evaluation

open LexEnv.Action Link

variable {E : Evaluation} {L M : Link}

/-! ## Programs -/

section

variable {α β γ δ : Type} {R : Link → α → β → Prop} {S : Link → γ → δ → Prop}

/-- Programs that run in step, whatever invocations mean to each of them. -/
def Programs (E : Evaluation) (L : Link) (R : Link → α → β → Prop) (p : Program α)
    (q : Program β) : Prop := ∀ i i' : Invocation, E.InStep L R (p.run i) (q.run i')

theorem programs_done {a : α} {b : β} (related : R L a b) : E.Programs L R (.done a) (.done b) :=
  fun _ _ => inStep_pure related

theorem programs_fail {e f : Error} (errors : L.Errors e f) :
    E.Programs L R (.fail e) (.fail f) := fun _ _ => inStep_fail errors

theorem programs_exec {c : Command α} {d : Command β} (inStep : E.InStep L R c.run d.run) :
    E.Programs L R (.exec c) (.exec d) := by
  intro i i'
  rw [Program.run_exec, Program.run_exec]
  exact inStep

theorem Programs.bind {p : Program α} {q : Program β} {f : α → Program γ} {f' : β → Program δ}
    (first : E.Programs L R p q)
    (next : ∀ M a b, L ≤ M → R M a b → E.Programs M S (f a) (f' b)) :
    E.Programs L S (p >>= f) (q >>= f') := by
  intro i i'
  show E.InStep L S ((p.andThen f).run i) ((q.andThen f').run i')
  rw [Program.run_andThen, Program.run_andThen]
  exact (first i i').bind fun M a b le related => next M a b le related i i'

/-- A command followed by a program that goes on with its result. -/
theorem programs_step {c : Command α} {d : Command β} {f : α → Program γ} {f' : β → Program δ}
    (first : E.InStep L R c.run d.run)
    (next : ∀ M a b, L ≤ M → R M a b → E.Programs M S (f a) (f' b)) :
    E.Programs L S (.exec c >>= f) (.exec d >>= f') := (programs_exec first).bind next

end

/-! ## Functions -/

section

variable {v w : Value} (alike : L.Alike v w)

include alike

theorem programs_refuse (kind : String) :
    E.Programs L Link.Alike (Builtin.refuse v kind) (Builtin.refuse w kind) :=
  programs_step (inStep_scriptType alike) fun _ _ _ _ same => same ▸ programs_fail (.plain rfl)

theorem programs_written :
    E.Programs L Link.Alike (do return .text (← .exec (.written v)))
      (do return .text (← .exec (.written w))) :=
  programs_step (inStep_written alike) fun _ s _ _ same => same ▸ programs_done (.text s)

theorem programs_toText : E.Programs L Link.Alike (Builtin.toText v) (Builtin.toText w) := by
  have written := programs_written (E := E) alike
  have refused := programs_refuse (E := E) alike "string"
  cases alike with
  | text s => exact programs_done (.text s)
  | int n => exact written
  | float x serials => exact written
  | _ => exact refused

theorem programs_toInteger :
    E.Programs L Link.Alike (Builtin.toInteger v) (Builtin.toInteger w) := by
  rw [Builtin.toInteger, Builtin.toInteger, ← alike.toInteger?]
  cases v.toInteger? with
  | some n => exact programs_done (.int n)
  | none => exact programs_refuse alike "integer"

theorem programs_convert :
    E.Programs L Link.Alike
      (match v.toFloat? with
        | some x => .exec (.newFloat x)
        | none => Builtin.refuse v "float")
      (match w.toFloat? with
        | some x => .exec (.newFloat x)
        | none => Builtin.refuse w "float") := by
  rw [← alike.toFloat?]
  cases v.toFloat? with
  | some x => exact programs_exec (inStep_newFloat x)
  | none => exact programs_refuse alike "float"

theorem programs_toFloat : E.Programs L Link.Alike (Builtin.toFloat v) (Builtin.toFloat w) := by
  have converted := programs_convert (E := E) alike
  cases alike with
  | float x serials => exact programs_done (.float x serials)
  | _ => exact converted

theorem programs_length : E.Programs L Link.Alike (Builtin.length v) (Builtin.length w) := by
  refine programs_step (inStep_scriptSize? alike) fun M n m le same => ?_
  subst same
  cases n with
  | some n => exact programs_done (.int n)
  | none =>
    exact programs_step (inStep_scriptType (alike.mono le)) fun _ _ _ _ same =>
      same ▸ programs_fail (.plain rfl)

theorem programs_join (parts : List String) :
    E.Programs L Link.Alike (Builtin.join v parts) (Builtin.join w parts) := by
  have lacking := inStep_typeName (E := E) alike
  cases alike with
  | text s => exact programs_done (.text _)
  | bytes b =>
    rw [Builtin.join]
    split
    · exact programs_done (.bytes [])
    · exact programs_fail (.plain rfl)
  | _ => exact programs_step lacking fun _ _ _ _ same => same ▸ programs_fail (.plain rfl)

end

section

variable {a b : ArgumentsId} (linked : Unread L a b)

include linked

theorem programs_displayed (n : Nat) :
    E.Programs L (fun _ => Eq) (Builtin.displayed a n) (Builtin.displayed b n) := by
  induction n generalizing L with
  | zero => exact programs_done rfl
  | succ n ih =>
    refine programs_step (inStep_eat linked) fun M v w le alike => ?_
    refine programs_step (inStep_display alike) fun M₁ s t le₁ same => ?_
    refine (ih (le₁ _ _ (le _ _ linked))).bind fun M₂ ss ts _ rest => ?_
    exact programs_done (by rw [same, rest])

theorem programs_printAll :
    E.Programs L Link.Alike (Builtin.printAll E.context a) (Builtin.printAll E.context b) := by
  refine programs_step (inStep_named linked "sep" (.text " ")) fun L₁ v w le sep => ?_
  refine programs_step (inStep_viewArguments (le _ _ linked)) fun L₂ x y le₁ readings => ?_
  rw [readings.positional.length_eq]
  refine (programs_displayed (le₁ _ _ (le _ _ linked)) _).bind fun L₃ parts parts' le₂ same => ?_
  subst same
  refine programs_step inStep_output fun L₄ c d le₃ lines => ?_
  refine (programs_join (((sep.mono le₁).mono le₂).mono le₃) parts).bind
    fun L₅ line line' le₄ alike => ?_
  exact programs_step (inStep_append (le₄ _ _ lines) alike) fun _ _ _ _ _ => programs_done .none

theorem programs_require : E.Programs L Link.Alike (Builtin.require a) (Builtin.require b) := by
  refine programs_step (inStep_expect linked "condition") fun L₁ c d le condition => ?_
  refine programs_step (inStep_named (le _ _ linked) "message" .none) fun L₂ v w le₁ message => ?_
  refine programs_step (inStep_truth (condition.mono le₁)) fun L₃ holds _ le₂ same => ?_
  subst same
  cases holds with
  | true => exact programs_done .none
  | false =>
    refine programs_step (inStep_truth (message.mono le₂)) fun L₄ given _ le₃ same => ?_
    subst same
    cases given with
    | true => exact programs_fail (.given ((message.mono le₂).mono le₃))
    | false => exact programs_fail (.plain rfl)

theorem programs_builtin (f : Builtin) :
    E.Programs L Link.Alike (f.program E.context a) (f.program E.context b) := by
  cases f with
  | repr => exact programs_step (inStep_expect linked _) fun _ _ _ _ alike => programs_written alike
  | type =>
    exact programs_step (inStep_expect linked _) fun _ _ _ _ alike =>
      programs_step (inStep_scriptType alike) fun _ s _ _ same => same ▸ programs_done (.text s)
  | len => exact programs_step (inStep_expect linked _) fun _ _ _ _ alike => programs_length alike
  | str => exact programs_step (inStep_expect linked _) fun _ _ _ _ alike => programs_toText alike
  | int => exact programs_step (inStep_expect linked _) fun _ _ _ _ alike => programs_toInteger alike
  | float => exact programs_step (inStep_expect linked _) fun _ _ _ _ alike => programs_toFloat alike
  | print => exact programs_printAll linked
  | assert => exact programs_require linked

/-! ## Records -/

theorem programs_constructRecord :
    E.Programs L Link.Alike (Template.constructRecord E.context a)
      (Template.constructRecord E.context b) := by
  refine programs_step inStep_defaults fun L₁ x y le defaults => ?_
  refine programs_step (inStep_takeAllNamed (le _ _ linked)) fun L₂ es fs le₁ named => ?_
  have entries := defaults.mono le₁ fun _ _ alike => alike.mono le₁
  exact programs_exec ((inStep_newDict (entries.insertAll named)).imp fun _ _ _ _ others =>
    others.alike)

theorem programs_setRecord :
    E.Programs L Link.Alike (Template.setRecord E.context a) (Template.setRecord E.context b) := by
  refine programs_step (inStep_viewArguments linked) fun L₁ x y le readings => ?_
  refine programs_step (inStep_addDefaults readings.named) fun L₂ _ _ le₁ _ => ?_
  exact programs_step (inStep_takeAllNamed (le₁ _ _ (le _ _ linked))) fun _ _ _ _ _ =>
    programs_done .none

end

/-! ## Invocations -/

theorem inStep_refuseUse {α β : Type} {R : Link → α → β → Prop} (use : Use) {v w : Value}
    (alike : L.Alike v w) : E.InStep L R (v.refuse use) (w.refuse use) := by
  have lacking := inStep_lacking (E := E) (R := R) alike use.name
  cases use with
  | call => exact lacking
  | construct => exact lacking
  | set =>
    cases alike with
    | @slot s t linked =>
      refine (inStep_read (R := fun _ => Eq) fun h g j => (j.mirrors.slot linked).1).bind
        fun M kind _ le same => ?_
      subst same
      cases kind with
      | bare => exact inStep_lacking (.slot (le _ _ linked)) _
      | constant => exact inStep_refuse rfl
      | mutable => exact inStep_refuse rfl
    | _ => exact lacking

section

variable {a b : ArgumentsId} (linked : Unread L a b)

include linked

theorem inStep_finishing {p q : Program Value} (programs : E.Programs L Link.Alike p q)
    (i i' : Invocation) : E.InStep L Link.Alike (p.finishing i a) (q.finishing i' b) :=
  (programs i i').bind fun _ _ _ le alike => (inStep_finish (le _ _ linked)).bind
    fun _ _ _ le' _ => inStep_pure (alike.mono le')

/-- What belongs to the library needs no nested invocation, so the bounds do not matter. -/
theorem inStep_invokeWithin (use : Use) {v w : Value} (alike : L.Alike v w)
    (standard : v.isStandard = true) (m n : Nat) :
    E.InStep L Link.Alike (invokeWithin (m + 1) use v E.context a)
      (invokeWithin (n + 1) use w E.context b) := by
  have refused := inStep_refuseUse (E := E) (R := Link.Alike) use alike
  cases use with
  | call =>
    cases alike with
    | func name native serials =>
      cases native with
      | builtin f => exact inStep_finishing linked (programs_builtin linked f) _ _
      | guest f => cases standard
    | _ => exact refused
  | construct =>
    cases alike with
    | cls name template serials =>
      cases of_decide_eq_true standard
      exact inStep_finishing linked (programs_constructRecord linked) _ _
    | _ => exact refused
  | set =>
    cases alike with
    | cls name template serials =>
      cases of_decide_eq_true standard
      exact inStep_finishing linked (programs_setRecord linked) _ _
    | _ => exact refused

theorem inStep_invoke (use : Use) {v w : Value} (alike : L.Alike v w)
    (standard : v.isStandard = true) :
    E.InStep L Link.Alike (invoke use v E.context a) (invoke use w E.context b) :=
  (inStep_read (R := fun _ m n => (∃ k, m = k + 1) ∧ ∃ k, n = k + 1)
    fun _ _ _ => ⟨⟨_, rfl⟩, ⟨_, rfl⟩⟩).bind fun _ _ _ le bounds => by
      obtain ⟨⟨m, rfl⟩, ⟨n, rfl⟩⟩ := bounds
      exact inStep_invokeWithin (le _ _ linked) use (alike.mono le) standard m n

end

end LexEnv.Evaluation
