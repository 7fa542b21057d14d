import LexEnv.Proofs.LibraryInStep

/-!
# Requests

What a host asks an evaluation for, one request after the other. The operands of a request are values
that the host knows, given by their places among these, so that the same request can be made in
another heap. With a request that enters a scope comes the memory that is in use at that time.

A host may leave a block open while it makes other requests: it enters, asks for the active scope and
leaves at last. It may also have the whole block performed as one request.

Requests keep the runs of an evaluation in step (`Evaluation.inStep_request`).
-/

namespace LexEnv

/-! ## Requests and their meaning -/

/-- A request, with the places of its operands. -/
inductive Request where
  | enter (resident : Int)
  | exit
  | block (resident : Int) (body : List Request)
  | active
  | defineConst (name : String) (operand : Nat)
  | defineMut (name : String) (operand : Nat)
  | bind (name : String) (operand : Nat)
  | lookup (name : String)
  | get (name : String)
  | assign (name : String) (operand : Nat)
  | capture (names : List String)
  | visible
  | read (slot : Nat)
  | write (slot operand : Nat)
  | sequence (kind : SequenceKind) (items : List Nat)
  | call (use : Use) (target : Nat) (positional : List Nat) (named : List (String × Nat))

/-- The known value at a place. -/
def pick (known : List Value) (place : Nat) : Value := known.getD place .none

/-- Does something with a slot, and nothing if it is none. -/
def Value.forSlot (v : Value) (act : SlotId → Action (List Value)) : Action (List Value) :=
  match v with
  | .slot s => act s
  | _ => return []

/-- Invokes what belongs to the library, or what cannot be invoked at all, with new arguments. -/
def ContextId.call (c : ContextId) (use : Use) (target : Value) (positional : List Value)
    (named : List (String × Value)) : Action Value := do
  if target.isStandard then invoke use target c (← ArgumentsId.create positional named)
  else return .none

mutual

/-- Performs a request with the values that are known; answers values. -/
def Request.perform (c : ContextId) (known : List Value) : Request → Action (List Value)
  | .enter resident => do
    let s ← c.stack
    Command.setResident resident >>= fun _ => s.enter
    return []
  | .exit => do
    (← c.stack).exit
    return []
  | .block resident body => do
    let s ← c.stack
    Command.setResident resident
    s.block fun top => do return .scope top :: (← performAll c (known ++ [.scope top]) body)
  | .active => do return [.scope (← (← c.stack).active)]
  | .defineConst name operand => do
    (← c.stack).defineConst (.text name) (pick known operand)
    return []
  | .defineMut name operand => do
    (← c.stack).defineMut (.text name) (pick known operand)
    return []
  | .bind name operand => do
    let s ← c.stack
    (pick known operand).forSlot fun t => do
      s.bind (.text name) t
      return []
  | .lookup name => do return (← (← c.stack).lookup (.text name)).toList.map .slot
  | .get name => do return [← (← c.stack).get (.text name)]
  | .assign name operand => do
    (← c.stack).assign (.text name) (pick known operand)
    return []
  | .capture names => do return [.scope (← (← c.stack).capture (names.map .text))]
  | .visible => do return (← (← c.stack).visible).flatMap fun e => [e.1, .slot e.2]
  | .read slot => (pick known slot).forSlot fun s => do return [← s.get]
  | .write slot operand => (pick known slot).forSlot fun s => do
    s.set (pick known operand)
    return []
  | .sequence kind items => do return [← Value.newSequence kind (items.map (pick known))]
  | .call use target positional named => do
    return [← c.call use (pick known target) (positional.map (pick known))
      (named.map fun e => (e.1, pick known e.2))]

/-- Performs requests one after the other, each with the answers to those before it. -/
def Request.performAll (c : ContextId) (known : List Value) : List Request → Action (List Value)
  | [] => return []
  | r :: rs => do
    let answer ← r.perform c known
    return answer ++ (← performAll c (known ++ answer) rs)

end

/-! ## Requests in step -/

namespace Evaluation

open LexEnv.Action Link

variable {E : Evaluation} {L : Link}

/-- Lists of values that are alike. -/
abbrev Lists (L : Link) : List Value → List Value → Prop := List.Forall₂ L.Alike

theorem Lists.mono {M : Link} {vs ws : List Value} (lists : Lists L vs ws) (le : L ≤ M) :
    Lists M vs ws := lists.imp fun _ _ alike => alike.mono le

theorem alike_pick {known known' : List Value} (lists : Lists L known known') (place : Nat) :
    L.Alike (pick known place) (pick known' place) := by
  induction lists generalizing place with
  | nil => exact .none
  | cons alike _ ih =>
    cases place with
    | zero => exact alike
    | succ place => exact ih place

theorem alike_picks {known known' : List Value} (lists : Lists L known known')
    (places : List Nat) : Lists L (places.map (pick known)) (places.map (pick known')) :=
  List.forall₂_map_left_iff.mpr <| List.forall₂_map_right_iff.mpr <|
    List.forall₂_same.mpr fun place _ => alike_pick lists place

theorem inStep_forSlot {v w : Value} (alike : L.Alike v w)
    {act act' : SlotId → Action (List Value)}
    (inStep : ∀ {s t}, L.Slots s t → E.InStep L Lists (act s) (act' t)) :
    E.InStep L Lists (v.forSlot act) (w.forSlot act') := by
  cases alike with
  | slot linked => exact inStep linked
  | _ => exact inStep_pure .nil

theorem inStep_call (use : Use) {v w : Value} (alike : L.Alike v w) {vs ws : List Value}
    (positional : Lists L vs ws) {es fs : List (String × Value)}
    (named : List.Forall₂ (Named L.Alike) es fs) :
    E.InStep L Link.Alike (E.context.call use v vs es) (E.context.call use w ws fs) := by
  rw [ContextId.call, ContextId.call, ← alike.isStandard]
  by_cases standard : v.isStandard
  · rw [if_pos standard, if_pos standard]
    exact (inStep_createArguments positional named).bind fun M a b le linked =>
      inStep_invoke linked use (alike.mono le) standard
  · rw [if_neg standard, if_neg standard]
    exact inStep_pure .none

/-- Something that is asked of the stack of the context. -/
theorem inStep_ofStack {α β : Type} {R : Link → α → β → Prop} {x : StackId → Action α}
    {y : StackId → Action β} (inStep : ∀ M, L ≤ M → E.InStep M R (x E.stack) (y E.stack)) :
    E.InStep L R (E.context.stack >>= x) (E.context.stack >>= y) := by
  refine inStep_contextStack.bind fun M s t le same => ?_
  rw [same.1, same.2]
  exact inStep M le

mutual

theorem inStep_request (r : Request) {L : Link} {known known' : List Value}
    (lists : Lists L known known') :
    E.InStep L Lists (r.perform E.context known) (r.perform E.context known') := by
  have alike : ∀ {M : Link} place, L ≤ M → M.Alike (pick known place) (pick known' place) :=
    fun place le => (alike_pick lists place).mono le
  have silent : ∀ {L : Link} {x y : StackId → Action Unit},
      (∀ M, L ≤ M → E.InStep M Whatever (x E.stack) (y E.stack)) →
      E.InStep L Lists (do x (← E.context.stack); return []) (do y (← E.context.stack); return []) :=
    fun inStep => inStep_ofStack fun M le => (inStep M le).bind fun _ _ _ _ _ => inStep_pure .nil
  cases r with
  | enter resident => exact silent fun _ _ => inStep_enter resident
  | exit => exact silent fun _ _ => inStep_exit
  | block resident body =>
    refine inStep_ofStack fun M le => inStep_block (fun le lists => lists.mono le) resident
      fun M₁ c d le₁ linked => ?_
    have known := List.rel_append ((lists.mono le).mono le₁) (.cons (.scope linked) .nil)
    exact (inStep_requests body known).bind fun _ _ _ le₂ rest =>
      inStep_pure (.cons (.scope (le₂ _ _ linked)) rest)
  | active =>
    exact inStep_ofStack fun _ _ => inStep_active.bind fun _ _ _ _ linked =>
      inStep_pure (.cons (.scope linked) .nil)
  | defineConst name operand => exact silent fun _ le => inStep_defineConst name (alike operand le)
  | defineMut name operand => exact silent fun _ le => inStep_defineMut name (alike operand le)
  | bind name operand =>
    exact inStep_ofStack fun M le => inStep_forSlot (alike operand le) fun linked =>
      (inStep_bind name linked).bind fun _ _ _ _ _ => inStep_pure .nil
  | lookup name =>
    refine inStep_ofStack fun _ _ => (inStep_lookup name).bind fun M found found' _ both =>
      inStep_pure ?_
    cases both with
    | some linked => exact .cons (.slot linked) .nil
    | none => exact .nil
  | get name =>
    exact inStep_ofStack fun _ _ => (inStep_getName name).bind fun _ _ _ _ alike =>
      inStep_pure (.cons alike .nil)
  | assign name operand => exact silent fun _ le => inStep_assign name (alike operand le)
  | capture names =>
    exact inStep_ofStack fun _ _ => (inStep_capture names).bind fun _ _ _ _ linked =>
      inStep_pure (.cons (.scope linked) .nil)
  | visible =>
    refine inStep_ofStack fun _ _ => inStep_visible.bind fun M es fs _ both => inStep_pure ?_
    exact List.rel_flatMap both fun _ _ bound => .cons bound.1 (.cons (.slot bound.2) .nil)
  | read slot =>
    exact inStep_forSlot (alike_pick lists slot) fun linked => (inStep_get linked).bind
      fun _ _ _ _ alike => inStep_pure (.cons alike .nil)
  | write slot operand =>
    exact inStep_forSlot (alike_pick lists slot) fun linked =>
      (inStep_set linked (alike_pick lists operand)).bind fun _ _ _ _ _ => inStep_pure .nil
  | sequence kind items =>
    exact (inStep_newSequence kind (alike_picks lists items)).bind fun _ _ _ _ alike =>
      inStep_pure (.cons alike .nil)
  | call use target positional named =>
    refine (inStep_call use (alike_pick lists target) (alike_picks lists positional) ?_).bind
      fun _ _ _ _ alike => inStep_pure (.cons alike .nil)
    exact List.forall₂_map_left_iff.mpr <| List.forall₂_map_right_iff.mpr <|
      List.forall₂_same.mpr fun e _ => ⟨rfl, alike_pick lists e.2⟩

theorem inStep_requests (rs : List Request) {L : Link} {known known' : List Value}
    (lists : Lists L known known') :
    E.InStep L Lists (Request.performAll E.context known rs)
      (Request.performAll E.context known' rs) := by
  cases rs with
  | nil => exact inStep_pure .nil
  | cons r rs =>
    refine (inStep_request r lists).bind fun M answer answer' le answers => ?_
    refine (inStep_requests rs (List.rel_append (lists.mono le) answers)).bind
      fun _ _ _ le₁ rest => inStep_pure (List.rel_append (answers.mono le₁) rest)

end

end Evaluation

end LexEnv
