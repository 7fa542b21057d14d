import LexEnv.Proofs.Built

/-!
# Operations that leave no record

Records are left by stacks that are entered, left or defined on, and by slots that refuse a write.
Every other operation is plain: it leaves the trace as it is, and if it fails, that is no refused
write (`Action.Built.plain`, `Command.plain`).
-/

namespace LexEnv

open LexEnv.Action

/-! ## Plain actions -/

/-- An action that leaves no record and refuses no write. -/
structure Action.Plain {α : Type} (x : Action α) : Prop where
  trace : ∀ st, (x.run st).2.trace = st.trace
  fails : ∀ st, FailsAs Error.Other (x.run st).1

/-- Powers to do anything but leave records and refuse writes. -/
def Powers.unrecorded : Powers := { all with fails := Error.Other, records := False }

instance : Powers.unrecorded.Failing := ⟨Error.Ordinary.other⟩

namespace Action

variable {α : Type} {x : Action α}

theorem Built.plain (built : x.Built .unrecorded) : x.Plain where
  trace := by
    refine Built.keeps (R := fun st st' => st'.trace = st.trace) (fun _ => rfl)
      (fun first second => second.trans first) (fun step => ?_) built
    cases step with
    | change | add | sample => rfl
    | record records => exact records.elim
  fails := built.failsAs

end Action

/-! ## Commands -/

namespace Command

variable {α : Type}

/-- Every command that leaves no record is plain. -/
theorem plain (c : Command α) (other : c.recording = false) : c.run.Plain := by
  have within : c.powers.Within .unrecorded :=
    ⟨fun _ fails => fails.2 other, fun _ _ => trivial, fun _ _ => trivial,
      fun records => Bool.false_ne_true (other.symm.trans records), fun _ => trivial⟩
  exact (c.built.mono within).plain

end Command

end LexEnv
