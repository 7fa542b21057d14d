import LexEnv.Script.Probe
import LexEnv.Proofs.Environment
import LexEnv.Proofs.Event
import LexEnv.Proofs.Block
import LexEnv.Proofs.ConstantLock
import LexEnv.Proofs.OuterEnvironment
import LexEnv.Proofs.Closure
import LexEnv.Proofs.Shallow
import LexEnv.Proofs.Failure
import LexEnv.Proofs.ScopeHash
import LexEnv.Proofs.Interleaving
import LexEnv.Proofs.Rejection
import LexEnv.Proofs.BaseScope
import LexEnv.Proofs.SameContents
import LexEnv.Proofs.Limits
import LexEnv.Proofs.Definition
import LexEnv.Proofs.Assignment
import LexEnv.Proofs.Update
import LexEnv.Proofs.LibraryCall
import LexEnv.Proofs.Records
import LexEnv.Proofs.ScopeEquality
import LexEnv.Proofs.NewLibrary
import LexEnv.Proofs.Conversion
import LexEnv.Proofs.FaultMessage
import LexEnv.Proofs.Spelling
import LexEnv.Proofs.FrozenForm
