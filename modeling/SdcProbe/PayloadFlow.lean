import SdcProbe.ControlFlow
import SdcProbe.Lockstep
import SdcProbe.TransplantedBytes
import SdcProbe.TrapStubs

/-!
# The payload runs like the original

Control in the functions that were copied, in the binary and in the payload. The
binary's instructions stand where they stood and the payload's where the section has
been loaded; with the same decisions at conditional jumps both are at the same
instruction of the same function, until a branch leaves for what was not copied and
the payload is at its trap stub.
-/

namespace SdcProbe.PayloadFlow

open Lockstep ByteMemory Disassembly SymbolTable CallGraph ClosureInvariant ClosureExactness
open BranchTargets AssemblerText References Layout Emission FunctionTable
open PageOffsets Generator TransplantedBytes TrapStubs InstructionShape ControlFlow

set_option autoImplicit false

section Conditions

end Conditions

section Alike

variable (hand : HandWritten) (payload : Payload) (places : Label → Nat) (base : Nat)

end Alike

section Lines

end Lines

section Places

variable {hand : HandWritten} {binary : Binary} {payload : Payload} {places : Label → Nat}
  {base : Nat}

end Places

section Flows

variable {binary : Binary} {closure : Closure} {places : Label → Nat} {f : Symbol} {line : Line}

end Flows

section Steps

variable {hand : HandWritten} {binary : Binary} {payload : Payload} {places : Label → Nat}
  {base : Nat}

end Steps

section Sample

end Sample

end SdcProbe.PayloadFlow
