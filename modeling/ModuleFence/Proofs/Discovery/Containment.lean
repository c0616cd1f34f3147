import Mathlib
import ModuleFence.Proofs.Discovery.Route

set_option autoImplicit false

namespace ModuleFence.Discovery

namespace Search

variable {search : Search}

end Search

end ModuleFence.Discovery
