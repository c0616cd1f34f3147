set_option autoImplicit false

namespace ModuleFence.Boundary

/-- A number is inside when an odd number of boundaries lies at or below it. -/
def contains : List Nat → Nat → Bool
  | [], _ => false
  | boundary :: rest, number => if number < boundary then false else !contains rest number

end ModuleFence.Boundary
