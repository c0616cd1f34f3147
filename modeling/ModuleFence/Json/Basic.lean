import ModuleFence.Text.Basic

set_option autoImplicit false

namespace ModuleFence

/-- A JSON value; a decimal is an integer divided by a power of ten. -/
inductive Json where
  | null
  | bool (value : Bool)
  | integer (value : Int)
  | decimal (mantissa : Int) (exponent : Nat)
  | notFinite
  | string (value : Text)
  | array (items : List Json)
  | object (members : List (Text × Json))

namespace Json

/-- The value of the last member with a key. -/
def member? (key : Text) : Json → Option Json
  | object members => (members.reverse.lookup key)
  | _ => none

def text? : Json → Option Text
  | string value => some value
  | _ => none

end Json

end ModuleFence
