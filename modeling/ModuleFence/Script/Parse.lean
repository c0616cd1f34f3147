import ModuleFence.Script.Repair

set_option autoImplicit false

namespace ModuleFence.Script

def damagedTree (place : Point) : Node :=
  .mk { kind := "program", hasError := true }
    [.mk { kind := "ERROR", start := place, stop := place, hasError := true } []]

/-- The tree of an undamaged source: it begins with its first part and reaches to the end. -/
def wholeTree (source : List Char) (children : List Node) : Node :=
  let stop := source.foldl Point.after Point.origin
  let start := (children.head?.map (·.label.start)).getD stop
  .mk { kind := "program", start := start, stop := stop } children

def parse (source : List Char) : Node :=
  match readWhole source with
  | .ok children => wholeTree source children
  | .error reach => damagedTree (damagePlace source reach)

end ModuleFence.Script
