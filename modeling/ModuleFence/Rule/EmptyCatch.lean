import ModuleFence.Diagnostic
import ModuleFence.Expression.Basic
import ModuleFence.Settings.Basic

set_option autoImplicit false

namespace ModuleFence.EmptyCatch

def message : Text := "Empty catch block is not allowed."

def findings (path : Option Path) (clause : CatchClause) : List Diagnostic :=
  if clause.isEmpty then
    [{ ruleId := RuleId.emptyCatch.name
       message := message
       span := clause.bodySpan
       nodeKind := "statement_block"
       filePath := path }]
  else []

end ModuleFence.EmptyCatch
