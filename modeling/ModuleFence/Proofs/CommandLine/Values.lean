import ModuleFence.CommandLine.Run
import ModuleFence.Proofs.Settings.Values

/-!
The values that arguments give to settings. An option that is given hides what the environment has for
its field, and an option that is not given leaves the field to the environment.
-/

set_option autoImplicit false

namespace ModuleFence

namespace Settings

@[simp] theorem Key.name_beq (key other : Key) :
    (Text.ofString key.name == Text.ofString other.name) = decide (key = other) := by
  cases key <;> cases other <;> decide

end Settings

namespace CommandLine.LintArguments

/-- The value that arguments give for a field. -/
def given (arguments : LintArguments) : Settings.Given
  | .storeFilePath => arguments.store.map fun path => .string path
  | .forbiddenModules =>
    if arguments.forbidden = [] then none
    else some (.string (",".intercalate arguments.forbidden))
  | .failurePolicy => if arguments.failClosed then some (.string FailurePolicy.closed.name) else none
  | .enabledRules =>
    if arguments.rules = [] then none
    else some (.array (arguments.rules.eraseDups.map fun (rule : String) => .string rule))
  | .logLevel => none
  | .skipDirectories => none

theorem member?_settingsMembers (arguments : LintArguments) (key : Settings.Key) :
    (Json.object arguments.settingsMembers).member? key.name = arguments.given key := by
  obtain ⟨paths, store, forbidden, rules, inJson, failClosed, isVerbose⟩ := arguments
  simp only [Json.member?, settingsMembers]
  cases store <;> by_cases unforbidden : forbidden = [] <;> by_cases unruled : rules = [] <;>
    cases failClosed <;> cases key <;> simp [given, unforbidden, unruled, List.lookup_cons]

/-- The values that a run has: those of its arguments, and behind them those of its surroundings. -/
def allGiven (arguments : LintArguments) (surrounding : Settings.Given) : Settings.Given :=
  fun key => arguments.given key <|> surrounding key

theorem behind_settingsMembers (arguments : LintArguments) (surrounding : Settings.Given) :
    surrounding.behind (.object arguments.settingsMembers) = arguments.allGiven surrounding := by
  funext key
  rw [Settings.Given.behind, allGiven, member?_settingsMembers]

theorem settings_eq_ok_iff (arguments : LintArguments) (files : FileSystem)
    (environment : Environment) (settings : Settings) :
    arguments.settings files environment = .ok settings ↔
      ∃ surrounding, Settings.surroundings files environment = .ok surrounding ∧
        Settings.Reads (arguments.allGiven surrounding) settings := by
  rw [LintArguments.settings, Settings.load_eq_ok_iff]
  simp only [behind_settingsMembers]

end CommandLine.LintArguments

end ModuleFence
