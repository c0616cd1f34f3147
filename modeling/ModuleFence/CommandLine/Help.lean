import ModuleFence.CommandLine.Form

set_option autoImplicit false

namespace ModuleFence.CommandLine

def linesOf (lines : List String) : String :=
  String.join (lines.map (· ++ "\n"))

def Screen.usageLines : Screen → List String
  | general => ["usage: storelint [-h] [--version] \x7blint,rules\x7d ..."]
  | rules => ["usage: storelint rules [-h]"]
  | lint => [
    "usage: storelint lint [-h] [--store STORE] [--forbid MODULE]",
    "                      [--rule \x7bdisallow-empty-catch,disallow-some-module\x7d]",
    "                      [--format \x7btext,json\x7d] [--fail-closed] [--verbose]",
    "                      paths [paths ...]"]

/-- What the operands and options of a form are about. -/
def Screen.detailLines : Screen → List String
  | general => [
    "",
    "Lint Vue/Vuex sources for forbidden store modules and empty catch blocks.",
    "",
    "positional arguments:",
    "  \x7blint,rules\x7d",
    "    lint        Lint files or directories",
    "    rules       List available rules",
    "",
    "options:",
    "  -h, --help    show this help message and exit",
    "  --version     Print version and exit"]
  | rules => [
    "",
    "options:",
    "  -h, --help  show this help message and exit"]
  | lint => [
    "",
    "positional arguments:",
    "  paths                 Files or directories to lint",
    "",
    "options:",
    "  -h, --help            show this help message and exit",
    "  --store STORE         Store-definition file whose exported modules are",
    "                        resolved (default: STORELINT_STORE_FILE_PATH)",
    "  --forbid MODULE       Forbidden store module; repeat or comma-separate",
    "                        (default: every module in --store)",
    "  --rule \x7bdisallow-empty-catch,disallow-some-module\x7d, "
      ++ "-r \x7bdisallow-empty-catch,disallow-some-module\x7d",
    "                        Rule to enable; repeat for several (default: all)",
    "  --format \x7btext,json\x7d, -f \x7btext,json\x7d",
    "                        Output format (default: text)",
    "  --fail-closed         Fail the run when the store file cannot be parsed",
    "  --verbose, -v         Enable debug logging"]

def Screen.usage (screen : Screen) : String :=
  linesOf screen.usageLines

def Screen.help (screen : Screen) : String :=
  linesOf (screen.usageLines ++ screen.detailLines)

end ModuleFence.CommandLine
