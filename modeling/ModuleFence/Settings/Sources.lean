import ModuleFence.Failure
import ModuleFence.Json.Reader
import ModuleFence.Settings.EnvironmentFile

/-!
The sources of settings. A value given directly comes before one of the environment, and that before
one of the environment file; the skipped directories are written there as JSON.
-/

set_option autoImplicit false

namespace ModuleFence

/-- What surrounds a run: variables with their values, and how many brackets of a JSON text can be
entered with the calls that are left where settings are read. -/
structure Environment where
  bindings : List (String × String) := []
  room : Nat := 985

/-- The limits under which the values of variables are read. -/
def Environment.limits (environment : Environment) : Json.Limits :=
  .standard environment.room

namespace Settings

/-- The lower-case form of a character, as far as names of variables depend on it. -/
def lowerNameCharacter (character : Char) : Char :=
  if character = '\u212a' then 'k' else character.toLower

/-- The form in which names of variables are compared. -/
def foldName (name : String) : String :=
  String.ofList (name.toList.map lowerNameCharacter)

/-- The name of the variable for a field, in its compared form. -/
def Key.variable (key : Key) : String :=
  "storelint_" ++ key.name

/-- The last value of the variable for a field; the outer option tells whether it is there. -/
def rawValue (key : Key) (bindings : List EnvironmentFile.Binding) : Option (Option String) :=
  (bindings.reverse.find? fun binding => foldName binding.1 = key.variable).map (·.2)

/-- The failure of a value that a source has for a field; only a value that is no JSON is blamed on the
source. -/
def failureOf (source : SettingsSource) (key : Key) : Json.ReadFault → Failure
  | .malformed => .unreadableSetting key source
  | .exhausted reason => .recursion reason

/-- The value of a variable for a field. -/
def decode (limits : Json.Limits) (source : SettingsSource) (key : Key) (raw : String) :
    Except Failure (Option Json) :=
  if key = .skipDirectories then
    match Json.readWithin limits (Text.ofString raw) with
    | .error fault => .error (failureOf source key fault)
    | .ok .null => .ok none
    | .ok value => .ok (some value)
  else .ok (some (.string (Text.ofString raw)))

def valueIn (limits : Json.Limits) (source : SettingsSource)
    (bindings : List EnvironmentFile.Binding) (key : Key) : Except Failure (Option Json) :=
  match rawValue key bindings with
  | some (some raw) => decode limits source key raw
  | _ => .ok none

def valuesIn (limits : Json.Limits) (source : SettingsSource)
    (bindings : List EnvironmentFile.Binding) : List Key → Except Failure (List (Key × Json))
  | [] => .ok []
  | key :: rest => do
    let value ← valueIn limits source bindings key
    let others ← valuesIn limits source bindings rest
    return (value.toList.map fun found => (key, found)) ++ others

def environmentFilePath : Path := Path.ofString ".env"

def fileVariables (files : FileSystem) (environment : Environment) :
    Except Failure (List EnvironmentFile.Binding) :=
  match files.find? environmentFilePath with
  | .ok (some (_, .file _)) =>
    match files.readText environmentFilePath with
    | .ok characters => .ok (EnvironmentFile.assignments environment.bindings characters)
    | .error error => .error (.read error)
  | _ => .ok []

/-- The settings of a run, from values given directly, the environment and the environment file. -/
def load (files : FileSystem) (environment : Environment) (values : Json) :
    Except Failure Settings := do
  let fromFile ← fileVariables files environment
  let inEnvironment ← valuesIn environment.limits .environment
    (environment.bindings.map fun (name, value) => (name, some value)) Key.all
  let inFile ← valuesIn environment.limits .environmentFile fromFile Key.all
  let given (key : Key) : Option Json :=
    (values.member? key.name) <|> inEnvironment.lookup key <|> inFile.lookup key
  match ofGiven given with
  | .ok settings => return settings
  | .error error => throw (.invalid error)

end Settings

end ModuleFence
