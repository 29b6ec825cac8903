import ContentSchema.Files.Error
import ContentSchema.Json.Printer
import ContentSchema.Script.Output
/-!
# Running helper scripts

Two helper scripts run in the project's JavaScript runtime: one bundles a module, the other imports
one and describes its exports. A script is handed to the runtime as an argument and finds its request,
as JSON text, in the environment. Programs that run scripts are written against `ScriptHost`.

A runtime that is not there is a failure of its own. Any other reason why a script was not started is
shown as the system puts it, and two of them are known beforehand: `ScriptRun.refusal?`.
-/

namespace ContentSchema

/-- A helper script. -/
inductive HelperScript where
  | bundle
  | introspection
deriving DecidableEq, Repr

/-- The name of a script in messages. -/
def HelperScript.name : HelperScript → String
  | .bundle => "bundle"
  | .introspection => "introspection"

/-- All that one run of a script needs. -/
structure ScriptRun where
  /-- The runtime that runs it. -/
  runtime : String
  script : HelperScript
  request : Json
  /-- The directory in which it runs. -/
  directory : String
  /-- How long it may take, in milliseconds. -/
  timeout : Nat

namespace ScriptRun

/-- The variable of the environment that holds the request. -/
def requestVariable : String := "COLLECTION_SCHEMA_REQUEST"

/-- The arguments that stand before the text of a script. -/
def leadingArguments : List String := ["--input-type=module", "--eval"]

/-- How many bytes one variable of the environment takes, its name and the zero at its end included. -/
def maxVariableSize : Nat := 131072

/-- The size of the variable that holds the request: its name, an equals sign, the text and a zero. -/
def requestSize (run : ScriptRun) : Nat :=
  requestVariable.utf8ByteSize + run.request.compact.utf8ByteSize + 2

end ScriptRun

/-- Why a script was not started. -/
inductive StartError where
  /-- The runtime cannot be found or run. -/
  | runtime (error : FileError)
  /-- The name of the runtime holds the character zero. -/
  | zeroInName
  /-- The request does not fit into the environment. -/
  | requestTooLong
deriving DecidableEq, Repr

/-- The text of an error. -/
def StartError.message : StartError → String
  | .runtime error => error.message
  | .zeroInName => "nul byte found in provided data"
  | .requestTooLong => "Argument list too long (os error 7)"

/-- The failure of a script that was not started. -/
def StartError.failure (error : StartError) (run : ScriptRun) : ScriptFailure :=
  match error with
  | .runtime .notFound => .notInstalled run.runtime
  | error => .io ("spawn failed: " ++ error.message)

/-- How a script that was started came to its end. -/
inductive ScriptEnd where
  | finished (output : ScriptOutput)
  /-- It was stopped because its time was over. -/
  | stopped
deriving Repr

/-- Running scripts in a monad. -/
class ScriptHost (m : Type → Type) where
  runScript : ScriptRun → m (Except StartError ScriptEnd)

namespace ScriptRun

/-- Why no system starts a script, whatever files it has. -/
def refusal? (run : ScriptRun) : Option StartError :=
  if run.runtime.contains (Char.ofNat 0) then some .zeroInName
  else if maxVariableSize < run.requestSize then some .requestTooLong
  else none

variable {m : Type → Type} [Monad m] [ScriptHost m]

/-- What a script leaves behind. -/
def output (run : ScriptRun) : m (Except ScriptFailure ScriptOutput) := do
  match run.refusal? with
  | some error => return .error (error.failure run)
  | none =>
    match ← ScriptHost.runScript run with
    | .error error => return .error (error.failure run)
    | .ok .stopped => return .error (.timeout run.timeout)
    | .ok (.finished output) => return .ok output

/-- The reply of a script, or what to say when there is none. -/
def reply (run : ScriptRun) : m (Except String String) := do
  match ← run.output with
  | .ok output => return output.reply run.script.name
  | .error failure => return .error failure.message

end ScriptRun

end ContentSchema
