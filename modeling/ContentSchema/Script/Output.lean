import ContentSchema.Text.Blank
/-!
# Output of helper scripts

A helper script answers on its standard output, which user code may write to as well. The reply is
the last line that starts with the marker; trailing white space of the line does not belong to it.
What a script writes to standard error is kept for diagnostics, its tail only.
-/

namespace ContentSchema

/-- Why a helper script gave no output. -/
inductive ScriptFailure where
  /-- The runtime is not there. -/
  | notInstalled (path : String)
  /-- The script was stopped after this many milliseconds. -/
  | timeout (milliseconds : Nat)
  /-- It could not be started or waited for. -/
  | io (message : String)
deriving DecidableEq, Repr

/-- The text of a failure. -/
def ScriptFailure.message : ScriptFailure → String
  | .notInstalled path => "`" ++ path ++ "` is not installed"
  | .timeout milliseconds => "timed out after " ++ toString milliseconds ++ " ms"
  | .io message => message

/-- How a script ended. -/
inductive ExitStatus where
  | code (value : Nat)
  | signal (number : Nat) (name : String)
deriving DecidableEq, Repr

/-- The text of a status. -/
def ExitStatus.display : ExitStatus → String
  | .code value => "exit status: " ++ toString value
  | .signal number name => "signal: " ++ toString number ++ " (" ++ name ++ ")"

/-- What a finished script left behind. -/
structure ScriptOutput where
  status : ExitStatus
  stdout : String
  stderr : String
deriving Repr

/-- The characters that start a reply line. -/
def replyMarker : List Char := "@@collection-schema@@".toList

/-- What follows `lead` in a text that starts with it. -/
def stripLead (lead text : List Char) : Option (List Char) :=
  match lead, text with
  | [], rest => some rest
  | c :: lead, d :: text => if c = d then stripLead lead text else none
  | _ :: _, [] => none

/-- The payload of a line, if it is a reply. -/
def replyOfLine (line : List Char) : Option (List Char) := stripLead replyMarker (trimEndChars line)

/-- The payload of the last reply line of a text. -/
def extractReply (text : String) : Option String :=
  ((linesOf text.toList).reverse.findSome? replyOfLine).map String.ofList

/-- How many characters of standard error are kept. -/
def stderrLimit : Nat := 512

/-- The end of a text without the white space around it. -/
def stderrTail (text : String) : String :=
  let trimmed := trimChars text.toList
  String.ofList (trimmed.drop (trimmed.length - stderrLimit))

/-- The reply of a finished script, or what to say when there is none. -/
def ScriptOutput.reply (output : ScriptOutput) (scriptName : String) : Except String String :=
  match extractReply output.stdout with
  | some reply => .ok reply
  | none =>
    .error (scriptName ++ " script exited with " ++ output.status.display ++ " and no reply: " ++
      stderrTail output.stderr)

end ContentSchema
