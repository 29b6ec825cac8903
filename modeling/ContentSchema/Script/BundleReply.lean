import ContentSchema.CompileError
import ContentSchema.Json.Layout
import ContentSchema.Json.Record
import ContentSchema.Script.Output
/-!
# Replies of the bundler

The bundler replies with the code of the bundle, or with diagnostics of which the first one counts.
It is a failure of the tool itself when it says so, an unresolved import when its text quotes what
could not be resolved, and a syntax error otherwise.
-/

namespace ContentSchema

/-- One diagnostic of the bundler. -/
structure Diagnostic where
  kind : Option String
  text : String
  file : Option String
  line : Option Nat
  column : Option Nat
deriving DecidableEq, Repr

/-- A reply of the bundler. -/
structure BundleReply where
  ok : Bool
  code : Option String
  errors : List Diagnostic
deriving DecidableEq, Repr

namespace Diagnostic

/-- Reads a diagnostic. -/
def ofJson? (tree : Json) : Option Diagnostic := do
  let fields ← Record.of? ["kind", "text", "file", "line", "column"] tree
  return {
    kind := ← fields.optional "kind" Json.asString?
    text := ← fields.required "text" Json.asString?
    file := ← fields.optional "file" Json.asString?
    line := ← fields.optional "line" Json.asNat?
    column := ← fields.optional "column" Json.asNat? }

/-- The file of a diagnostic, with line and column as far as they are known. -/
def location (diagnostic : Diagnostic) : Option String :=
  diagnostic.file.map fun file ↦
    match diagnostic.line, diagnostic.column with
    | some line, some column => file ++ ":" ++ toString line ++ ":" ++ toString column
    | some line, none => file ++ ":" ++ toString line
    | none, _ => file

/-- What stands before the quoted specifier of an unresolved import. -/
def unresolvedLead : List Char := "Could not resolve \"".toList

/-- The text up to a closing quote, if that is not empty. -/
def quotedText? (text : List Char) : Option (List Char) :=
  let inside := text.takeWhile (· ≠ '"')
  if inside.isEmpty || inside.length = text.length then none else some inside

/-- The specifier that a text says could not be resolved: of all places where it does, the first. -/
def unresolved? : List Char → Option (List Char)
  | [] => none
  | c :: rest =>
    match (stripLead unresolvedLead (c :: rest)).bind quotedText? with
    | some specifier => some specifier
    | none => unresolved? rest

/-- The error that a diagnostic reports. -/
def classify (diagnostic : Diagnostic) : BundleError :=
  if diagnostic.kind = some "tool" then .tool diagnostic.text
  else
    match unresolved? diagnostic.text.toList with
    | some specifier => .unresolvedImport (String.ofList specifier) diagnostic.location
    | none => .badSyntax diagnostic.text diagnostic.location

end Diagnostic

namespace BundleReply

/-- Reads a reply. -/
def ofJson? (tree : Json) : Option BundleReply := do
  let fields ← Record.of? ["ok", "code", "errors"] tree
  return {
    ok := ← fields.required "ok" Json.asBool?
    code := ← fields.optional "code" Json.asString?
    errors := ← fields.defaulted "errors" [] (Json.asList? Diagnostic.ofJson?) }

/-- What is read of a reply. -/
def layout : Layout :=
  .record [("ok", .all), ("code", .all),
    ("errors", .list (.record [("kind", .all), ("text", .all), ("file", .all), ("line", .all),
      ("column", .all)]))]

/-- The code of a reply, or the error that it reports. -/
def outcome (reply : BundleReply) : Except BundleError String :=
  if reply.ok then
    match reply.code with
    | some code => .ok code
    | none => .error (.tool "bundle reply is missing code")
  else
    match reply.errors with
    | [] => .error (.tool "bundler failed without diagnostics")
    | first :: _ => .error first.classify

end BundleReply

/-- The bundled code that the text of a reply gives. -/
def bundledCode (text : String) : Except BundleError String :=
  match BundleReply.layout.read? BundleReply.ofJson? text with
  | some reply => reply.outcome
  | none => .error (.tool "malformed bundle reply: not a reply of the bundle script")

end ContentSchema
