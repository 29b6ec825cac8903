import ContentSchema.Report
/-!
# Command lines

The words of a command line are read from left to right, and the first thing that is wrong with them
ends the reading, as does a request for help. An option takes its value from the next word or after an
equals sign; the next word is no value if it starts like an option, unless it is a dash alone. No
option may be given twice.
-/

namespace ContentSchema

/-- Which project a command works on, and with what. -/
structure ProjectOptions where
  /-- The root of the project. -/
  project : String := "."
  /-- A settings file to use in the place of the project's own. -/
  config : Option String := none
  /-- A runtime to use in the place of the one in the settings. -/
  node : Option String := none
deriving DecidableEq, Repr

/-- A command. -/
inductive Command where
  /-- Compiles the schema module and prints the result, or one collection of it. -/
  | compile (options : ProjectOptions) (format : ReportFormat) (collection : Option String)
      (enrich : Bool)
  /-- Prints the path of the schema module. -/
  | resolve (options : ProjectOptions)
deriving DecidableEq, Repr

/-- What a command line asks for. -/
inductive Invocation where
  | run (command : Command)
  /-- A text is to be shown, and that is all. -/
  | inform (text : String)
  /-- The command line is wrong. -/
  | misuse (message : String)
deriving DecidableEq, Repr

namespace CommandLine

/-- What an option takes. -/
inductive OptionKind where
  /-- Nothing. -/
  | flag
  /-- A path, which is not empty. -/
  | path
  /-- Any text. -/
  | text
  /-- The name of a report format. -/
  | format
deriving DecidableEq, Repr

/-- Whether an option of a kind takes a value. -/
def OptionKind.accepts : OptionKind → String → Bool
  | .flag, _ => false
  | .path, value => value ≠ ""
  | .text, _ => true
  | .format, value => (ReportFormat.ofName? value).isSome

/-- The options of every command. -/
def projectOptions : List (String × OptionKind) :=
  [("--project", .path), ("--config", .path), ("--node", .path)]

/-- The options of `compile`. -/
def compileOptions : List (String × OptionKind) :=
  projectOptions ++ [("--format", .format), ("--collection", .text), ("--enrich", .flag)]

/-- Why the reading of options ends early. -/
inductive Stop where
  | help
  | misuse (message : String)
deriving DecidableEq, Repr

/-- Whether a word starts like an option. -/
def looksLikeOption (word : String) : Bool := word.toList.head? == some '-' && word ≠ "-"

/-- A word up to its first equals sign, and what follows that. -/
def splitAtEquals (word : String) : String × Option String :=
  let name := word.toList.takeWhile (· ≠ '=')
  match word.toList.drop name.length with
  | [] => (word, none)
  | _ :: value => (String.ofList name, some (String.ofList value))

/-- Records the value of an option. -/
def give (name : String) (kind : OptionKind) (value : String) (given : Keyed String) :
    Except Stop (Keyed String) :=
  if !kind.accepts value then
    .error (.misuse ("invalid value '" ++ value ++ "' for '" ++ name ++ "'"))
  else if given.contains name then
    .error (.misuse ("the argument '" ++ name ++ "' cannot be used multiple times"))
  else .ok (given.insert name value)

/-- Records a flag. -/
def raise (name : String) (given : Keyed String) : Except Stop (Keyed String) :=
  if given.contains name then
    .error (.misuse ("the argument '" ++ name ++ "' cannot be used multiple times"))
  else .ok (given.insert name "")

/-- Reads the options of a command, given those before. -/
def readOptions (options : List (String × OptionKind)) (given : Keyed String) :
    List String → Except Stop (Keyed String)
  | [] => .ok given
  | word :: rest =>
    let (name, attached) := splitAtEquals word
    if word = "--" then
      match rest with
      | [] => .ok given
      | extra :: _ => .error (.misuse ("unexpected argument '" ++ extra ++ "' found"))
    else if word = "--help" || (looksLikeOption word && word.toList[1]? == some 'h') then .error .help
    else
      match options.lookup name, attached with
      | none, _ => .error (.misuse ("unexpected argument '" ++ word ++ "' found"))
      | some .flag, none => do readOptions options (← raise name given) rest
      | some .flag, some value =>
        .error (.misuse ("unexpected value '" ++ value ++ "' for '" ++ name ++ "' found"))
      | some kind, some value => do readOptions options (← give name kind value given) rest
      | some kind, none =>
        match rest with
        | [] => .error (.misuse ("a value is required for '" ++ name ++ "' but none was supplied"))
        | value :: others =>
          if looksLikeOption value then
            .error (.misuse ("a value is required for '" ++ name ++ "' but none was supplied"))
          else do readOptions options (← give name kind value given) others

/-- The project that options choose. -/
def projectOf (given : Keyed String) : ProjectOptions where
  project := (given.find? "--project").getD "."
  config := given.find? "--config"
  node := given.find? "--node"

/-- The compile command that options choose. -/
def compileOf (given : Keyed String) : Command :=
  .compile (projectOf given) (((given.find? "--format").bind ReportFormat.ofName?).getD .json)
    (given.find? "--collection") (given.contains "--enrich")

/-! ### Texts -/

/-- What the program says about itself. -/
def versionText : String := "collection-schema 0.1.0\n"

/-- The lines about the options of every command. -/
def projectHelp : String :=
  "      --project <PROJECT>        Root of the host project [default: .]\n" ++
  "      --config <CONFIG>          Configuration file (default: <project>/.collection-schema.yml when present)\n" ++
  "      --node <NODE>              JavaScript runtime to run the bundler and loader with\n"

/-- Help for the program. -/
def programHelp : String :=
  "Compile content collection schemas to JSON Schema\n\n" ++
  "Usage: collection-schema <COMMAND>\n\n" ++
  "Commands:\n" ++
  "  compile  Compile the schema-definition module and print the result\n" ++
  "  resolve  Print which schema-definition file would be compiled\n" ++
  "  help     Print this message or the help of the given subcommand(s)\n\n" ++
  "Options:\n" ++
  "  -h, --help     Print help\n" ++
  "  -V, --version  Print version\n"

/-- Help for `compile`. -/
def compileHelp : String :=
  "Compile the schema-definition module and print the result\n\n" ++
  "Usage: collection-schema compile [OPTIONS]\n\n" ++
  "Options:\n" ++ projectHelp ++
  "      --format <FORMAT>          Output format [default: json] [possible values: json, yaml, markdown]\n" ++
  "      --collection <COLLECTION>  Print only this collection\n" ++
  "      --enrich                   Attach block types to array fields holding discriminated unions\n" ++
  "  -h, --help                     Print help\n"

/-- Help for `resolve`. -/
def resolveHelp : String :=
  "Print which schema-definition file would be compiled\n\n" ++
  "Usage: collection-schema resolve [OPTIONS]\n\n" ++
  "Options:\n" ++ projectHelp ++
  "  -h, --help                     Print help\n"

/-- What a command line asks for when its options have been read. -/
def conclude (help : String) (command : Keyed String → Command) :
    Except Stop (Keyed String) → Invocation
  | .ok given => .run (command given)
  | .error .help => .inform help
  | .error (.misuse message) => .misuse message

/-- Reads the words that follow `help`. -/
def readHelp : List String → Invocation
  | [] => .inform programHelp
  | ["compile"] => .inform compileHelp
  | ["resolve"] => .inform resolveHelp
  | ["help"] => .inform programHelp
  | word :: _ => .misuse ("unrecognized subcommand '" ++ word ++ "'")

/-- Reads a command line. -/
def read : List String → Invocation
  | [] => .misuse "a subcommand is required"
  | word :: rest =>
    if word = "compile" then conclude compileHelp compileOf (readOptions compileOptions [] rest)
    else if word = "resolve" then
      conclude resolveHelp (.resolve ∘ projectOf) (readOptions projectOptions [] rest)
    else if word = "help" then readHelp rest
    else if word = "--help" || (looksLikeOption word && word.toList[1]? == some 'h') then
      .inform programHelp
    else if word = "--version" || (looksLikeOption word && word.toList[1]? == some 'V') then
      .inform versionText
    else .misuse ("unrecognized subcommand '" ++ word ++ "'")

end CommandLine

end ContentSchema
