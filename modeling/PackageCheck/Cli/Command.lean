import PackageCheck.Cli.Options
import PackageCheck.Codec.Tree
import PackageCheck.Json.Parser
import PackageCheck.Json.Printer
import PackageCheck.Package
import PackageCheck.Text.Blank

/-! # The command

The command reads stored files, checks them as one package and prints what was asked for. Files
that are named hold one file each, and a file without a name of its own takes the one it is read
by. Without names, standard input holds an array of files. In both, the data of a case may be given
in order, without names. -/

namespace PackageCheck.Cli

/-! ## Failures -/

/-- Why a command prints nothing. -/
inductive Failure where
  | option (err : OptionError)
  /-- An input could not be read. -/
  | unreadable (reason : String)
  /-- An input holds no stored files. -/
  | badJson
  | noInput
  | checkFailed (diagnostics : List Diagnostic)

/-- The help text. -/
def usage : String :=
  "Checks a package of parsed source files\n\n" ++
  "Usage: [--emit order|ast] [--package NAME] [INPUT...]\n\n" ++
  "INPUT: stored source files; an array of them is read from standard input without any\n"

/-- The text of a failure. -/
def Failure.message : Failure → String
  | .option .invalid => "invalid option"
  | .option .help => usage
  | .unreadable reason => reason
  | .badJson => "an input holds no stored source files"
  | .noInput => "no input files"
  | .checkFailed diagnostics => Diagnostic.report diagnostics

/-! ## Inputs -/

/-- The bytes of an input, or the reason why there are none. -/
abbrev Input := Except String ByteArray

/-- The input of a file that does not exist. -/
def Input.missing : Input := .error "No such file or directory (os error 2)"

/-- How deep the arrays and objects of a stored file may nest where they are read. What is skipped
    may nest deeper. -/
def nestingLimit : Nat := 127

/-- The text of an input. -/
def Input.text (input : Input) : Except Failure String :=
  match input with
  | .error reason => .error (.unreadable reason)
  | .ok bytes =>
    match String.fromUTF8? bytes with
    | some text => .ok text
    | none => .error (.unreadable "stream did not contain valid UTF-8")

/-- Reads a text with a reader of stored values. -/
def readStored (read : Json → Option α) (text : String) : Except Failure α :=
  match (Json.parse? nestingLimit text).bind read with
  | some value => .ok value
  | none => .error .badJson

/-- The file that an input holds. -/
def readFile (path : String) (input : Input) : Except Failure SourceFile := do
  let file ← readStored (SourceFile.ofJson? .listed) (← input.text)
  return if file.name.isEmpty then { file with name := path } else file

/-- The files that standard input holds. A blank text holds none. -/
def readFiles (input : Input) : Except Failure (List SourceFile) := do
  let text ← input.text
  if Text.isBlankText text then return []
  readStored (Json.list? (SourceFile.ofJson? .listed)) text

/-! ## Running -/

/-- The annotated files of a package, stored for a reader. -/
def renderAst (package : Package) : String :=
  (Json.ofList SourceFile.toJson package.files).pretty ++ "\n"

/-- Checks files as one package and prints what was asked for. -/
def emit (options : Options) (files : List SourceFile) : Except Failure String :=
  match files with
  | [] => .error .noInput
  | first :: _ =>
    let (package, diagnostics) := (Package.ofFiles (options.package.getD first.package) files).check
    if diagnostics.isEmpty then
      match options.emit with
      | .order => .ok package.renderOrder
      | .ast => .ok (renderAst package)
    else .error (.checkFailed diagnostics)

/-- Runs a command on named inputs, or on standard input without any. The first input that cannot
    be used is the failure. -/
def compile (options : Options) (inputs : List (String × Input)) (stdin : Input) :
    Except Failure String := do
  let files ←
    if inputs.isEmpty then readFiles stdin
    else inputs.mapM fun (path, input) => readFile path input
  emit options files

/-- Runs a command line. -/
def run (args : List String) (read : String → Input) (stdin : Input) : Except Failure String := do
  let options ← (Options.ofArgs args).mapError .option
  compile options (options.paths.map fun path => (path, read path)) stdin

end PackageCheck.Cli
