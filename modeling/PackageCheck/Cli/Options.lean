/-! # Command-line options

The options of the command line are `--emit order|ast` and `--package NAME`, with the value in the
next argument or behind a `=`, each at most once. All other arguments are files, in any order with
the options, and so is everything behind `--`. Anything else that starts with a `-` is no option,
but for the `-` alone, which is a file. -/

namespace PackageCheck.Cli

/-! ## What to print -/

/-- What to print about a checked package. -/
inductive EmitKind where
  /-- The top-level statements in the order in which they were checked. -/
  | order
  /-- The annotated files. -/
  | ast
deriving DecidableEq, Inhabited

namespace EmitKind

/-- The name of a kind on the command line. -/
def name : EmitKind → String
  | order => "order"
  | ast => "ast"

/-- The kind of a name. The error is its text. -/
def ofName (text : String) : Except String EmitKind :=
  match [order, ast].find? (·.name == text) with
  | some kind => .ok kind
  | none => .error ("Unknown emit option: `" ++ text ++ "`")

end EmitKind

/-! ## Options -/

/-- The options of a command. -/
structure Options where
  emit : EmitKind := .order
  /-- The name that the package must have. Without one the first file decides. -/
  package : Option String := none
  paths : List String := []
deriving Inhabited

/-- Why arguments give no options. -/
inductive OptionError where
  | invalid
  /-- The help text or the version was asked for. -/
  | help
deriving DecidableEq

/-- The options that take a value. -/
inductive Flag where
  | emit
  | package
deriving DecidableEq

/-- The arguments read so far. An occurrence of an option is `none` until its value is read, and
    the last one stands first. -/
structure Scan where
  emit : List (Option String) := []
  package : List (Option String) := []
  paths : List String := []
  /-- The option whose value may come next. -/
  waiting : Option Flag := none
  /-- Whether only files can follow. -/
  filesOnly : Bool := false

namespace Scan

/-- Adds an occurrence of an option, which waits for its value if it has none. -/
def occur (scan : Scan) (flag : Flag) (value : Option String) : Scan :=
  let scan := { scan with waiting := if value.isNone then some flag else none }
  match flag with
  | .emit => { scan with emit := value :: scan.emit }
  | .package => { scan with package := value :: scan.package }

/-- Gives the last occurrence of an option its value. -/
def fill (scan : Scan) (flag : Flag) (value : String) : Scan :=
  let scan := { scan with waiting := none }
  match flag with
  | .emit => { scan with emit := some value :: scan.emit.tail }
  | .package => { scan with package := some value :: scan.package.tail }

/-- Takes an argument that starts with two dashes. More dashes change nothing. -/
def long (scan : Scan) (cs : List Char) : Except OptionError Scan :=
  let body := cs.dropWhile (· == '-')
  let value :=
    match body.dropWhile (· != '=') with
    | [] => none
    | rest => some (String.ofList (rest.dropWhile (· == '=')))
  match String.ofList (body.takeWhile (· != '=')) with
  | "emit" => .ok (scan.occur .emit value)
  | "package" => .ok (scan.occur .package value)
  | "help" | "version" => .error .help
  | _ => .error .invalid

/-- Takes one argument. -/
def step (scan : Scan) (arg : String) : Except OptionError Scan :=
  if scan.filesOnly then .ok { scan with paths := scan.paths ++ [arg] }
  else match arg.toList with
    | ['-', '-'] => .ok { scan with filesOnly := true, waiting := none }
    | '-' :: '-' :: rest => scan.long rest
    | '-' :: 'h' :: _ | '-' :: 'V' :: _ => .error .help
    | '-' :: _ :: _ => .error .invalid
    | _ =>
      match scan.waiting with
      | some flag => .ok (scan.fill flag arg)
      | none => .ok { scan with paths := scan.paths ++ [arg] }

/-- The value of an option that occurs at most once and has a value if it occurs. -/
def single : List (Option String) → Except OptionError (Option String)
  | [] => .ok none
  | [some value] => .ok (some value)
  | _ => .error .invalid

/-- The options that the arguments give. -/
def finish (scan : Scan) : Except OptionError Options := do
  let emit ← single scan.emit
  let package ← single scan.package
  let kind ← match emit with
    | none => pure .order
    | some text => (EmitKind.ofName text).mapError fun _ => .invalid
  return { emit := kind, package := package, paths := scan.paths }

end Scan

/-- The options that a list of arguments gives. -/
def Options.ofArgs (args : List String) : Except OptionError Options := do
  let scan ← args.foldlM Scan.step {}
  scan.finish

end PackageCheck.Cli
