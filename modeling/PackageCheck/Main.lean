import PackageCheck.Cli.Command

/-! # The program

The inputs that a command line names are read here, and its output is printed. What is printed is
decided by `Cli.compile`. -/

open PackageCheck.Cli

/-- Reads the bytes of a file. -/
def readInput (path : String) : IO Input := do
  try
    return .ok (← IO.FS.readBinFile path)
  catch err =>
    match err with
    | .noFileOrDirectory .. => return .missing
    | err => return .error (toString err)

/-- Reads the bytes of standard input to their end. -/
partial def readStdin (stream : IO.FS.Stream) (read : ByteArray) : IO ByteArray := do
  let chunk ← stream.read 65536
  if chunk.isEmpty then return read else readStdin stream (read ++ chunk)

/-- Runs the command line, and returns the exit code. -/
def main (args : List String) : IO UInt32 := do
  let result ←
    match Options.ofArgs args with
    | .error err => pure (.error (.option err))
    | .ok options =>
      let inputs ← options.paths.mapM fun path => return (path, ← readInput path)
      let stdin ← if inputs.isEmpty then readStdin (← IO.getStdin) .empty else pure .empty
      pure (compile options inputs (.ok stdin))
  match result with
  | .ok output =>
    IO.print output
    return 0
  | .error (.option .help) =>
    IO.println usage
    return 0
  | .error failure =>
    IO.eprintln failure.message
    return 1
