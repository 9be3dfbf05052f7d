import NodeShader.CommandLine

/-!
The program: the command line on the files of the machine. Warnings go to standard error.
-/

namespace NodeShader

namespace CommandLine

def fileError : IO.Error → FileError
  | .noFileOrDirectory _ _ _ => .notFound
  | error => .other error.toString

def machine : Host IO where
  read path := do
    try return .ok (← IO.FS.readFile path)
    catch error => return .error (fileError error)
  write path text := do
    try
      IO.FS.writeFile path text
      return .ok ()
    catch error => return .error (fileError error)
  -- Programs are taken as they are, for no check of them is at hand.
  check _ := .ok ()
  notify notice := do
    if notice.level = .warning then IO.eprintln (notice.level.name ++ " " ++ notice.message)

/-- Runs the command line on the machine. -/
def runMachine (arguments : List String) : IO Exit := do
  return exit (← (perform machine arguments).run)

end CommandLine

end NodeShader

def main (arguments : List String) : IO UInt32 := do
  let exit ← NodeShader.CommandLine.runMachine arguments
  IO.print exit.stdout
  IO.eprint exit.stderr
  return exit.code.toUInt32
