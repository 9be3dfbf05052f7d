import NodeShader.Compile.Shader
import NodeShader.Graph.Document

/-!
The command line: it reads a graph from a file, compiles it, and prints the program or writes it
to a file. It works on any host that can read and write files, such as the model of one given here.
-/

namespace NodeShader

namespace CommandLine

structure Arguments where
  graph : Option String := none
  out : Option String := none
  /-- Whether the program is to be checked. -/
  validate : Bool := false
  strict : Bool := false
  deriving DecidableEq, Repr

/-- Why a file could not be read or written. -/
inductive FileError where
  | notFound
  | other (text : String)
  deriving DecidableEq, Repr

inductive Failure where
  | missingValue (option : String)
  | unknownArgument (argument : String)
  | missingGraph
  | unreadable (path : String) (reason : FileError)
  | invalidGraph (path : String)
  | uncompilable (path : String) (error : CompileError)
  | invalidProgram (path reason : String)
  | unwritable (path : String) (reason : FileError)
  deriving DecidableEq, Repr

def usage : String :=
  "usage: shade-graph-compile --graph <graph.json> [--out <shader.wgsl>] [--validate] [--strict]"

namespace FileError

def message : FileError → String
  | .notFound => "No such file or directory (os error 2)"
  | .other text => text

end FileError

namespace Failure

/-- What failed, followed by its causes. -/
def messages : Failure → List String
  | .missingValue option => ["missing value for " ++ option]
  | .unknownArgument argument => ["unknown argument: " ++ argument ++ "\n" ++ usage]
  | .missingGraph => ["missing --graph\n" ++ usage]
  | .unreadable path reason => ["failed to read graph json at " ++ path, reason.message]
  | .invalidGraph path =>
    ["invalid graph in " ++ path, "failed to parse graph json", "not the document of a graph"]
  | .uncompilable path error => ["failed to compile " ++ path, error.message]
  | .invalidProgram path reason => [path ++ " generated invalid WGSL", reason]
  | .unwritable path reason => ["failed to write " ++ path, reason.message]

/-- A text of several lines, with a margin before each line but the first. -/
def indented (margin text : String) : String :=
  String.ofList (text.toList.flatMap fun c => if c = '\n' then c :: margin.toList else [c])

def numbered (causes : List String) : String :=
  String.join (causes.zipIdx.map fun (cause, number) =>
    "    " ++ toString number ++ ": " ++ indented "       " cause ++ "\n")

/-- The report of a failure: several causes are numbered. -/
def report (failure : Failure) : String :=
  match failure.messages with
  | [] => ""
  | [message] => "Error: " ++ message ++ "\n"
  | [message, cause] =>
    "Error: " ++ message ++ "\n\nCaused by:\n    " ++ indented "    " cause ++ "\n"
  | message :: causes => "Error: " ++ message ++ "\n\nCaused by:\n" ++ numbered causes

end Failure

namespace Arguments

/-- Reads arguments one option after the other; of a repeated option the last value counts. -/
def readFrom (known : Arguments) : List String → Except Failure Arguments
  | [] => .ok known
  | "--graph" :: rest =>
    match rest with
    | value :: rest => readFrom { known with graph := some value } rest
    | [] => .error (.missingValue "--graph")
  | "--out" :: rest | "-o" :: rest =>
    match rest with
    | value :: rest => readFrom { known with out := some value } rest
    | [] => .error (.missingValue "--out")
  | "--validate" :: rest => readFrom { known with validate := true } rest
  | "--strict" :: rest => readFrom { known with strict := true } rest
  | argument :: _ => .error (.unknownArgument argument)

def read (arguments : List String) : Except Failure Arguments := readFrom {} arguments

def options (arguments : Arguments) : Options := if arguments.strict then .strict else .lenient

end Arguments

/-- A check of programs; what is wrong with one is told in words. -/
abbrev Check := String → Except String Unit

/-- What the command line needs from where it runs. -/
structure Host (m : Type → Type) where
  read : String → m (Except FileError String)
  write : String → String → m (Except FileError Unit)
  check : Check
  notify : Notice → m Unit

variable {m : Type → Type} [Monad m]

/-- Loads the graph of a file. -/
def load (host : Host m) (path : String) : ExceptT Failure m Graph := do
  let text ← ExceptT.mk do return (← host.read path).mapError (.unreadable path)
  let some graph := Graph.read? text | throw (.invalidGraph path)
  return graph

/-- Makes the program that arguments ask for. -/
def make (host : Host m) (arguments : Arguments) : ExceptT Failure m String := do
  let some path := arguments.graph | throw .missingGraph
  let graph ← load host path
  let outcome := graph.compile arguments.options
  outcome.notices.forM fun notice => ExceptT.lift (host.notify notice)
  let shader ← ExceptT.mk (pure (outcome.result.mapError (.uncompilable path)))
  if arguments.validate then
    ExceptT.mk (pure ((host.check shader.text).mapError (.invalidProgram path)))
  return shader.text

/-- Writes a program to the file that arguments name, if they do; the result is the text to print. -/
def deliver (host : Host m) (arguments : Arguments) (program : String) :
    ExceptT Failure m String := do
  match arguments.out with
  | none => return program
  | some out =>
    ExceptT.mk do return (← host.write out program).mapError (.unwritable out)
    return "[shade-graph] wrote: " ++ out ++ "\n"

/-- Carries out the arguments; the result is the text to print. -/
def perform (host : Host m) (arguments : List String) : ExceptT Failure m String := do
  let arguments ← ExceptT.mk (pure (Arguments.read arguments))
  deliver host arguments (← make host arguments)

/-- How a run ends. -/
structure Exit where
  code : Nat
  stdout : String
  stderr : String
  deriving DecidableEq, Repr

def exit : Except Failure String → Exit
  | .ok text => ⟨0, text, ""⟩
  | .error failure => ⟨1, "", failure.report⟩

/-- Files by their paths, of which some can be made or written. -/
structure FileSystem where
  files : List (String × String)
  writable : String → Bool

namespace FileSystem

def read (system : FileSystem) (path : String) : Except FileError String :=
  match system.files.lookup path with
  | some text => .ok text
  | none => .error .notFound

/-- Writes the whole text or changes nothing. -/
def write (system : FileSystem) (path text : String) : Except FileError FileSystem :=
  if system.writable path then .ok { system with files := putEntry system.files path text }
  else .error .notFound

theorem read_write {system after : FileSystem} {path text : String}
    (written : system.write path text = .ok after) (other : String) :
    after.read other = if other = path then .ok text else system.read other := by
  unfold write at written
  split at written
  · cases written
    simp only [read, lookup_putEntry]
    by_cases h : other = path
    · simp [h]
    · simp only [h, if_false]
  · cases written

/-- A host that works on a file system and keeps notices to itself. -/
def host (check : Check) : Host (StateM FileSystem) where
  read path := return (← get).read path
  write path text := do
    match (← get).write path text with
    | .ok system => set system; return .ok ()
    | .error reason => return .error reason
  check := check
  notify _ := return ()

/-- Runs the command line on a file system, with a check of programs. -/
def runWith (check : Check) (system : FileSystem) (arguments : List String) : Exit × FileSystem :=
  let (result, system) := (perform (host check) arguments).run.run system
  (exit result, system)

/-- Runs the command line where every program passes the check. -/
def run (system : FileSystem) (arguments : List String) : Exit × FileSystem :=
  system.runWith (fun _ => .ok ()) arguments

end FileSystem

end CommandLine

end NodeShader
