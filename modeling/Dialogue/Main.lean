import Dialogue.Command

/-!
# The program

The outermost layer: commands meet real files, the real clock and the console. It decides nothing
that a rehearsal of the program does not decide.

## Main definitions

* `Console.system` — the surroundings of a command
* `Console.run` — what a command line asks for
* `main`
-/

namespace Dialogue.Console

/-- Whether a code stands for the error of a number. Some operations give the number itself, others
its negative. -/
def isNumber (code number : UInt32) : Bool := code == number || code == 0 - number

/-- Why an operation on files failed. -/
def fileError (e : IO.Error) : FileError :=
  match e with
  | .noFileOrDirectory .. => .notFound
  | .alreadyExists .. => .alreadyExists
  | .inappropriateType _ code _ | .invalidArgument _ code _ =>
    if isNumber code 20 then .notDirectory
    else if isNumber code 21 then .isDirectory
    else if isNumber code 36 then .nameTooLong
    else .other (toString e)
  | e => .other (toString e)

/-- Carries out an operation on the file at a path. -/
def attempt {α : Type} (path : String) (act : IO α) : IO (Except FileError α) := do
  if Text.hasZero path then return .error .zeroInName
  try return .ok (← act)
  catch e => return .error (fileError e)

/-- Whether there is something at a path. -/
def pathExists (path : String) : IO Bool := do
  if Text.hasZero path then return false else ((← IO.currentDir) / path).pathExists

/-- Whether there is a directory at a path. -/
def isDirectory (path : String) : IO Bool := do
  if Text.hasZero path then return false else ((← IO.currentDir) / path).isDir

/-- Real files, the console and the environment of the program. -/
def system : System IO where
  pathExists := pathExists
  isDirectory := isDirectory
  read path := attempt path (IO.FS.readFile path)
  createDirectory path := attempt path (IO.FS.createDir path)
  write path text := attempt path (IO.FS.writeFile path text)
  print := IO.println
  environment key := IO.getEnv key

/-- The instant at which a chat is, given the milliseconds at which it began. -/
def elapsed (start : Nat) : IO Instant := do
  return ⟨((← IO.monoMsNow) - start) * 1000000⟩

/-- Waits until a line of input is there, and shows meanwhile what the session says. -/
partial def awaitLine (start : Nat) (line : Task (Except IO.Error String)) (c : Chat) :
    IO ChatState := do
  if ← IO.hasFinished line then return .listening c
  IO.sleep 20
  let (said, state) := c.catchUp (← elapsed start)
  said.forM IO.println
  match state with
  | .listening c => awaitLine start line c
  | other => return other

/-- Goes on with a chat until it ends, and gives the reason for which it failed, if it did. -/
partial def converse (start : Nat) (input : IO.FS.Stream) : ChatState →
    IO (Option CommandError)
  | .failed e => return some e
  | .discarded => return none
  | .left _ => do
    IO.println Chat.farewell
    return none
  | .listening c => do
    let line ← IO.asTask input.getLine
    match ← awaitLine start line c with
    | .listening c =>
      match line.get with
      | .error e => return some (.file (fileError e))
      | .ok "" => converse start input (.left c)
      | .ok line =>
        let (said, state) := c.hear (← elapsed start) line
        said.forM IO.println
        converse start input state
    | other => converse start input other

/-- Shows why a command failed, and gives the code that the program ends with. -/
def finish : Option CommandError → IO UInt32
  | none => return 0
  | some e => do
    IO.eprintln ("Error: " ++ e.report)
    return 1

/-- Carries out what a command line asks for. -/
def run (args : List String) : IO UInt32 := do
  let config ← IO.getEnv Invocation.configVariable
  match Invocation.ofArguments args config with
  | .error stop => do
    IO.print (stop.output config)
    if stop == .misuse then (Stop.helpLines config none).forM IO.eprintln
    return UInt32.ofNat stop.code
  | .ok i =>
    match ← (i.command.run system i.config).run with
    | .error e => finish (some e)
    | .ok none => finish none
    | .ok (some (said, state)) => do
      said.forM IO.println
      finish (← converse (← IO.monoMsNow) (← IO.getStdin) state)

end Dialogue.Console

/-- Carries out what the command line asks for. -/
def main (args : List String) : IO UInt32 := Dialogue.Console.run args
