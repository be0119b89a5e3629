import Trampoline.CommandLine.Execution

/-!
# The program

Takes the arguments, the environment and the files of the current directory, and
carries out the plan for them.
-/

namespace Trampoline

open CommandLine

/-- The text of a file, if it can be read. -/
def readFile? (name : String) : IO (Option String) := do
  try
    return some (← IO.FS.readFile name)
  catch _ =>
    return none

/-- The paths of the files that a plan may depend on. -/
def filePaths (location args : List String) : List String :=
  let config := match parse args with
    | .ok args => args.config
    | .error _ => none
  let path := settingsPath location config
  path :: (Path.withExtension? settingsExtension path).toList ++ environmentPaths location

/-- The variables of the environment, as the system lists them. -/
def readVariables : IO Settings.Variables := do
  match ← readFile? "/proc/self/environ" with
  | none => return []
  | some s =>
    return (s.splitOn "\x00").filterMap fun entry =>
      match entry.splitOn "=" with
      | name :: value :: rest => some (name, "=".intercalate (value :: rest))
      | _ => none

/-- The streams of the process. -/
def processStreams : Streams IO where
  console := ⟨IO.monoNanosNow, fun text => do IO.print text⟩
  writeError := fun text => do IO.eprint text

/-- Carry out what the arguments ask for, and give the code to end with. -/
def runProgram (args : List String) : IO UInt32 := do
  let location := ((← IO.currentDir).toString.splitOn "/").filter fun part => !part.isEmpty
  let files ← (filePaths location args).mapM fun path => do return (path, ← readFile? path)
  let invocation : Invocation :=
    { arguments := args
      env := ← readVariables
      location := location
      file? := fun path => (files.lookup path).join }
  return (← invocation.plan.carryOut processStreams).toUInt32

end Trampoline

/-- The program. -/
def main (args : List String) : IO UInt32 :=
  Trampoline.runProgram args
