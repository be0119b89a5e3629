import Trampoline.CommandLine.Arguments
import Trampoline.CommandLine.Directory
import Trampoline.EnvironmentFile
import Trampoline.Log.Filter
import Trampoline.Settings.Document
import Trampoline.Settings.Load

/-!
# Plans

What the program is going to do, given its arguments, its environment and the files
around it.

Main definitions:

- `Invocation`: what the program is given.
- `Plan`: what it does.
- `Invocation.plan`: the plan for an invocation.
-/

namespace Trampoline.CommandLine

open Settings

/-- What the program is given. -/
structure Invocation where
  arguments : List String
  env : Variables
  /-- The directory in which the program runs, as the names from the root to it. -/
  location : List String
  /-- The text of the file at an absolute path, if there is one. -/
  file? : String → Option String

/-- What the program does. -/
inductive Plan where
  /-- Say what is wrong with the arguments, or give help. -/
  | usage (fault : UsageFault)
  /-- Stop with a message. -/
  | stop (message : String)
  /-- Print a text. -/
  | print (text : String)
  /-- Conduct a benchmark. -/
  | conduct (params : Benchmark.Params)
  /-- Complain first, and go on. -/
  | complain (message : String) (next : Plan)

/-- The file of environment variables. -/
def environmentFileName : String :=
  ".env"

/-- The settings file, unless the arguments name another. -/
def settingsFileName : String :=
  "runloop.toml"

/-- The extension of a settings file. -/
def settingsExtension : String :=
  "toml"

/-- The environment variable that holds the filter of the log. -/
def filterVariable : String :=
  "RUST_LOG"

/-- The paths at which the environment file may stand: in a directory or above it. -/
def environmentPaths (location : List String) : List String :=
  Path.inAncestors environmentFileName location.reverse

/-- The absolute path that arguments give a settings file. -/
def settingsPath (location : List String) (config : Option String) : String :=
  Path.absolute ("/" ++ "/".intercalate location) (config.getD settingsFileName)

namespace Invocation

/-- The environment with the variables of the nearest environment file. -/
def environment (invocation : Invocation) : Variables :=
  match (environmentPaths invocation.location).findSome? invocation.file? with
  | some file => EnvironmentFile.extend invocation.env file
  | none => invocation.env

/-- The settings file at an absolute path, the extension of which may be left out.

Only TOML files are read.  A file in one of the other formats that a loader may tell by their
extensions (json, yaml, ini, ron, json5) is not modelled: it counts as missing. -/
def settingsFile? (invocation : Invocation) (path : String) : Option String :=
  match invocation.file? path with
  | some s => if Path.hasExtension settingsExtension path then some s else none
  | none => do invocation.file? (← Path.withExtension? settingsExtension path)

/-- The sources of settings.  A file that the arguments name has to be there. -/
def sources (invocation : Invocation) (config : Option String) : Sources where
  file := invocation.settingsFile? (settingsPath invocation.location config)
  fileRequired := config.isSome
  env := invocation.environment

/-- What is said about the filter of the log.  A filter in the environment takes the place
of the setting, unless something is wrong with it. -/
def filterComplaints (invocation : Invocation) (settings : Settings) : List String :=
  match invocation.environment.lookup filterVariable with
  | some filter =>
    if Log.Filter.isSound filter then [] else Log.Filter.complaints settings.log.filter
  | none => Log.Filter.complaints settings.log.filter

end Invocation

/-- The message about settings that cannot be loaded. -/
def loadMessage (fault : LoadFault) : String :=
  "Failed to load configuration: " ++
    match fault with
    | .unreadable => "failed to load configuration: the sources cannot be read as settings"
    | .invalid field => field.message

/-- The message about settings that cannot be written. -/
def renderMessage : String :=
  let cause := "out-of-range value for u64 type"
  "failed to render configuration: " ++ cause ++ ": " ++ cause

/-- The benchmark that arguments and settings ask for.  The arguments win. -/
def BenchArguments.params (args : BenchArguments) (settings : Settings) : Benchmark.Params where
  depth := args.depth.getD settings.bench.depth
  iterations := args.iterations.getD settings.bench.iterations
  shape := args.shape
  place := args.place
  workerThreads := settings.runtime.workerThreads

/-- What a command does under valid settings. -/
def Command.plan (command : Command) (settings : Settings) : Plan :=
  match command with
  | .bench args => .conduct (args.params settings)
  | .showSettings =>
    match settings.toToml? with
    | some text => .print text
    | none => .stop renderMessage

/-- The plan for an invocation.  Settings are loaded whatever the command is. -/
def Invocation.plan (invocation : Invocation) : Plan :=
  match parse invocation.arguments with
  | .error fault => .usage fault
  | .ok args =>
    match (invocation.sources args.config).load with
    | .error fault => .stop (loadMessage fault)
    | .ok settings =>
      (invocation.filterComplaints settings).foldr Plan.complain (args.command.plan settings)

end Trampoline.CommandLine
