import Trampoline.CommandLine.Execution
import Trampoline.Proofs.Settings.Precedence

/-!
# Commands under settings

The settings of an invocation are loaded before its command is looked at, so that settings that are
not valid stop it, whatever the command says.  A benchmark runs chains only if its parameters are
fit for it, and its parameters are those of the command or else of the settings.

What a program does in a monad does not show which chains it has run, because a run is no action of
the monad.  So it is said like this: the program does not depend on the outcomes of any other
chains.

Main definitions and results:

- Definition `Plan.carryOutWith`: a plan with other outcomes for the runs of chains.
- Definition `Plan.RunsOnly`: a plan depends on no outcomes but those of some chains.
- Theorem `Benchmark.conductWith_eq`: a benchmark with unfit parameters runs no chain.
- Theorem `Invocation.precedence`: the settings, the verdict on them and the chains of an
  invocation.
-/

namespace Trampoline

/-! ## Benchmarks with other outcomes -/

namespace Benchmark

variable {m : Type → Type} [Monad m] (run : Params → Option Outcome)

/-- Measure a run that has the outcome that `run` tells. -/
def measureWith (console : Console m) (params : Params) (iteration : Nat) :
    m (Except Fault Sample) := do
  let started ← console.now
  match run params with
  | some (.ok result) => do
    let ended ← console.now
    return .ok ⟨ended - started, result⟩
  | some (.error e) => return .error (.failed iteration e)
  | none => return .error (.unfinished iteration)

/-- Measure so many runs that have the outcomes that `run` tells. -/
def measureAllWith (console : Console m) (params : Params) :
    Nat → Nat → m (Except Fault (List Sample))
  | 0, _ => return .ok []
  | count + 1, iteration => do
    match ← measureWith run console params iteration with
    | .error fault => return .error fault
    | .ok sample => do
      console.write (sample.report params.depth iteration)
      match ← measureAllWith console params count (iteration + 1) with
      | .error fault => return .error fault
      | .ok samples => return .ok (sample :: samples)

/-- Conduct a benchmark the runs of which have the outcomes that `run` tells. -/
def conductWith (console : Console m) (params : Params) : m (Except Fault Unit) := do
  console.write greeting
  match params.fault? with
  | some fault => return .error fault
  | none => do
    console.write params.report
    console.write (line ["\n⏱  Running..."])
    match ← measureAllWith run console params params.iterations 1 with
    | .error fault => return .error fault
    | .ok samples => do
      console.write (summary params samples)
      return .ok ()

variable {run} {console : Console m} {params : Params}

/-- A run is measured by its outcome alone. -/
theorem measureWith_eq (h : run params = params.outcome?) (iteration : Nat) :
    measureWith run console params iteration = measure console params iteration := by
  have hmeasure : measure console params iteration =
      measureWith Params.outcome? console params iteration := rfl
  rw [hmeasure, measureWith, measureWith, h]

/-- Runs are measured by their outcomes alone. -/
theorem measureAllWith_eq (h : run params = params.outcome?) (count iteration : Nat) :
    measureAllWith run console params count iteration =
      measureAll console params count iteration := by
  induction count generalizing iteration with
  | zero => rfl
  | succ count ih =>
      simp only [measureAllWith, measureWith_eq h, ih]
      rfl

/-- A benchmark depends on the outcomes of its own chain alone, and on none if its parameters are
not fit for one. -/
theorem conductWith_eq (h : params.fault? = none → run params = params.outcome?) :
    conductWith run console params = conduct console params := by
  have hconduct : conductWith Params.outcome? console params = conduct console params := by
    simp only [conductWith, measureAllWith_eq rfl]
    rfl
  rw [← hconduct]
  unfold conductWith
  cases hfault : params.fault? with
  | some fault => rfl
  | none => simp only [measureAllWith_eq (h hfault), measureAllWith_eq rfl]

end Benchmark

namespace CommandLine

open Benchmark Settings

/-! ## Plans with other outcomes -/

/-- Carry a plan out with runs of chains that have the outcomes that `run` tells. -/
def Plan.carryOutWith {m : Type → Type} [Monad m] (run : Params → Option Outcome)
    (streams : Streams m) : Plan → m Nat
  | usage fault => do
    if fault.isHelp then streams.console.write fault.message
    else streams.writeError fault.message
    return fault.exitCode
  | stop message => streams.stop message
  | print text => do
    streams.console.write text
    return 0
  | conduct params => do
    match ← conductWith run streams.console params with
    | .ok () => return 0
    | .error fault => streams.stop fault.message
  | complain message next => do
    streams.writeError (message ++ "\n")
    next.carryOutWith run streams

/-- A plan runs no chains but those with parameters that `p` holds of: with any other outcomes for
the other chains, all that it does is the same. -/
def Plan.RunsOnly (plan : Plan) (p : Params → Prop) : Prop :=
  ∀ (m : Type → Type) [Monad m] (streams : Streams m) (run : Params → Option Outcome),
    (∀ params, p params → run params = params.outcome?) →
      plan.carryOutWith run streams = plan.carryOut streams

namespace Plan.RunsOnly

variable {p : Params → Prop}

/-- A plan that stops at once runs nothing. -/
theorem stop (message : String) : (Plan.stop message).RunsOnly p :=
  fun _ _ _ _ _ => rfl

/-- A benchmark runs its chain only, and only if its parameters are fit for one. -/
theorem conduct {params : Params} (h : params.fault? = none → p params) :
    (Plan.conduct params).RunsOnly p := by
  intro m _ streams run same
  have hconduct : conductWith run streams.console params =
      Benchmark.conduct streams.console params :=
    conductWith_eq fun hfault => same params (h hfault)
  simp only [carryOutWith, hconduct]
  rfl

/-- Complaints run no chains. -/
theorem complain {plan : Plan} (h : plan.RunsOnly p) (messages : List String) :
    (messages.foldr Plan.complain plan).RunsOnly p := by
  induction messages with
  | nil => exact h
  | cons message messages ih =>
      intro m _ streams run same
      simp only [List.foldr_cons, carryOutWith, carryOut]
      rw [ih m streams run same]

end Plan.RunsOnly

/-! ## Invocations -/

/-- The parameters of a chain that a command may run under settings: the depth and the iterations
are those of the command, or else of the settings, and there are some of both; and the chain does
not hop on the thread that it runs on.  Its shape and its place are those of the command. -/
structure BenchArguments.MayRun (args : BenchArguments) (settings : Settings) (params : Params) :
    Prop where
  depth_eq : params.depth = args.depth.getD settings.bench.depth
  iterations_eq : params.iterations = args.iterations.getD settings.bench.iterations
  shape_eq : params.shape = args.shape
  place_eq : params.place = args.place
  depth_pos : 1 ≤ params.depth
  iterations_pos : 1 ≤ params.iterations
  not_nesting : ¬(params.shape = .async ∧ params.place = .immediate)

/-- A benchmark may run if its parameters are fit for one. -/
theorem BenchArguments.mayRun (args : BenchArguments) (settings : Settings)
    (h : (args.params settings).fault? = none) : args.MayRun settings (args.params settings) := by
  obtain ⟨hdepth, hiterations, hnesting⟩ := (Params.fault?_eq_none_iff _).mp h
  exact ⟨rfl, rfl, rfl, rfl, Nat.one_le_iff_ne_zero.mpr hdepth,
    Nat.one_le_iff_ne_zero.mpr hiterations, hnesting⟩

namespace Invocation

variable {invocation : Invocation} {args : Arguments} {entries : List (String × Tree)}
  {file env : Partial}

/-- Settings that cannot be loaded stop an invocation, whatever its command is. -/
theorem plan_of_error (parsed : parse invocation.arguments = .ok args) {fault : LoadFault}
    (h : (invocation.sources args.config).load = .error fault) :
    invocation.plan = .stop (loadMessage fault) := by
  simp only [plan, parsed, h]

/-- A command is carried out under the settings that have been loaded, after complaints. -/
theorem plan_of_ok (parsed : parse invocation.arguments = .ok args) {settings : Settings}
    (h : (invocation.sources args.config).load = .ok settings) :
    invocation.plan =
      (invocation.filterComplaints settings).foldr Plan.complain (args.command.plan settings) := by
  simp only [plan, parsed, h]

/-- Let a file and the environment of an invocation give values for some of the settings.  Then
each setting has the value of the environment, or else the one of the file, or else its default.
The settings are loaded exactly if they are valid.  If they are not, a setting that makes them not
valid is named, and the invocation stops with a message about it, whatever the command and its
options are.  A benchmark runs no chains but with the depth and the iterations of the command, or
else of the settings, at least one of each, and none that hops on the thread that it runs on. -/
theorem precedence (parsed : parse invocation.arguments = .ok args)
    (gives : (invocation.sources args.config).Gives entries file env) :
    (invocation.sources args.config).settings? = some {
      log := {
        filter := (env.filter.or file.filter).getD "info"
        ansi := (env.ansi.or file.ansi).getD true }
      bench := {
        depth := (env.depth.or file.depth).getD 100000
        iterations := (env.iterations.or file.iterations).getD 5 }
      runtime := { workerThreads := env.workerThreads.or file.workerThreads } } ∧
    ((invocation.sources args.config).load = .ok (env.above file).settings ↔
      (env.above file).settings.IsValid) ∧
    (¬(env.above file).settings.IsValid → ∃ field : Field,
      field.Offends (env.above file).settings ∧
        (invocation.sources args.config).load = .error (.invalid field) ∧
          invocation.plan = .stop (loadMessage (.invalid field))) ∧
    ∀ bench, args.command = .bench bench →
      invocation.plan.RunsOnly (bench.MayRun (env.above file).settings) := by
  refine ⟨gives.settings?_eq, ⟨Sources.isValid_of_load, gives.load_of_isValid⟩,
    fun invalid => ?_, fun bench hbench => ?_⟩
  · obtain ⟨field, offends, hload⟩ := gives.load_of_not_isValid invalid
    exact ⟨field, offends, hload, plan_of_error parsed hload⟩
  · by_cases valid : (env.above file).settings.IsValid
    · rw [plan_of_ok parsed (gives.load_of_isValid valid), hbench]
      exact (Plan.RunsOnly.conduct (bench.mayRun _)).complain _
    · obtain ⟨field, -, hload⟩ := gives.load_of_not_isValid valid
      rw [plan_of_error parsed hload]
      exact .stop _

/-! ### An option beside a setting that may be valid or not -/

/-- A settings file with a depth, and with iterations as they are written there. -/
def document (iterations : String) : String :=
  "[bench]\ndepth = 42\niterations = " ++ iterations ++ "\n"

/-- An invocation with that file, variables for the depth and the filter, and an option for the
iterations. -/
def overriding (iterations : String) : Invocation where
  arguments := ["bench", "--iterations", "3"]
  env := [("RUNLOOP_BENCH__DEPTH", "7"), ("PATH", "/bin"), ("RUNLOOP_LOG__FILTER", "debug")]
  location := ["work"]
  file? path := if path = "/work/runloop.toml" then some (document iterations) else none

/-- The command that those arguments name. -/
def benching : BenchArguments where
  depth := none
  iterations := some 3
  shape := .bind
  place := .immediate

/-- The arguments choose the benchmark, with an option. -/
theorem parse_overriding (iterations : String) : parse (overriding iterations).arguments =
    .ok ⟨none, .bench benching⟩ :=
  rfl

/-- The depth and the iterations of a document that has them and nothing else. -/
def benchOf? : List (String × Toml) → Option (Int × Int)
  | [("bench", .table [("depth", .integer depth), ("iterations", .integer iterations)])] =>
    some (depth, iterations)
  | _ => none

/-- A document with a depth and a number of iterations has no other members. -/
theorem eq_of_benchOf? {members : List (String × Toml)} {depth iterations : Int}
    (h : benchOf? members = some (depth, iterations)) :
    members =
      [("bench", .table [("depth", .integer depth), ("iterations", .integer iterations)])] := by
  unfold benchOf? at h
  split at h
  · cases h
    rfl
  · cases h

section

variable {text : String} {n : Nat}

/-- The file of the invocation is read as the section that it has. -/
theorem fileEntries?_overriding (hbench : (Toml.parse? (document text)).bind benchOf? =
    some (42, (n : Int))) : ((overriding text).sources none).fileEntries? =
      some [("bench", .table [("depth", .integer 42), ("iterations", .integer n)])] := by
  have hfile : ((overriding text).sources none).file = some (document text) := by
    have hpath : settingsPath ["work"] none = "/work/runloop.toml" := by decide +kernel
    have hextension : Path.hasExtension settingsExtension "/work/runloop.toml" = true := by
      decide +kernel
    simp [Invocation.sources, Invocation.settingsFile?, overriding, hpath, hextension]
  obtain ⟨members, hparse, hmembers⟩ := Option.bind_eq_some_iff.mp hbench
  cases eq_of_benchOf? hmembers
  simp only [Sources.fileEntries?, hfile, hparse]
  rfl

/-- The environment has the depth and the filter. -/
theorem env_overriding (text : String) : ((overriding text).sources none).env.entries =
    [(Leaf.depth.key, .integer 7), (Leaf.filter.key, .text "debug")] := by
  have hpaths : environmentPaths ["work"] = ["/work/.env", "/.env"] := by decide +kernel
  have henv : ((overriding text).sources none).env =
      [("RUNLOOP_BENCH__DEPTH", "7"), ("PATH", "/bin"), ("RUNLOOP_LOG__FILTER", "debug")] := by
    simp [Invocation.sources, Invocation.environment, overriding, hpaths]
  rw [henv]
  rfl

/-- What the file and the environment of the invocation give. -/
theorem overriding_gives
    (hbench : (Toml.parse? (document text)).bind benchOf? = some (42, (n : Int))) :
    ((overriding text).sources none).Gives
      [("bench", .table [("depth", .integer 42), ("iterations", .integer n)])]
      { depth := some 42, iterations := some n } { filter := some "debug", depth := some 7 } := by
  refine ⟨fileEntries?_overriding hbench, ?_, fun leaf => by cases leaf <;> rfl, ?_⟩
  · rw [env_overriding]
    intro entry hentry
    simp only [List.cons_append, List.nil_append, List.mem_cons, List.not_mem_nil, or_false]
      at hentry
    rcases hentry with rfl | rfl | rfl
    · exact isOrderly_section .depth _
    · exact isOrderly_key .depth _
    · exact isOrderly_key .filter _
  · rw [env_overriding]
    intro leaf
    cases leaf <;> rfl

end

/-- The settings of the invocation where the file asks for two iterations. -/
def chosen : Settings where
  log := { filter := "debug" }
  bench := { depth := 7, iterations := 2 }

/-- The parameters of the chain that is run then. -/
def measured : Params where
  depth := 7
  iterations := 3
  shape := .bind
  place := .immediate

/-- The variable for the depth wins over the file.  The option for the iterations does not make up
for a setting that is not valid, which stops the invocation; and it wins over a setting that is
valid, under which a chain is run. -/
theorem precedence_overriding :
    (((overriding "0").sources none).settings? = some {
        log := { filter := "debug" }
        bench := { depth := 7, iterations := 0 } } ∧
      ∃ field : Field, (overriding "0").plan = .stop (loadMessage (.invalid field))) ∧
    ((overriding "2").sources none).load = .ok chosen ∧
      (overriding "2").plan =
        ((overriding "2").filterComplaints chosen).foldr Plan.complain (.conduct measured) ∧
      benching.MayRun chosen measured ∧
      (overriding "2").plan.RunsOnly (benching.MayRun chosen) := by
  have hzero : (Toml.parse? (document "0")).bind benchOf? = some (42, ((0 : Nat) : Int)) := by
    decide +kernel
  have htwo : (Toml.parse? (document "2")).bind benchOf? = some (42, ((2 : Nat) : Int)) := by
    decide +kernel
  obtain ⟨hsettings, -, hinvalid, -⟩ := precedence (parse_overriding "0") (overriding_gives hzero)
  obtain ⟨field, -, -, hstop⟩ := hinvalid fun valid => valid.iterations_ne rfl
  obtain ⟨-, hload, -, hruns⟩ := precedence (parse_overriding "2") (overriding_gives htwo)
  have hchosen : ((overriding "2").sources none).load = .ok chosen :=
    hload.mpr ((fault?_eq_none_iff chosen).mp (by decide +kernel))
  exact ⟨⟨hsettings, field, hstop⟩, hchosen, plan_of_ok (parse_overriding "2") hchosen,
    benching.mayRun chosen rfl, hruns benching rfl⟩

end Invocation

end CommandLine

end Trampoline
