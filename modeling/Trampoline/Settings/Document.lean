import Trampoline.Json.Basic
import Trampoline.Settings.Basic
import Trampoline.Toml.Writer

/-!
# Settings in documents

Settings as TOML and as JSON, and settings from JSON, which is read strictly: each
setting has the kind that it is written with.  In a JSON document a section may also be
an array of its settings in order, of which the last ones may be missing.

Main definitions:

- `Settings.toToml?`: the TOML text of settings.
- `Settings.toJson`, `Settings.ofJson?`: JSON documents.
-/

namespace Trampoline

/-! ## Writing -/

namespace Settings

/-- The sections of settings. -/
def sections (s : Settings) : List Toml.Section :=
  [⟨"log", [("filter", .text s.log.filter), ("ansi", .bool s.log.ansi)]⟩,
    ⟨"bench", [("depth", .count s.bench.depth), ("iterations", .count s.bench.iterations)]⟩,
    ⟨"runtime", match s.runtime.workerThreads with
      | some n => [("worker_threads", .count n)]
      | none => []⟩]

/-- The TOML text of settings.  There is none if a count is too large. -/
def toToml? (s : Settings) : Option String :=
  Toml.render? s.sections

/-- A count as a document. -/
def countToJson (n : Nat) : Json :=
  .number (.natural n)

/-- Settings as a document. -/
def toJson (s : Settings) : Json :=
  .object [
    ("log", .object [("filter", .text s.log.filter), ("ansi", .bool s.log.ansi)]),
    ("bench", .object [("depth", countToJson s.bench.depth),
      ("iterations", countToJson s.bench.iterations)]),
    ("runtime", .object (match s.runtime.workerThreads with
      | some n => [("worker_threads", countToJson n)]
      | none => []))]

end Settings

/-! ## Reading -/

namespace Json

/-- A document as a count. -/
def toCount? : Json → Option Nat
  | number (.natural n) => some n
  | _ => none

/-- A document as a count that may be null. -/
def toOptionalCount? : Json → Option (Option Nat)
  | null => some none
  | j => j.toCount?.map some

/-- A document as a text. -/
def toText? : Json → Option String
  | text s => some s
  | _ => none

/-- A document as a truth value. -/
def toBool? : Json → Option Bool
  | bool b => some b
  | _ => none

/-- The settings of a section under their names, in order.  There is none if the
section is no object and no array, or an array with too many items. -/
def settings? (names : List String) : Json → Option (List (Option Json))
  | object members => some (names.map fun name => members.reverse.lookup name)
  | array items =>
    if items.length ≤ names.length then
      some (names.mapIdx fun place _ => items[place]?)
    else none
  | _ => none

end Json

/-- The settings of the log. -/
def LogSettings.ofJson? (j : Json) : Option LogSettings := do
  let standard : LogSettings := {}
  match ← j.settings? ["filter", "ansi"] with
  | [filter, ansi] =>
    let filter ← Settings.readOr standard.filter Json.toText? filter
    let ansi ← Settings.readOr standard.ansi Json.toBool? ansi
    return { filter := filter, ansi := ansi }
  | _ => none

/-- The settings of benchmarks. -/
def BenchSettings.ofJson? (j : Json) : Option BenchSettings := do
  let standard : BenchSettings := {}
  match ← j.settings? ["depth", "iterations"] with
  | [depth, iterations] =>
    let depth ← Settings.readOr standard.depth Json.toCount? depth
    let iterations ← Settings.readOr standard.iterations Json.toCount? iterations
    return { depth := depth, iterations := iterations }
  | _ => none

/-- The settings of what tasks run on. -/
def RuntimeSettings.ofJson? (j : Json) : Option RuntimeSettings := do
  match ← j.settings? ["worker_threads"] with
  | [workerThreads] =>
    let workerThreads ← Settings.readOr none Json.toOptionalCount? workerThreads
    return { workerThreads := workerThreads }
  | _ => none

/-- All settings. -/
def Settings.ofJson? (j : Json) : Option Settings := do
  match ← j.settings? ["log", "bench", "runtime"] with
  | [log, bench, runtime] =>
    let log ← Settings.readOr {} LogSettings.ofJson? log
    let bench ← Settings.readOr {} BenchSettings.ofJson? bench
    let runtime ← Settings.readOr {} RuntimeSettings.ofJson? runtime
    return { log := log, bench := bench, runtime := runtime }
  | _ => none

end Trampoline
