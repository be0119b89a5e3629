import Trampoline.Decimal.Notation
import Trampoline.Settings.Basic
import Trampoline.Settings.Tree

/-!
# Settings from trees

A tree is read generously: a setting may be given as a value of another kind, which is
converted.  A section is a table, or an array of its settings in order.  What is not
known is passed over; what is missing has its default.

Main definitions:

- `Tree.toBool?`, `Tree.toCount?`, `Tree.toText?`: the conversions.
- `Settings.ofTree?`: the settings of a tree.
-/

namespace Trampoline

namespace Settings.Tree

/-- Whether a word means yes or no. -/
def ofWord? (s : String) : Option Bool :=
  match Text.lower s with
  | "true" | "on" | "yes" => some true
  | "false" | "off" | "no" => some false
  | _ => none

/-- A tree as a truth value.  Numbers are true unless they are zero. -/
def toBool? : Tree → Option Bool
  | bool b => some b
  | integer n => some (n ≠ 0)
  | float x => some (x != 0.0)
  | text "1" => some true
  | text "0" => some false
  | text s => ofWord? s
  | missing | array _ | table _ => none

/-- A tree as a count.  Floats go to the nearest whole number, half a unit away from
zero, and to the nearest count if that is none. -/
def toCount? : Tree → Option Nat
  | integer n => if 0 ≤ n then some n.toNat else none
  | bool b => some b.toNat
  | float x => some x.round.toUInt64.toNat
  | text s =>
    match ofWord? s with
    | some b => some b.toNat
    | none => Text.count? s
  | missing | array _ | table _ => none

/-- The digits of an integer, with its sign. -/
def integerText (n : Int) : String :=
  let digits := Text.digitsOf n.natAbs
  String.ofList (if n < 0 then '-' :: digits else digits)

/-- A tree as a text. -/
def toText? : Tree → Option String
  | text s => some s
  | bool true => some "true"
  | bool false => some "false"
  | integer n => some (integerText n)
  | float x => some (Decimal.Layout.plain.render x)
  | missing | array _ | table _ => none

/-- A tree as a count that may be missing. -/
def toOptionalCount? : Tree → Option (Option Nat)
  | missing => some none
  | t => t.toCount?.map some

/-- The setting of a section with a name, which is at this place if the section is an
array. -/
def setting? (t : Tree) (place : Nat) (name : String) : Option Tree :=
  match t with
  | table members => members.lookup name
  | array items => items[place]?
  | _ => none

/-- Whether a tree can be a section. -/
def isSection : Tree → Bool
  | table _ | array _ => true
  | _ => false

end Settings.Tree

open Settings

/-- The settings of the log. -/
def LogSettings.ofTree? (t : Tree) : Option LogSettings := do
  if !t.isSection then none
  let standard : LogSettings := {}
  let filter ← readOr standard.filter Tree.toText? (t.setting? 0 "filter")
  let ansi ← readOr standard.ansi Tree.toBool? (t.setting? 1 "ansi")
  return { filter := filter, ansi := ansi }

/-- The settings of benchmarks. -/
def BenchSettings.ofTree? (t : Tree) : Option BenchSettings := do
  if !t.isSection then none
  let standard : BenchSettings := {}
  let depth ← readOr standard.depth Tree.toCount? (t.setting? 0 "depth")
  let iterations ← readOr standard.iterations Tree.toCount? (t.setting? 1 "iterations")
  return { depth := depth, iterations := iterations }

/-- The settings of what tasks run on. -/
def RuntimeSettings.ofTree? (t : Tree) : Option RuntimeSettings := do
  if !t.isSection then none
  let workerThreads ←
    readOr none Tree.toOptionalCount? (t.setting? 0 "worker_threads")
  return { workerThreads := workerThreads }

/-- All settings. -/
def Settings.ofTree? (t : Tree) : Option Settings := do
  let log ← readOr {} LogSettings.ofTree? (t.find? "log")
  let bench ← readOr {} BenchSettings.ofTree? (t.find? "bench")
  let runtime ← readOr {} RuntimeSettings.ofTree? (t.find? "runtime")
  return { log := log, bench := bench, runtime := runtime }

end Trampoline
