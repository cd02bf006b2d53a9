/-! Paths of files, without a look at any file. -/
namespace ShaderReflection.CommandLine

/-- A path: the slashes that make it absolute, if any, and the names behind them. Empty names and
single dots are left out; double dots stay. -/
structure Path where
  root : String
  parts : List String
  deriving DecidableEq, Repr

namespace Path

/-- The root of a path: two slashes at its start are kept, more count as one. -/
def rootOf (s : String) : String :=
  if "///".isPrefixOf s then "/"
  else if "//".isPrefixOf s then "//"
  else if "/".isPrefixOf s then "/"
  else ""

def ofText (s : String) : Path where
  root := rootOf s
  parts := (s.splitOn "/").filter fun p => p ≠ "" && p ≠ "."

/-- The text of a path; a path without names is a dot. -/
def text (p : Path) : String :=
  if p.root = "" ∧ p.parts = [] then "." else p.root ++ "/".intercalate p.parts

/-- One path behind another; an absolute one stands for itself. -/
def join (p q : Path) : Path :=
  if q.root = "" then { p with parts := p.parts ++ q.parts } else q

def parent (p : Path) : Path := { p with parts := p.parts.dropLast }

def name (p : Path) : String := p.parts.getLast?.getD ""

/-- The last name up to its last dot, unless the dot is at either end. -/
def stem (p : Path) : String :=
  let cs := p.name.toList
  let behind := cs.reverse.takeWhile (· ≠ '.')
  let before := (cs.reverse.dropWhile (· ≠ '.')).drop 1
  if behind = [] ∨ before = [] then p.name else String.ofList before.reverse

end Path

/-- A path and those above it, the highest first. -/
def lineage (p : Path) : List Path :=
  (List.range (p.parts.length + 1)).map fun n => { p with parts := p.parts.take n }

end ShaderReflection.CommandLine
