import ShaderReflection.CommandLine.Path
import ShaderReflection.Table
import ShaderReflection.Text.Quoted

/-! A tree of files, in which a command reads and writes. -/
namespace ShaderReflection.CommandLine

/-- The names from the top of a tree down to a place in it. -/
abbrev Location := List String

inductive Node where
  | directory
  | file (bytes : List UInt8)
  deriving DecidableEq, Repr

/-- A tree of files, and the directory in it from which relative paths start. -/
structure FileTree where
  cwd : Location
  entries : Table Location Node
  deriving DecidableEq, Repr

/-- The place of a path that starts from a directory. -/
def placeOf (cwd : Location) (p : Path) : Location :=
  p.parts.foldl (fun l name => if name = ".." then l.dropLast else l ++ [name])
    (if p.root = "" then cwd else [])

inductive FileFault where
  | notFound
  | exists
  | notDirectory
  | isDirectory
  /-- A name or a whole path has too many bytes. -/
  | nameTooLong
  /-- No path has the character of code point 0. -/
  | embeddedNull
  /-- Too many directories are missing at once. -/
  | tooDeep
  deriving DecidableEq, Repr

/-- A failed operation on a path. -/
structure FileError where
  fault : FileFault
  path : Path
  deriving DecidableEq, Repr

/-- The text of an error: the number and the text that a system gives to a fault, and the path. A
path that no system takes is not repeated. -/
def FileError.message (e : FileError) : String :=
  match e.fault with
  | .notFound => "[Errno 2] No such file or directory: " ++ Text.quoted e.path.text
  | .exists => "[Errno 17] File exists: " ++ Text.quoted e.path.text
  | .notDirectory => "[Errno 20] Not a directory: " ++ Text.quoted e.path.text
  | .isDirectory => "[Errno 21] Is a directory: " ++ Text.quoted e.path.text
  | .nameTooLong => "[Errno 36] File name too long: " ++ Text.quoted e.path.text
  | .embeddedNull => "embedded null byte"
  | .tooDeep => "maximum recursion depth exceeded while calling a Python object"

namespace FileTree

/-- What is at a place; the directories above the starting one are always there. -/
def node? (t : FileTree) (l : Location) : Option Node :=
  if l.isPrefixOf t.cwd then some .directory else t.entries.get? l

def maxNameBytes : Nat := 255

def maxPathBytes : Nat := 4095

/-- Go down from a place by names; every place on the way must be a directory. -/
def walk (t : FileTree) (l : Location) : List String → Except FileFault Location
  | [] => .ok l
  | name :: names =>
    match t.node? l with
    | some .directory =>
      if maxNameBytes < name.utf8ByteSize then .error .nameTooLong
      else t.walk (if name = ".." then l.dropLast else l ++ [name]) names
    | some (.file _) => .error .notDirectory
    | none => .error .notFound

/-- The place that a path leads to. There need not be anything. -/
def locate (t : FileTree) (p : Path) : Except FileFault Location :=
  if p.text.toList.contains '\x00' then .error .embeddedNull
  else if maxPathBytes < p.text.utf8ByteSize then .error .nameTooLong
  else t.walk (if p.root = "" then t.cwd else []) p.parts

/-- What a path leads to. -/
def lookup (t : FileTree) (p : Path) : Except FileFault Node := do
  match t.node? (← t.locate p) with
  | some n => return n
  | none => throw .notFound

def isDirectory (t : FileTree) (p : Path) : Bool :=
  match t.lookup p with
  | .ok .directory => true
  | _ => false

/-- Make a directory where there is nothing. -/
def makeDirectory (t : FileTree) (p : Path) : Except FileFault FileTree := do
  let l ← t.locate p
  match t.node? l with
  | some _ => throw .exists
  | none => return { t with entries := t.entries.set l .directory }

/-- Make a directory unless it is there already. -/
def ensureDirectory (t : FileTree) (p : Path) : FileTree × Option FileError :=
  match t.makeDirectory p with
  | .ok t => (t, none)
  | .error f => if f ≠ .notFound ∧ t.isDirectory p then (t, none) else (t, some ⟨f, p⟩)

/-- Make a directory and at most a number of those above it. What was made before a failure
stays. -/
def makeDirectories (t : FileTree) (p : Path) : (above : Nat) → FileTree × Option FileError
  | 0 =>
    match t.makeDirectory p with
    | .error .notFound => (t, some ⟨.tooDeep, p⟩)
    | _ => t.ensureDirectory p
  | above + 1 =>
    match t.makeDirectory p with
    | .error .notFound =>
      match t.makeDirectories p.parent above with
      | (t, none) => t.ensureDirectory p
      | failed => failed
    | _ => t.ensureDirectory p

/-- Write a file, in place of one that is there. -/
def write (t : FileTree) (p : Path) (bytes : List UInt8) : Except FileError FileTree :=
  match t.locate p with
  | .error f => .error ⟨f, p⟩
  | .ok l =>
    match t.node? l with
    | some .directory => .error ⟨.isDirectory, p⟩
    | _ => .ok { t with entries := t.entries.set l (.file bytes) }

end FileTree
end ShaderReflection.CommandLine
