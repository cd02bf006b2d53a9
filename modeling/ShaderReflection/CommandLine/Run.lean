import ShaderReflection.Artifact.Render
import ShaderReflection.CommandLine.FileTree
import ShaderReflection.CommandLine.Log
import ShaderReflection.CommandLine.Settings
import ShaderReflection.CommandLine.Usage
import ShaderReflection.Document.Keyed
import ShaderReflection.Module.Declare
import ShaderReflection.Module.Slots

/-! The command: reflect one listing and write its sources, all of them or none. -/
namespace ShaderReflection.CommandLine

inductive InputError where
  | file (e : FileError)
  | text (e : Text.Utf8Error)
  deriving DecidableEq, Repr

def InputError.message : InputError → String
  | .file e => e.message
  | .text e => e.message

inductive Ending where
  | exit (code : Nat)
  | aborted (e : InputError)
  deriving DecidableEq, Repr

structure Outcome where
  ending : Ending
  stdout : String := ""
  stderr : String := ""
  tree : FileTree
  deriving DecidableEq, Repr

namespace Outcome

def success (tree : FileTree) (stdout : String) (stderr : String := "") : Outcome :=
  { ending := .exit 0, stdout, stderr, tree }

/-- Failure with a message behind what was written before. -/
def failure (tree : FileTree) (message : String) (stderr : String := "") (stdout : String := "") :
    Outcome :=
  { ending := .exit 1, stdout, stderr := stderr ++ "Error: " ++ message ++ "\n", tree }

end Outcome

/-- What a run has from outside: the engine for templates of the caller's, and how many directories
may be missing above one that is to be made. -/
structure Host where
  engine : Artifact.Engine
  maxMissing : Nat

/-- The host of the command itself. -/
def Host.plain : Host where
  engine := Artifact.placeholders
  maxMissing := 985

structure Job where
  host : Host
  source : String
  stem : String
  outputDir : Path
  options : ReflectionOptions
  templates : Artifact.Templates
  withJson : Bool
  dumpDocument : Bool
  verbosity : Nat

/-- A text, unless it is missing or empty. -/
def orElse (s : Option String) (default : String) : String :=
  match s with
  | some s => if s = "" then default else s
  | none => default

/-- The templates in a directory. -/
def templatesIn (tree : FileTree) (dir : Option String) : Artifact.Templates := fun way =>
  match dir with
  | none => none
  | some dir =>
    match tree.lookup ((Path.ofText dir).join ⟨"", way⟩) with
    | .ok (.file bytes) => some ((Text.ofUtf8 bytes).map String.ofList)
    | _ => none

/-- The job that settings ask for, on the text of an input. -/
def Settings.job (s : Settings) (host : Host) (tree : FileTree) (input : Path)
    (text : List Char) : Job where
  host
  source := String.ofList (Text.unifyBreaks text)
  stem := input.stem
  outputDir := (s.outputDir.map Path.ofText).getD input.parent
  options := {
    shaderName := orElse s.shaderName input.stem
    headerFileName := orElse s.headerFileName (input.stem ++ ".h") }
  templates := templatesIn tree s.templateDir
  withJson := !s.noJson
  dumpDocument := s.dumpDocument
  verbosity := s.verbosity

/-- A file to be written; its text is missing if a number in it has too many digits. -/
structure Output where
  path : Path
  text : Option String
  deriving DecidableEq, Repr

/-- Write a file. One without a text is not touched. -/
def Output.write (o : Output) (tree : FileTree) : Except String FileTree :=
  match o.text with
  | none => .error Number.unwritableText
  | some text => (tree.write o.path (Text.utf8 text)).mapError FileError.message

/-- The files of a job, in the order in which they are written. -/
def Job.outputs (j : Job) (d : Document) (a : Artifact.Artifacts) : List Output :=
  [ ⟨j.outputDir.join (.ofText j.options.headerFileName), a.header⟩,
    ⟨j.outputDir.join (.ofText (j.stem ++ ".cc")), a.implementation⟩]
    ++ if j.withJson then [⟨j.outputDir.join (.ofText (j.stem ++ ".json")), d.jsonText?⟩] else []

/-- Write files in order up to the first that fails: what was reported, what is then there, and
the text of the failure. -/
def writeAll (tree : FileTree) : List Output → String × FileTree × Option String
  | [] => ("", tree, none)
  | o :: rest =>
    match o.write tree with
    | .error message => ("", tree, some message)
    | .ok tree =>
      let (report, tree, failure) := writeAll tree rest
      ("Wrote " ++ o.path.text ++ "\n" ++ report, tree, failure)

/-- Make the output directory and write the files of a job. -/
def Job.emit (j : Job) (tree : FileTree) (d : Document) (a : Artifact.Artifacts) (log : String) :
    Outcome :=
  match tree.makeDirectories j.outputDir j.host.maxMissing with
  | (tree, some e) => .failure tree e.message log
  | (tree, none) =>
    match writeAll tree (j.outputs d a) with
    | (report, tree, none) => .success tree report log
    | (report, tree, some message) => .failure tree message log report

/-- Do a job. Nothing is written unless reading, reflection and rendering all succeed. -/
def Job.run (j : Job) (tree : FileTree) : Outcome :=
  match Module.load j.source with
  | .error e => .failure tree e.message
  | .ok d =>
    match (d.shader.reflect j.options ⟨0⟩).1 with
    | .error e => .failure tree e.message (logText j.verbosity (failureReports e))
    | .ok r =>
      let log := logText j.verbosity (reportsOf r)
      match Artifact.renderAll j.templates r.document j.host.engine with
      | .error e => .failure tree e.message log
      | .ok a =>
        if j.dumpDocument then
          match r.document.jsonText? with
          | some text => .success tree text log
          | none => .failure tree Number.unwritableText log
        else j.emit tree r.document a log

def Settings.run (s : Settings) (host : Host) (tree : FileTree) (input : Path) : Outcome :=
  match tree.lookup input with
  | .error .nameTooLong => { ending := .aborted (.file ⟨.nameTooLong, input⟩), tree }
  | .error _ => .failure tree ("file not found: " ++ input.text)
  | .ok .directory => { ending := .aborted (.file ⟨.isDirectory, input⟩), tree }
  | .ok (.file bytes) =>
    match Text.ofUtf8 bytes with
    | .error e => { ending := .aborted (.text e), tree }
    | .ok text => (s.job host tree input text).run tree

def run (tree : FileTree) (arguments : List String) (host : Host := .plain) : Outcome :=
  match Settings.ofArguments arguments with
  | .error .help => .success tree helpText
  | .error .version => .success tree versionText
  | .error (.usage e) =>
    { ending := .exit 2, stderr := usageText ++ "reflc: error: " ++ e.message ++ "\n", tree }
  | .ok s =>
    match s.input with
    | none => .success tree helpText
    | some input => s.run host tree (.ofText input)

end ShaderReflection.CommandLine
