import ShaderReflection.Artifact.Template
import ShaderReflection.Document.Keyed
import ShaderReflection.Number.Digits

/-! Rendering: the two generated sources, each from a template of the caller's where there is one
and from the packaged text elsewhere. -/
namespace ShaderReflection.Artifact

/-- The names on the way to a template. Empty names and single dots are left out; no way leads
up. -/
def wayTo? (template : String) : Option (List String) :=
  let names := template.splitOn "/"
  if names.contains ".." then none else some (names.filter fun n => n ≠ "" && n ≠ ".")

def headerTemplate : String := "reflection.h.j2"

def implementationTemplate : String := "reflection.cc.j2"

inductive RenderError where
  /-- The language of templates does not allow a template of the caller's. -/
  | failed (template message : String)
  | missing (template : String)
  | unreadable (e : Text.Utf8Error)
  /-- The engine met with something that is not about its language. -/
  | raised (message : String)
  /-- A number of the document has too many digits. -/
  | unwritable
  deriving DecidableEq, Repr

def RenderError.message : RenderError → String
  | .failed template message => "Failed to render '" ++ template ++ "': " ++ message
  | .missing template => "Failed to render '" ++ template ++ "': " ++ template
  | .unreadable e => e.message
  | .raised message => message
  | .unwritable => Number.unwritableText

def RenderError.ofEngine (template : String) : EngineError → RenderError
  | .template message => .failed template message
  | .other message => .raised message

/-- A text with numbers, which must be writable. -/
def written (numbers : List Int) (text : String) : Except RenderError String :=
  if numbers.all Number.isWritable then .ok text else .error .unwritable

/-- What a template that comes with the library gives. -/
def packaged? (way : List String) (d : Document) : Option (Except RenderError String) :=
  if way = [headerTemplate] then some (written (headerNumbers d) (header d))
  else if way = [implementationTemplate] then
    some (written (implementationNumbers d) (implementation d))
  else none

/-- Render one template. Those of the caller come before those that are packaged. -/
def render (templates : Templates) (d : Document) (template : String)
    (engine : Engine := placeholders) : Except RenderError String :=
  match wayTo? template with
  | none => .error (.missing template)
  | some way =>
    match templates way with
    | some (.ok text) =>
      (engine.render templates template text d.toJson).mapError (.ofEngine template)
    | some (.error e) => .error (.unreadable e)
    | none => (packaged? way d).getD (.error (.missing template))

structure Artifacts where
  header : String
  implementation : String
  deriving DecidableEq, Repr

/-- Render both sources, the header first; either both succeed or there is an error. -/
def renderAll (templates : Templates) (d : Document) (engine : Engine := placeholders) :
    Except RenderError Artifacts := do
  let header ← render templates d headerTemplate engine
  let implementation ← render templates d implementationTemplate engine
  return { header, implementation }

end ShaderReflection.Artifact
