import ShaderReflection.Artifact.Sources
import ShaderReflection.Json
import ShaderReflection.Text.Utf8

/-! Templates of the caller's. The language that they are written in is not part of the library:
they are rendered by an engine, and a run can have any. The engine of the command itself knows text
and placeholders, and refuses a template with anything else in it. -/
namespace ShaderReflection.Artifact

/-- Templates of the caller's, by the names on the way to a file; a file may not be text. -/
abbrev Templates := List String → Option (Except Text.Utf8Error String)

/-- Why an engine gives no text: its language does not allow a template, or it met with something
else. -/
inductive EngineError where
  | template (message : String)
  | other (message : String)
  deriving DecidableEq, Repr

/-- An engine turns a template, of which it has the name and the text, and a document in keyed form
into a text. It sees the other templates of the caller's, and it has no effects. -/
structure Engine where
  render : Templates → (name text : String) → Json → Except EngineError String

namespace Placeholders

/-- How the text of a place is changed. -/
inductive Transform where
  | plain
  | camelCase
  | stageTag
  deriving DecidableEq, Repr

def Transform.apply : Transform → String → String
  | .plain, s => s
  | .camelCase, s => Text.camelCase s
  | .stageTag, s => Artifact.stageTag s

/-- A part of a template: a character that stands for itself, or a place. -/
inductive Segment where
  | literal (c : Char)
  | place (key : String) (transform : Transform)
  deriving DecidableEq, Repr

def isSpace (c : Char) : Bool := c = ' ' || c = '\t' || c = '\n'

def trim (cs : List Char) : List Char :=
  ((cs.dropWhile isSpace).reverse.dropWhile isSpace).reverse

def Transform.ofName? (name : List Char) : Option Transform :=
  if name = "camel_case".toList then some .camelCase
  else if name = "to_shader_stage".toList then some .stageTag
  else none

/-- Names that mean something to the language of templates. -/
def reserved : List String := [
  "true", "false", "none", "True", "False", "None", "and", "or", "not", "in", "is", "if", "else",
  "range", "dict", "lipsum", "cycler", "joiner", "namespace", "camel_case", "to_shader_stage",
  "self", "super", "caller", "loop", "varargs", "kwargs"]

def isKey (cs : List Char) : Bool :=
  match cs with
  | c :: _ =>
    !c.isDigit && (cs.all fun c => c.isAlphanum || c = '_')
      && !reserved.contains (String.ofList cs)
  | [] => false

def place? (key : List Char) (t : Transform) : Option Segment :=
  if isKey key then some (.place (String.ofList key) t) else none

/-- Read `key`, `transform(key)` or `key|transform`. -/
def Segment.ofExpression? (cs : List Char) : Option Segment :=
  let e := trim cs
  let head := trim (e.takeWhile fun c => c ≠ '(' && c ≠ '|')
  match e.dropWhile fun c => c ≠ '(' && c ≠ '|' with
  | '(' :: rest =>
    if rest.getLast? = some ')' then (Transform.ofName? head).bind (place? (trim rest.dropLast))
    else none
  | '|' :: rest => (Transform.ofName? (trim rest)).bind (place? head)
  | _ => place? head .plain

/-- The parts of a template, if all of them are text and places. `inside` is what has been read
between the braces of a place, backwards. -/
def segments? : (inside : Option (List Char)) → List Char → Option (List Segment)
  | none, '\x7b' :: '\x7b' :: cs => segments? (some []) cs
  | none, '\x7b' :: '%' :: _ => none
  | none, '\x7b' :: '#' :: _ => none
  | none, c :: cs => (segments? none cs).map (.literal c :: ·)
  | none, [] => some []
  | some inside, '\x7d' :: '\x7d' :: cs => do
    let s ← Segment.ofExpression? inside.reverse
    return s :: (← segments? none cs)
  | some inside, c :: cs => segments? (some (c :: inside)) cs
  | some _, [] => none

def unsupported : EngineError := .template "only text and placeholders are supported"

/-- The text under a key of a document. -/
def textFor (key : String) : Json → Except EngineError String
  | .object fields =>
    match fields.lookup key with
    | some (.text s) => .ok s
    | some _ => .error unsupported
    | none => .error (.template ("'" ++ key ++ "' is undefined"))
  | _ => .error unsupported

/-- Fill the places of a template in order, up to the first that has no text. -/
def fill (document : Json) : List Segment → Except EngineError (List Char)
  | [] => .ok []
  | .literal c :: rest => (fill document rest).map (c :: ·)
  | .place key t :: rest => do
    let s ← textFor key document
    return (t.apply s).toList ++ (← fill document rest)

end Placeholders

/-- The engine for templates of text and placeholders. -/
def placeholders : Engine where
  render _ _ text document :=
    match Placeholders.segments? none (Text.unifyBreaks text.toList) with
    | none => .error Placeholders.unsupported
    | some segments => (Placeholders.fill document segments).map String.ofList

end ShaderReflection.Artifact
