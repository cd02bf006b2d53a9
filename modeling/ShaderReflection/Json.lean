import ShaderReflection.Number.Digits
import ShaderReflection.Text.Quoted

/-! JSON values with ordered objects, and their text in ASCII with an indent of two. -/
namespace ShaderReflection

/-- A JSON value. The fields of an object keep their order. -/
inductive Json where
  | int (n : Int)
  | text (s : String)
  | array (elements : List Json)
  | object (fields : List (String × Json))

namespace Json

/-- A UTF-16 unit behind a backslash. -/
def unitEscape (n : Nat) : List Char := '\\' :: 'u' :: Text.hexDigits 4 n

/-- A character between quotes: ASCII from the space to the tilde stands for itself; a character
beyond the basic plane takes two units. -/
def escaped (c : Char) : List Char :=
  if c = '"' ∨ c = '\\' then ['\\', c]
  else if c = '\n' then ['\\', 'n']
  else if c = '\r' then ['\\', 'r']
  else if c = '\t' then ['\\', 't']
  else if c = '\x0c' then ['\\', 'f']
  else if c = '\x08' then ['\\', 'b']
  else if ' ' ≤ c ∧ c ≤ '~' then [c]
  else if c.toNat < 0x10000 then unitEscape c.toNat
  else
    unitEscape (0xD800 + (c.toNat - 0x10000) / 0x400)
      ++ unitEscape (0xDC00 + (c.toNat - 0x10000) % 0x400)

/-- A text between quotes. -/
def quoted (s : String) : List Char := '"' :: (s.toList.flatMap escaped ++ ['"'])

/-- A line break and the indent of a depth. -/
def newline (depth : Nat) : List Char := '\n' :: List.replicate (2 * depth) ' '

/-- Items one below another between brackets, or nothing between them. -/
def block (opening closing : Char) (depth : Nat) : List (List Char) → List Char
  | [] => [opening, closing]
  | item :: items =>
    opening :: (newline (depth + 1) ++ item ++ items.flatMap (fun i => ',' :: newline (depth + 1) ++ i)
      ++ newline depth ++ [closing])

mutual

/-- The text of a value at a depth. -/
def textAt (depth : Nat) : Json → List Char
  | .int n => (toString n).toList
  | .text s => quoted s
  | .array elements => block '[' ']' depth (elementTexts (depth + 1) elements)
  | .object fields => block '\x7b' '\x7d' depth (fieldTexts (depth + 1) fields)

def elementTexts (depth : Nat) : List Json → List (List Char)
  | [] => []
  | e :: es => textAt depth e :: elementTexts depth es

def fieldTexts (depth : Nat) : List (String × Json) → List (List Char)
  | [] => []
  | f :: fs => fieldText depth f :: fieldTexts depth fs

def fieldText (depth : Nat) : String × Json → List Char
  | (key, value) => quoted key ++ ':' :: ' ' :: textAt depth value

end

/-- The text of a value on lines of its own. -/
def toText (v : Json) : String := String.ofList (v.textAt 0 ++ ['\n'])

mutual

/-- Whether all numbers of a value can be written. -/
def isWritable : Json → Bool
  | .int n => Number.isWritable n
  | .text _ => true
  | .array elements => elementsWritable elements
  | .object fields => fieldsWritable fields

def elementsWritable : List Json → Bool
  | [] => true
  | e :: es => isWritable e && elementsWritable es

def fieldsWritable : List (String × Json) → Bool
  | [] => true
  | f :: fs => fieldWritable f && fieldsWritable fs

def fieldWritable : String × Json → Bool
  | (_, value) => isWritable value

end

end Json
end ShaderReflection
