/-! A reader of JSON texts, whoever has written them: any blanks, all escapes, and numbers with a
fraction or an exponent. Integers are exact, and the fields of an object keep their order. -/
namespace ShaderReflection.Json

/-- What a JSON text stands for. A number with a fraction or an exponent is kept as the integer of
its digits and a power of ten. -/
inductive Value where
  | null
  | boolean (b : Bool)
  | integer (n : Int)
  | decimal (digits exponent : Int)
  | text (s : String)
  | array (elements : List Value)
  | object (fields : List (String × Value))

abbrev Reader (α : Type) := List Char → Option (α × List Char)

namespace Reader

variable {α : Type}

def isBlank (c : Char) : Bool := c = ' ' || c = '\t' || c = '\n' || c = '\r'

def skipBlanks (cs : List Char) : List Char := cs.dropWhile isBlank

section Numbers

def digits? : Reader (List Char) := fun cs =>
  match cs.takeWhile Char.isDigit with
  | [] => none
  | ds => some (ds, cs.dropWhile Char.isDigit)

/-- The digits before the point, which begin with zero only if that is the only one. -/
def whole? : Reader (List Char) := fun cs =>
  match digits? cs with
  | some ('0' :: _ :: _, _) => none
  | r => r

def fraction? : Reader (Option (List Char))
  | '.' :: cs => (digits? cs).map fun (ds, rest) => (some ds, rest)
  | cs => some (none, cs)

def magnitude (ds : List Char) : Nat := Nat.ofDigitChars 10 ds 0

def signed (negative : Bool) (n : Nat) : Int := if negative then -n else n

def exponent? : Reader (Option Int)
  | 'e' :: '-' :: cs | 'E' :: '-' :: cs => power true cs
  | 'e' :: '+' :: cs | 'E' :: '+' :: cs | 'e' :: cs | 'E' :: cs => power false cs
  | cs => some (none, cs)
where
  power (negative : Bool) (cs : List Char) : Option (Option Int × List Char) :=
    (digits? cs).map fun (ds, rest) => (some (signed negative (magnitude ds)), rest)

def ofParts (negative : Bool) (whole : List Char) : Option (List Char) → Option Int → Value
  | none, none => .integer (signed negative (magnitude whole))
  | fraction, exponent =>
    let behind := fraction.getD []
    .decimal (signed negative (magnitude (whole ++ behind))) (exponent.getD 0 - behind.length)

def unsigned? (negative : Bool) : Reader Value := fun cs => do
  let (whole, cs) ← whole? cs
  let (fraction, cs) ← fraction? cs
  let (exponent, cs) ← exponent? cs
  return (ofParts negative whole fraction exponent, cs)

def number? : Reader Value
  | '-' :: cs => unsigned? true cs
  | cs => unsigned? false cs

end Numbers

section Texts

def hexValue? (c : Char) : Option Nat :=
  if c.isDigit then some (c.toNat - '0'.toNat)
  else if 'a' ≤ c ∧ c ≤ 'f' then some (c.toNat - 'a'.toNat + 10)
  else if 'A' ≤ c ∧ c ≤ 'F' then some (c.toNat - 'A'.toNat + 10)
  else none

/-- A number of hexadecimal digits, read behind the digits of `n`. -/
def hex? : (width : Nat) → (n : Nat) → Reader Nat
  | 0, n, cs => some (n, cs)
  | _ + 1, _, [] => none
  | width + 1, n, c :: cs => (hexValue? c).bind fun d => hex? width (16 * n + d) cs

/-- The second half of a character that takes two units of UTF-16. -/
def lowHalf? (high : Nat) : Reader Char
  | '\\' :: 'u' :: cs => (hex? 4 0 cs).bind fun (low, rest) =>
    if 0xDC00 ≤ low ∧ low < 0xE000 then
      some (Char.ofNat (0x10000 + (high - 0xD800) * 0x400 + (low - 0xDC00)), rest)
    else none
  | _ => none

/-- A character by its units of UTF-16. Halves without their other half are refused. -/
def units? : Reader Char := fun cs => (hex? 4 0 cs).bind fun (unit, rest) =>
  if 0xD800 ≤ unit ∧ unit < 0xDC00 then lowHalf? unit rest
  else if 0xDC00 ≤ unit ∧ unit < 0xE000 then none
  else some (Char.ofNat unit, rest)

def escape? : Reader Char
  | '"' :: cs => some ('"', cs)
  | '\\' :: cs => some ('\\', cs)
  | '/' :: cs => some ('/', cs)
  | 'b' :: cs => some ('\x08', cs)
  | 'f' :: cs => some ('\x0c', cs)
  | 'n' :: cs => some ('\n', cs)
  | 'r' :: cs => some ('\r', cs)
  | 't' :: cs => some ('\t', cs)
  | 'u' :: cs => units? cs
  | _ => none

/-- A character between quotes; control characters stand there as escapes only. -/
def character? : Reader Char
  | '\\' :: cs => escape? cs
  | c :: cs => if c = '"' ∨ c < ' ' then none else some (c, cs)
  | [] => none

def characters? : (steps : Nat) → Reader (List Char)
  | 0, _ => none
  | _ + 1, '"' :: rest => some ([], rest)
  | steps + 1, cs => (character? cs).bind fun (c, cs) =>
    (characters? steps cs).map fun (s, rest) => (c :: s, rest)

def text? : Reader String := fun cs =>
  (characters? cs.length cs).map fun (s, rest) => (String.ofList s, rest)

end Texts

def items? (item : Reader α) (closing : Char) : (steps : Nat) → Reader (List α)
  | 0, _ => none
  | steps + 1, cs => (item cs).bind fun (a, cs) =>
    match skipBlanks cs with
    | ',' :: cs => (items? item closing steps (skipBlanks cs)).map fun (as, rest) => (a :: as, rest)
    | c :: rest => if c = closing then some ([a], rest) else none
    | [] => none

def bracketed? (item : Reader α) (closing : Char) (steps : Nat) : Reader (List α) := fun cs =>
  match skipBlanks cs with
  | c :: rest => if c = closing then some ([], rest) else items? item closing steps (c :: rest)
  | [] => none

def field? (value : Reader Value) : Reader (String × Value)
  | '"' :: cs => (text? cs).bind fun (key, cs) =>
    match skipBlanks cs with
    | ':' :: cs => (value (skipBlanks cs)).map fun (v, rest) => ((key, v), rest)
    | _ => none
  | _ => none

def value? : (steps : Nat) → Reader Value
  | 0, _ => none
  | steps + 1, cs =>
    match cs with
    | '"' :: cs => (text? cs).map fun (s, rest) => (.text s, rest)
    | '[' :: cs =>
      (bracketed? (value? steps) ']' steps cs).map fun (vs, rest) => (.array vs, rest)
    | '\x7b' :: cs =>
      (bracketed? (field? (value? steps)) '\x7d' steps cs).map fun (fs, rest) => (.object fs, rest)
    | 'n' :: 'u' :: 'l' :: 'l' :: rest => some (.null, rest)
    | 't' :: 'r' :: 'u' :: 'e' :: rest => some (.boolean true, rest)
    | 'f' :: 'a' :: 'l' :: 's' :: 'e' :: rest => some (.boolean false, rest)
    | cs => number? cs

end Reader

def read? (s : String) : Option Value :=
  match Reader.value? s.toList.length (Reader.skipBlanks s.toList) with
  | some (v, rest) => if Reader.skipBlanks rest = [] then some v else none
  | none => none

example : read? " [ -0.250E+1, true,\r\n \"\\u00e9\\/\\uD83D\\ude00\", \x7b \"a\" : [] \x7d ]" =
    some (.array [.decimal (-250) (-2), .boolean true, .text "é/😀",
      .object [("a", .array [])]]) := by
  rfl

example : ["[1,]", "01", "\"\\ud83d\"", "\"\t\"", "1 2", "[1\x7d"].filterMap read? = [] := by rfl

end ShaderReflection.Json
