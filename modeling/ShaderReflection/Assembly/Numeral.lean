import ShaderReflection.Assembly.Instruction
import ShaderReflection.Number.Digits

/-! The values that number literals denote. -/
namespace ShaderReflection.Assembly

inductive NumeralError where
  /-- A hexadecimal float rounds beyond the largest finite number. -/
  | hexTooLarge
  /-- A decimal integer is longer than `Number.maxDigits`, leading zeros counted. -/
  | tooManyDigits (count : Nat)
  deriving DecidableEq, Repr

namespace Numeral

def hexDigit (c : Char) : Nat :=
  if c.isDigit then c.toNat - '0'.toNat
  else if 'a' ≤ c then c.toNat - 'a'.toNat + 10
  else c.toNat - 'A'.toNat + 10

def ofHex (ds : List Char) : Nat := ds.foldl (fun n c => 16 * n + hexDigit c) 0

def ofDecimal (ds : List Char) : Nat := Nat.ofDigitChars 10 ds 0

def splitSign : List Char → Bool × List Char
  | '-' :: cs => (true, cs)
  | '+' :: cs => (false, cs)
  | cs => (false, cs)

def signed (negative : Bool) (n : Nat) : Int := if negative then -n else n

/-- The part before the first character that satisfies `p`, and the part after it. -/
def splitAt (p : Char → Bool) (cs : List Char) : List Char × List Char :=
  (cs.takeWhile (!p ·), (cs.dropWhile (!p ·)).drop 1)

/-- The letter between a decimal number and its exponent. -/
def isDecimalMark (c : Char) : Bool := c = 'e' || c = 'E'

/-- The letter between a hexadecimal number and its binary exponent. -/
def isBinaryMark (c : Char) : Bool := c = 'p' || c = 'P'

/-- A signed decimal exponent; none at all is zero. -/
def exponent (cs : List Char) : Int :=
  let (negative, ds) := splitSign cs
  signed negative (ofDecimal ds)

/-- The value of `digits.digits p exponent` in base sixteen, the exponent a power of two. -/
def hexFloat (negative : Bool) (cs : List Char) : Except NumeralError Operand :=
  let (mantissa, e) := splitAt isBinaryMark cs
  let (whole, fraction) := splitAt (· = '.') mantissa
  match Binary64.ofBinary negative (ofHex (whole ++ fraction))
      (exponent e - 4 * fraction.length) with
  | .infinite _ => .error .hexTooLarge
  | x => .ok (.float x)

/-- The value of `digits.digits e exponent` in base ten. -/
def decimalFloat (negative : Bool) (cs : List Char) : Binary64 :=
  let (mantissa, e) := splitAt isDecimalMark cs
  let (whole, fraction) := splitAt (· = '.') mantissa
  let digits := (whole ++ fraction).dropWhile (· = '0')
  Binary64.ofDecimal negative (ofDecimal digits) digits.length (exponent e - fraction.length)

/-- The value of a number literal. -/
def read (cs : List Char) : Except NumeralError Operand :=
  let (negative, body) := splitSign cs
  match body with
  | '0' :: 'x' :: ds | '0' :: 'X' :: ds =>
    if ds.any isBinaryMark then hexFloat negative ds
    else .ok (.int (signed negative (ofHex ds)))
  | ds =>
    if ds.any fun c => c = '.' || isDecimalMark c then .ok (.float (decimalFloat negative ds))
    else if Number.maxDigits < ds.length then .error (.tooManyDigits ds.length)
    else .ok (.int (signed negative (ofDecimal ds)))

end Numeral

/-- The text of an error, below the name of the grammar rule that was being evaluated. -/
def NumeralError.message (e : NumeralError) : String :=
  "Error trying to process rule \"number\":\n\n" ++ cause e
where
  cause : NumeralError → String
    | .hexTooLarge => "hexadecimal value too large to represent as a float"
    | .tooManyDigits n =>
      "Exceeds the limit (4300 digits) for integer string conversion: value has " ++ toString n
        ++ " digits; use sys.set_int_max_str_digits() to increase the limit"

end ShaderReflection.Assembly
