/-! Decimal integers are read and written up to a number of digits. -/
namespace ShaderReflection.Number

/-- The most digits of a decimal integer. -/
def maxDigits : Nat := 4300

def fits (digits : Nat) (n : Int) : Bool := n.natAbs < Nat.pow 10 digits

/-- Whether an integer can be written; its sign does not count. -/
def isWritable (n : Int) : Bool := fits maxDigits n

/-- The decimal text of an integer, if it can be written. -/
def decimal? (n : Int) : Option String := if isWritable n then some (toString n) else none

/-- What is said of an integer that cannot be written. -/
def unwritableText : String :=
  "Exceeds the limit (4300 digits) for integer string conversion; "
    ++ "use sys.set_int_max_str_digits() to increase the limit"

theorem fits_iff {digits : Nat} (h : 0 < digits) (n : Int) :
    fits digits n = true ↔ (Nat.toDigits 10 n.natAbs).length ≤ digits :=
  decide_eq_true_iff.trans (Nat.length_toDigits_le_iff (by decide) h).symm

/-- An integer can be written iff its magnitude has at most `maxDigits` digits. -/
theorem isWritable_iff (n : Int) :
    isWritable n = true ↔ (Nat.toDigits 10 n.natAbs).length ≤ maxDigits :=
  fits_iff (by decide) n

end ShaderReflection.Number
