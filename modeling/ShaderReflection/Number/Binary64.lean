/-! Binary64 numbers as exact scaled integers, and rounding to the nearest of them. -/
namespace ShaderReflection

/-- A number of the binary64 format: `±significand · 2^exponent`, or an infinity. -/
inductive Binary64 where
  | finite (negative : Bool) (significand : Nat) (exponent : Int)
  | infinite (negative : Bool)
  deriving DecidableEq, Repr

namespace Binary64

/-- The smallest full significand: 53 bits, of which the first is set. -/
def fullSignificand : Nat := 0x10000000000000

/-- The exponent of the smallest subnormal number. -/
def minExponent : Int := -1074

/-- The exponent of the largest finite numbers. -/
def maxExponent : Int := 971

/-- The value `num / den · 2^scale` as a quotient of natural numbers. -/
def scaled (num den : Nat) (scale : Int) : Nat × Nat :=
  match scale with
  | .ofNat k => (num * Nat.pow 2 k, den)
  | .negSucc k => (num, den * Nat.pow 2 (k + 1))

/-- The integer nearest to `num / den`, the even one of two. -/
def divEven (num den : Nat) : Nat :=
  let k := num / den
  let r := num % den
  if 2 * r < den then k
  else if den < 2 * r then k + 1
  else k + k % 2

/-- The largest `e` with `2^e ≤ num / den`, for positive `num` and `den`. -/
def floorLog2 (num den : Nat) : Int :=
  let e : Int := (num.log2 : Int) - den.log2
  let (n, d) := scaled num den (-e)
  if n < d then e - 1 else e

/-- The exponent of the last place kept when `num / den` is rounded. -/
def quantumExponent (num den : Nat) : Int :=
  max (floorLog2 num den - 52) minExponent

/-- Round the magnitude `num / den` to nearest, ties to even; what rounds past the largest
finite number is infinite. -/
def ofQuotient (negative : Bool) (num den : Nat) : Binary64 :=
  if num = 0 then .finite negative 0 minExponent
  else
    let q := quantumExponent num den
    let (n, d) := scaled num den (-q)
    let m := divEven n d
    let (m, q) := if m = 2 * fullSignificand then (fullSignificand, q + 1) else (m, q)
    if maxExponent < q then .infinite negative else .finite negative m q

/-- The nearest binary64 number to `±m · 2^e`. A magnitude of `2^1027` and more is infinite and
one below `2^-1080` is zero, so that no larger power is ever computed. -/
def ofBinary (negative : Bool) (m : Nat) (e : Int) : Binary64 :=
  if m = 0 then .finite negative 0 minExponent
  else if 1026 < e + m.log2 then .infinite negative
  else if e + m.log2 < -1080 then .finite negative 0 minExponent
  else
    let (n, d) := scaled m 1 e
    ofQuotient negative n d

/-- The nearest binary64 number to `±m · 10^e`, for `m` written with `digits` digits of which the
first is not zero. A magnitude of `10^320` and more is infinite and one below `10^-331` is zero. -/
def ofDecimal (negative : Bool) (m digits : Nat) (e : Int) : Binary64 :=
  if m = 0 then .finite negative 0 minExponent
  else if 320 < e + digits then .infinite negative
  else if e + digits < -330 then .finite negative 0 minExponent
  else
    match e with
    | .ofNat k => ofQuotient negative (m * Nat.pow 10 k) 1
    | .negSucc k => ofQuotient negative m (Nat.pow 10 (k + 1))

/-- The interchange encoding: sign, biased exponent and trailing significand. -/
def toBits : Binary64 → Nat
  | .infinite negative => signBit negative + 2047 * fullSignificand
  | .finite negative m q =>
    if m < fullSignificand then signBit negative + m
    else signBit negative + (q + 1075).toNat * fullSignificand + (m - fullSignificand)
where
  signBit (negative : Bool) : Nat := if negative then 2048 * fullSignificand else 0

end Binary64
end ShaderReflection
