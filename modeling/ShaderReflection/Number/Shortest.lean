import ShaderReflection.Number.Binary64

/-! The shortest decimal that reads back as a given binary64 number, and its layout. -/
namespace ShaderReflection

/-- The number `±0.d₁d₂… · 10^point` with digits `d₁d₂…`. -/
structure Decimal where
  digits : List Char
  point : Int
  deriving DecidableEq, Repr

namespace Binary64

/-- The values that round to a number lie between `lower / den` and `upper / den`, around
`value / den`; the ends belong to them iff `closed`. -/
structure Neighbourhood where
  lower : Nat
  value : Nat
  upper : Nat
  den : Nat
  closed : Bool

/-- Half of the gap to the next number on each side; below a power of two the gap is smaller. -/
def neighbourhood (m : Nat) (q : Int) : Neighbourhood :=
  let down := if m = fullSignificand ∧ minExponent < q then 1 else 2
  let (n, d) := scaled 1 4 q
  { lower := (4 * m - down) * n, value := 4 * m * n, upper := (4 * m + 2) * n, den := d,
    closed := m % 2 = 0 }

/-- Whether `num / den` is one of the values that round to the number. -/
def Neighbourhood.contains (h : Neighbourhood) (num den : Nat) : Bool :=
  if h.closed then h.lower * den ≤ num * h.den && num * h.den ≤ h.upper * den
  else h.lower * den < num * h.den && num * h.den < h.upper * den

/-- The value `num / den · 10^scale` as a quotient of natural numbers. -/
def decimalScaled (num den : Nat) (scale : Int) : Nat × Nat :=
  match scale with
  | .ofNat k => (num * Nat.pow 10 k, den)
  | .negSucc k => (num, den * Nat.pow 10 (k + 1))

/-- The least `p` with `num / den < 10^p`, for positive `num` and `den`. -/
def decimalPoint (num den : Nat) : Int :=
  let a : Int := (Nat.toDigits 10 num).length - (Nat.toDigits 10 den).length
  let (n, d) := decimalScaled num den (-a)
  if n < d then a else a + 1

/-- The point of the grid `10^unit` that is nearest to the number among those that round to it,
the even one of two. -/
def nearestOnGrid (h : Neighbourhood) (unit : Int) : Option Nat :=
  let (n, d) := decimalScaled h.value h.den (-unit)
  let below := n / d
  let inside (k : Nat) : Bool :=
    let (kn, kd) := decimalScaled k 1 unit
    h.contains kn kd
  match inside below, inside (below + 1) with
  | true, true => some (divEven n d)
  | true, false => some below
  | false, true => some (below + 1)
  | false, false => none

/-- Try one digit, two digits and so on; seventeen always suffice. -/
def shortestFrom (h : Neighbourhood) (point : Int) (count : Nat) : Nat → Decimal
  | 0 => ⟨['0'], point⟩
  | more + 1 =>
    match nearestOnGrid h (point - count) with
    | some k =>
      let digits := Nat.toDigits 10 k
      { digits := (digits.reverse.dropWhile (· = '0')).reverse,
        point := point - count + digits.length }
    | none => shortestFrom h point (count + 1) more

/-- The fewest digits that read back as `m · 2^q`, the nearest of those. -/
def shortest (m : Nat) (q : Int) : Decimal :=
  if m = 0 then ⟨['0'], 1⟩
  else
    let h := neighbourhood m q
    shortestFrom h (decimalPoint h.value h.den) 1 17

/-- An exponent is written with its sign and at least two digits. -/
def exponentText (e : Int) : List Char :=
  let digits := Nat.toDigits 10 e.natAbs
  let digits := if digits.length < 2 then '0' :: digits else digits
  'e' :: (if e < 0 then '-' else '+') :: digits

/-- Positional notation for a point from -3 to 16, which keeps at least one digit on either side
of the point; otherwise one digit before the point and an exponent. -/
def Decimal.layout (x : Decimal) : List Char :=
  let n : Int := x.digits.length
  if -4 < x.point ∧ x.point ≤ 16 then
    if x.point ≤ 0 then
      '0' :: '.' :: (List.replicate (-x.point).toNat '0' ++ x.digits)
    else if n ≤ x.point then
      x.digits ++ List.replicate (x.point - n).toNat '0' ++ ['.', '0']
    else
      x.digits.take x.point.toNat ++ '.' :: x.digits.drop x.point.toNat
  else
    match x.digits with
    | [] => exponentText (x.point - 1)
    | [d] => d :: exponentText (x.point - 1)
    | d :: ds => d :: '.' :: (ds ++ exponentText (x.point - 1))

/-- The text of a number: its shortest decimal with a sign, or `inf`. -/
def text : Binary64 → String
  | .finite negative m q => sign negative ++ String.ofList (Decimal.layout (shortest m q))
  | .infinite negative => sign negative ++ "inf"
where
  sign (negative : Bool) : String := if negative then "-" else ""

end Binary64
end ShaderReflection
