import ModelExpr.Binary64.Basic

namespace ModelExpr

structure Decimal where
  digits : Nat
  exponent : Int
  deriving DecidableEq

structure RoundingInterval where
  low : Nat
  value : Nat
  high : Nat
  closed : Bool
  exponent : Int

namespace RoundingInterval

def ofFinite (x : Binary64) : RoundingInterval where
  low := 4 * x.significand - if x.fraction = 0 ∧ 1 < x.biasedExponent then 1 else 2
  value := 4 * x.significand
  high := 4 * x.significand + 2
  closed := x.significand % 2 = 0
  exponent := x.exponent - 2

def ratio (r : RoundingInterval) (k : Int) : Nat × Nat :=
  (Nat.pow 2 r.exponent.toNat * Nat.pow 10 (-k).toNat,
    Nat.pow 2 (-r.exponent).toNat * Nat.pow 10 k.toNat)

def holds (r : RoundingInterval) (k : Int) (n : Nat) : Bool :=
  let (a, b) := r.ratio k
  if r.closed then r.low * a ≤ n * b && n * b ≤ r.high * a
  else r.low * a < n * b && n * b < r.high * a

/-- The multiple of `10 ^ k` in the interval that is nearest to the value, the larger one on a tie.
Only the multiples next to the value on either side can be nearest. -/
def nearest? (r : RoundingInterval) (k : Int) : Option Decimal :=
  let (a, b) := r.ratio k
  let below := r.value * a / b
  match r.holds k below, r.holds k (below + 1) with
  | true, true => some ⟨if 2 * (r.value * a) < (2 * below + 1) * b then below else below + 1, k⟩
  | true, false => some ⟨below, k⟩
  | false, true => some ⟨below + 1, k⟩
  | false, false => none

def shortest (r : RoundingInterval) : Decimal :=
  ((List.range 633).findSome? fun i : Nat => r.nearest? (308 - i)).getD ⟨0, 0⟩

end RoundingInterval

namespace Decimal

def magnitude (d : Decimal) : Int := (toString d.digits).length - 1 + d.exponent

def positional (d : Decimal) : String :=
  let digits := toString d.digits
  if 0 ≤ d.exponent then
    digits ++ String.ofList (List.replicate d.exponent.toNat '0') ++ ".0"
  else
    let places := (-d.exponent).toNat
    let padded := List.replicate (places + 1 - digits.length) '0' ++ digits.toList
    String.ofList (padded.take (padded.length - places)) ++ "." ++
      String.ofList (padded.drop (padded.length - places))

def scientific (d : Decimal) : String :=
  match (toString d.digits).toList with
  | [] => ""
  | [c] => c.toString ++ "e" ++ toString d.magnitude
  | c :: rest => c.toString ++ "." ++ String.ofList rest ++ "e" ++ toString d.magnitude

def text (d : Decimal) : String :=
  if -4 ≤ d.magnitude ∧ d.magnitude < 16 then d.positional else d.scientific

end Decimal

/-- A zero keeps its sign, an integer its `.0`, and a NaN shows neither sign nor payload. -/
def Binary64.text (x : Binary64) : String :=
  if x.isNaN then "NaN"
  else
    let magnitude :=
      if x.isInfinite then "inf"
      else if x.significand = 0 then "0.0"
      else (RoundingInterval.ofFinite x).shortest.text
    if x.isNegative then "-" ++ magnitude else magnitude

end ModelExpr
