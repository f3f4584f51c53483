namespace ModelExpr

structure Binary64 where
  bits : UInt64
  deriving DecidableEq

namespace Binary64

def isNegative (x : Binary64) : Bool := UInt64.size / 2 ≤ x.bits.toNat

def biasedExponent (x : Binary64) : Nat := (x.bits >>> 52).toNat % 2048

def fraction (x : Binary64) : Nat := x.bits.toNat % (1 <<< 52)

def isNaN (x : Binary64) : Bool := x.biasedExponent = 2047 && x.fraction ≠ 0

def isInfinite (x : Binary64) : Bool := x.biasedExponent = 2047 && x.fraction = 0

def significand (x : Binary64) : Nat :=
  if x.biasedExponent = 0 then x.fraction else (1 <<< 52) + x.fraction

def exponent (x : Binary64) : Int :=
  if x.biasedExponent = 0 then -1074 else x.biasedExponent - 1075

end Binary64

end ModelExpr
