import ModelExpr.Kind

namespace ModelExpr.Kind

def isLogical : Kind → Bool
  | .logicalConstant | .not | .or | .and | .lt | .le | .eq | .ge | .gt | .ne | .atLeast | .atMost
  | .exactly | .implication | .existential | .universal | .allDiff => true
  | _ => false

def isNumeric (k : Kind) : Bool := !k.isLogical

def isUnary : Kind → Bool
  | .minus | .abs | .floor | .ceil | .sqrt | .pow2 | .exp | .log | .log10 | .sin | .sinh | .cos
  | .cosh | .tan | .tanh | .asin | .asinh | .acos | .acosh | .atan | .atanh => true
  | _ => false

def isBinary : Kind → Bool
  | .add | .sub | .less | .mul | .div | .truncDiv | .mod | .pow | .powConstBase | .powConstExp
  | .atan2 | .precision | .round | .trunc => true
  | _ => false

def isVararg : Kind → Bool
  | .min | .max => true
  | _ => false

def isBinaryLogical : Kind → Bool
  | .or | .and => true
  | _ => false

def isRelational : Kind → Bool
  | .lt | .le | .eq | .ge | .gt | .ne => true
  | _ => false

def isLogicalCount : Kind → Bool
  | .atLeast | .atMost | .exactly => true
  | _ => false

def isIteratedLogical : Kind → Bool
  | .existential | .universal => true
  | _ => false

def isIterated : Kind → Bool
  | .call | .min | .max | .sum | .numberOf | .count | .existential | .universal | .allDiff => true
  | _ => false

def categories (k : Kind) : List String :=
  [("is_logical", k.isLogical), ("is_numeric", k.isNumeric), ("is_unary", k.isUnary),
    ("is_binary", k.isBinary), ("is_vararg", k.isVararg), ("is_binary_logical", k.isBinaryLogical),
    ("is_relational", k.isRelational), ("is_logical_count", k.isLogicalCount),
    ("is_iterated_logical", k.isIteratedLogical), ("is_iterated", k.isIterated)].filterMap
      fun (name, holds) => if holds then some name else none

end ModelExpr.Kind
