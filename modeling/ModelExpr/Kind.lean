namespace ModelExpr

inductive Kind where
  | constant | decisionVariable
  | minus | abs | floor | ceil | sqrt | pow2 | exp | log | log10 | sin | sinh | cos | cosh | tan
  | tanh | asin | asinh | acos | acosh | atan | atanh
  | add | sub | less | mul | div | truncDiv | mod | pow | powConstBase | powConstExp | atan2
  | precision | round | trunc
  | conditional | piecewiseLinear | call | min | max | sum | numberOf | count
  | logicalConstant
  | not | or | and
  | lt | le | eq | ge | gt | ne
  | atLeast | atMost | exactly
  | implication | existential | universal | allDiff
  deriving DecidableEq

namespace Kind

def all : List Kind :=
  [.constant, .decisionVariable, .minus, .abs, .floor, .ceil, .sqrt, .pow2, .exp, .log, .log10,
   .sin, .sinh, .cos, .cosh, .tan, .tanh, .asin, .asinh, .acos, .acosh, .atan, .atanh, .add,
   .sub, .less, .mul, .div, .truncDiv, .mod, .pow, .powConstBase, .powConstExp, .atan2,
   .precision, .round, .trunc, .conditional, .piecewiseLinear, .call, .min, .max, .sum,
   .numberOf, .count, .logicalConstant, .not, .or, .and, .lt, .le, .eq, .ge, .gt, .ne, .atLeast,
   .atMost, .exactly, .implication, .existential, .universal, .allDiff]

def index (k : Kind) : Nat := k.ctorIdx

def name : Kind → String
  | .constant => "Constant"
  | .decisionVariable => "Variable"
  | .minus => "Minus"
  | .abs => "Abs"
  | .floor => "Floor"
  | .ceil => "Ceil"
  | .sqrt => "Sqrt"
  | .pow2 => "Pow2"
  | .exp => "Exp"
  | .log => "Log"
  | .log10 => "Log10"
  | .sin => "Sin"
  | .sinh => "Sinh"
  | .cos => "Cos"
  | .cosh => "Cosh"
  | .tan => "Tan"
  | .tanh => "Tanh"
  | .asin => "Asin"
  | .asinh => "Asinh"
  | .acos => "Acos"
  | .acosh => "Acosh"
  | .atan => "Atan"
  | .atanh => "Atanh"
  | .add => "Add"
  | .sub => "Sub"
  | .less => "Less"
  | .mul => "Mul"
  | .div => "Div"
  | .truncDiv => "TruncDiv"
  | .mod => "Mod"
  | .pow => "Pow"
  | .powConstBase => "PowConstBase"
  | .powConstExp => "PowConstExp"
  | .atan2 => "Atan2"
  | .precision => "Precision"
  | .round => "Round"
  | .trunc => "Trunc"
  | .conditional => "If"
  | .piecewiseLinear => "PLTerm"
  | .call => "Call"
  | .min => "Min"
  | .max => "Max"
  | .sum => "Sum"
  | .numberOf => "NumberOf"
  | .count => "Count"
  | .logicalConstant => "LogicalConstant"
  | .not => "Not"
  | .or => "Or"
  | .and => "And"
  | .lt => "Lt"
  | .le => "Le"
  | .eq => "Eq"
  | .ge => "Ge"
  | .gt => "Gt"
  | .ne => "Ne"
  | .atLeast => "AtLeast"
  | .atMost => "AtMost"
  | .exactly => "Exactly"
  | .implication => "Implication"
  | .existential => "Exists"
  | .universal => "ForAll"
  | .allDiff => "AllDiff"

def symbol : Kind → String
  | .constant => "number"
  | .decisionVariable => "variable"
  | .minus => "unary -"
  | .abs => "abs"
  | .floor => "floor"
  | .ceil => "ceil"
  | .sqrt => "sqrt"
  | .pow2 => "^2"
  | .exp => "exp"
  | .log => "log"
  | .log10 => "log10"
  | .sin => "sin"
  | .sinh => "sinh"
  | .cos => "cos"
  | .cosh => "cosh"
  | .tan => "tan"
  | .tanh => "tanh"
  | .asin => "asin"
  | .asinh => "asinh"
  | .acos => "acos"
  | .acosh => "acosh"
  | .atan => "atan"
  | .atanh => "atanh"
  | .add => "+"
  | .sub => "-"
  | .less => "less"
  | .mul => "*"
  | .div => "/"
  | .truncDiv => "div"
  | .mod => "mod"
  | .pow | .powConstBase | .powConstExp => "^"
  | .atan2 => "atan2"
  | .precision => "precision"
  | .round => "round"
  | .trunc => "trunc"
  | .conditional => "if"
  | .piecewiseLinear => "pl term"
  | .call => "function call"
  | .min => "min"
  | .max => "max"
  | .sum => "sum"
  | .numberOf => "numberof"
  | .count => "count"
  | .logicalConstant => "bool"
  | .not => "!"
  | .or => "||"
  | .and => "&&"
  | .lt => "<"
  | .le => "<="
  | .eq => "="
  | .ge => ">="
  | .gt => ">"
  | .ne => "!="
  | .atLeast => "atleast"
  | .atMost => "atmost"
  | .exactly => "exactly"
  | .implication => "==>"
  | .existential => "exists"
  | .universal => "forall"
  | .allDiff => "alldiff"

def ofName? (s : String) : Option Kind := all.find? (·.name = s)

def sort (ks : List Kind) : List Kind := ks.mergeSort (·.index ≤ ·.index)

end Kind

end ModelExpr
