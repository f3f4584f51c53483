import ModelExpr.Kind.Category
/-!
Views: the ways a handle may look at an expression. A view accepts some kinds, and it fixes the views
of the operands that are read through it.
-/

namespace ModelExpr

inductive View where
  | expr | numeric | logical
  | numericConstant | decisionVariable | unary | binary | conditional | piecewiseLinear
  | call | vararg | sum | numberOf | count
  | logicalConstant | negation | binaryLogical | relational | logicalCount | implication
  | iteratedLogical | allDiff
  deriving DecidableEq

namespace View

def all : List View :=
  [.expr, .numeric, .logical, .numericConstant, .decisionVariable, .unary, .binary, .conditional,
   .piecewiseLinear, .call, .vararg, .sum, .numberOf, .count, .logicalConstant, .negation,
   .binaryLogical, .relational, .logicalCount, .implication, .iteratedLogical, .allDiff]

def name : View → String
  | .expr => "Expr"
  | .numeric => "NumericExpr"
  | .logical => "LogicalExpr"
  | .numericConstant => "NumericConstant"
  | .decisionVariable => "Variable"
  | .unary => "UnaryExpr"
  | .binary => "BinaryExpr"
  | .conditional => "IfExpr"
  | .piecewiseLinear => "PLTerm"
  | .call => "CallExpr"
  | .vararg => "VarArgExpr"
  | .sum => "SumExpr"
  | .numberOf => "NumberOfExpr"
  | .count => "CountExpr"
  | .logicalConstant => "LogicalConstant"
  | .negation => "NotExpr"
  | .binaryLogical => "BinaryLogicalExpr"
  | .relational => "RelationalExpr"
  | .logicalCount => "LogicalCountExpr"
  | .implication => "ImplicationExpr"
  | .iteratedLogical => "IteratedLogicalExpr"
  | .allDiff => "AllDiffExpr"

def ofName? (s : String) : Option View := all.find? (·.name = s)

def accepts : View → Kind → Bool
  | .expr, _ => true
  | .numeric, k => k.isNumeric
  | .logical, k => k.isLogical
  | .numericConstant, k => k = .constant
  | .decisionVariable, k => k = .decisionVariable
  | .unary, k => k.isUnary
  | .binary, k => k.isBinary
  | .conditional, k => k = .conditional
  | .piecewiseLinear, k => k = .piecewiseLinear
  | .call, k => k = .call
  | .vararg, k => k.isVararg
  | .sum, k => k = .sum
  | .numberOf, k => k = .numberOf
  | .count, k => k = .count
  | .logicalConstant, k => k = .logicalConstant
  | .negation, k => k = .not
  | .binaryLogical, k => k.isBinaryLogical
  | .relational, k => k.isRelational
  | .logicalCount, k => k.isLogicalCount
  | .implication, k => k = .implication
  | .iteratedLogical, k => k.isIteratedLogical
  | .allDiff, k => k = .allDiff

def isSpecific : View → Bool
  | .expr | .numeric | .logical => false
  | _ => true

def above : View → View
  | .expr | .numeric | .logical => .expr
  | .numericConstant | .decisionVariable | .unary | .binary | .conditional | .piecewiseLinear
  | .call | .vararg | .sum | .numberOf | .count => .numeric
  | .logicalConstant | .negation | .binaryLogical | .relational | .logicalCount | .implication
  | .iteratedLogical | .allDiff => .logical

def widensTo (v w : View) : Bool := v.isSpecific && (w = v || w = v.above)

def specific (k : Kind) : View := (all.find? fun v => v.isSpecific && v.accepts k).getD .expr

def argument? : View → Option View
  | .unary => some .numeric
  | .negation => some .logical
  | _ => none

def sides? : View → Option (View × View)
  | .binary | .relational => some (.numeric, .numeric)
  | .binaryLogical => some (.logical, .logical)
  | .logicalCount => some (.numeric, .count)
  | _ => none

def branch? : View → Option View
  | .conditional => some .numeric
  | .implication => some .logical
  | _ => none

end View

inductive ListView where
  | call | vararg | sum | numberOf | count | iteratedLogical | allDiff
  deriving DecidableEq

namespace ListView

def view : ListView → View
  | .call => .call
  | .vararg => .vararg
  | .sum => .sum
  | .numberOf => .numberOf
  | .count => .count
  | .iteratedLogical => .iteratedLogical
  | .allDiff => .allDiff

def element : ListView → View
  | .call => .expr
  | .vararg | .sum | .numberOf | .allDiff => .numeric
  | .count | .iteratedLogical => .logical

end ListView

def View.list? : View → Option ListView
  | .call => some .call
  | .vararg => some .vararg
  | .sum => some .sum
  | .numberOf => some .numberOf
  | .count => some .count
  | .iteratedLogical => some .iteratedLogical
  | .allDiff => some .allDiff
  | _ => none

theorem View.list?_eq_some_iff {v : View} {l : ListView} : v.list? = some l ↔ v = l.view := by
  cases v <;> cases l <;> simp [View.list?, ListView.view]

end ModelExpr
