import ModelExpr.Kind

namespace ModelExpr

inductive Operand where
  | argument | slope | breakpoint | function
  deriving DecidableEq

namespace Operand

def all : List Operand := [.argument, .slope, .breakpoint, .function]

def name : Operand → String
  | .argument => "Argument"
  | .slope => "Slope"
  | .breakpoint => "Breakpoint"
  | .function => "Function"

def singular : Operand → String
  | .argument => "argument"
  | .slope => "slope"
  | .breakpoint => "breakpoint"
  | .function => "function"

def plural : Operand → String
  | .argument => "arguments"
  | .slope => "slopes"
  | .breakpoint => "breakpoints"
  | .function => "functions"

def ofName? (s : String) : Option Operand := all.find? (·.name = s)

end Operand

inductive Rejection where
  | invalidKind (kind : Kind)
  | invalidArgument (operand : Operand)
  | invalidCount (operand : Operand) (count : Nat)
  | overflow (operand : Operand)
  | underflow (operand : Operand)
  | indexOutOfBounds (index length : Nat)
  deriving DecidableEq

namespace Rejection

def code : Rejection → String
  | .invalidKind _ => "EXPR_INVALID_KIND"
  | .invalidArgument _ => "EXPR_INVALID_ARGUMENT"
  | .invalidCount _ _ => "EXPR_INVALID_COUNT"
  | .overflow _ => "EXPR_BUILDER_OVERFLOW"
  | .underflow _ => "EXPR_BUILDER_UNDERFLOW"
  | .indexOutOfBounds _ _ => "EXPR_INDEX_OUT_OF_BOUNDS"

def message : Rejection → String
  | .invalidKind k => s!"invalid expression kind: {k.symbol}"
  | .invalidArgument o => s!"invalid {o.singular}"
  | .invalidCount o n => s!"invalid number of {o.plural}: {n}"
  | .overflow o => s!"too many {o.plural}"
  | .underflow o => s!"too few {o.plural}"
  | .indexOutOfBounds i n => s!"index out of bounds: {i} (length {n})"

def text : Rejection → String
  | .invalidKind k => s!"InvalidExpressionKind \x7b kind: {k.name} \x7d"
  | .invalidArgument o => s!"InvalidArgument({o.name})"
  | .invalidCount o n => s!"InvalidArgumentCount \x7b operand: {o.name}, count: {n} \x7d"
  | .overflow o => s!"BuilderOverflow({o.name})"
  | .underflow o => s!"BuilderUnderflow({o.name})"
  | .indexOutOfBounds i n => s!"IndexOutOfBounds \x7b index: {i}, len: {n} \x7d"

end Rejection

def requireKind (k : Kind) (category : Kind → Bool) : Except Rejection Unit :=
  if category k then .ok () else .error (.invalidKind k)

def requireCount (o : Operand) (n least : Nat) : Except Rejection Unit :=
  if n < least ∨ UInt32.size - 1 ≤ n then .error (.invalidCount o n) else .ok ()

def requireIndex (i length : Nat) : Except Rejection (Fin length) :=
  if h : i < length then .ok ⟨i, h⟩ else .error (.indexOutOfBounds i length)

end ModelExpr
