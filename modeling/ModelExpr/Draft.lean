import ModelExpr.Handle
import ModelExpr.Binary64.Shortest

namespace ModelExpr

structure Draft (list : ListView) where
  kind : Kind
  function : FunctionId
  declared : Nat
  operands : Array Ref := #[]
  deriving DecidableEq

namespace Draft

variable {l : ListView}

def added (d : Draft l) : Nat := d.operands.size

def text (d : Draft l) : String :=
  s!"ExprBuilder \x7b kind: {d.kind.name}, num_args: {d.declared}, added: {d.added} \x7d"

def ofKind (k : Kind) (n least : Nat) : Except Rejection (Draft l) := do
  requireCount .argument n least
  return { kind := k, function := .invalid, declared := n }

def requireFunction (functions : Nat) (f : FunctionRef) : Except Rejection Unit :=
  if f.isNull ∨ functions ≤ f.id.index then .error (.invalidArgument .function) else .ok ()

def call (functions : Nat) (f : FunctionRef) (n : Nat) : Except Rejection (Draft .call) := do
  requireFunction functions f
  requireCount .argument n 0
  return { kind := .call, function := f.id, declared := n }

def vararg (k : Kind) (n : Nat) : Except Rejection (Draft .vararg) := do
  requireKind k Kind.isVararg
  ofKind k n 0

def sum (n : Nat) : Except Rejection (Draft .sum) := ofKind .sum n 0

def numberOf (n : Nat) (value : Handle .numeric) : Except Rejection (Draft .numberOf) := do
  let d : Draft .numberOf ← ofKind .numberOf n 1
  return { d with operands := #[← value.require] }

def count (n : Nat) : Except Rejection (Draft .count) := ofKind .count n 0

def iteratedLogical (k : Kind) (n : Nat) : Except Rejection (Draft .iteratedLogical) := do
  requireKind k Kind.isIteratedLogical
  ofKind k n 0

def allDiff (n : Nat) : Except Rejection (Draft .allDiff) := ofKind .allDiff n 0

/-- A null operand is refused even when the draft is full. -/
def add (operand : Handle l.element) : ExceptT Rejection (StateM (Draft l)) Unit := do
  let r ← operand.require
  if (← get).operands.size = (← get).declared then throw (.overflow .argument)
  else modify fun d => { d with operands := d.operands.push r }

def requireComplete (d : Draft l) : Except Rejection Unit :=
  if d.operands.size < d.declared then .error (.underflow .argument) else .ok ()

end Draft

structure TermDraft where
  declared : Nat
  slopes : Array Binary64 := #[]
  breakpoints : Array Binary64 := #[]
  deriving DecidableEq

namespace TermDraft

def declaredSlopes (d : TermDraft) : Nat := d.declared + 1

def numbersText (xs : Array Binary64) : String :=
  "[" ++ ", ".intercalate (xs.toList.map Binary64.text) ++ "]"

def text (d : TermDraft) : String :=
  s!"PLTermBuilder \x7b slopes: {numbersText d.slopes}, " ++
    s!"breakpoints: {numbersText d.breakpoints}, num_breakpoints: {d.declared} \x7d"

def ofBreakpoints (n : Nat) : Except Rejection TermDraft := do
  requireCount .breakpoint n 1
  return { declared := n }

def addSlope (x : Binary64) : ExceptT Rejection (StateM TermDraft) Unit := do
  if (← get).slopes.size = (← get).declaredSlopes then throw (.overflow .slope)
  else modify fun d => { d with slopes := d.slopes.push x }

def addBreakpoint (x : Binary64) : ExceptT Rejection (StateM TermDraft) Unit := do
  if (← get).breakpoints.size = (← get).declared then throw (.overflow .breakpoint)
  else modify fun d => { d with breakpoints := d.breakpoints.push x }

/-- Missing breakpoints are reported before missing slopes. -/
def requireComplete (d : TermDraft) : Except Rejection Unit :=
  if d.breakpoints.size < d.declared then .error (.underflow .breakpoint)
  else if d.slopes.size < d.declaredSlopes then .error (.underflow .slope)
  else .ok ()

end TermDraft

end ModelExpr
