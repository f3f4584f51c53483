import ModelExpr.Store.Basic

namespace ModelExpr

inductive Content where
  | number | index | truth | count | numbers | function
  | handle (view : View)
  | handles (view : View)
  deriving DecidableEq

abbrev Content.Value : Content → Type
  | .number => Binary64
  | .index => UInt32
  | .truth => Bool
  | .count => Nat
  | .numbers => Array Binary64
  | .function => FunctionRef
  | .handle v => Handle v
  | .handles v => Array (Handle v)

inductive Field (v : View) : Content → Type where
  | number : v = .numericConstant → Field v .number
  | truth : v = .logicalConstant → Field v .truth
  | index : v = .decisionVariable → Field v .index
  | argument {w : View} : v.argument? = some w → Field v (.handle w)
  | left {a b : View} : v.sides? = some (a, b) → Field v (.handle a)
  | right {a b : View} : v.sides? = some (a, b) → Field v (.handle b)
  | condition {w : View} : v.branch? = some w → Field v (.handle .logical)
  | consequent {w : View} : v.branch? = some w → Field v (.handle w)
  | alternative {w : View} : v.branch? = some w → Field v (.handle w)
  | slopes : v = .piecewiseLinear → Field v .numbers
  | breakpoints : v = .piecewiseLinear → Field v .numbers
  | slopeCount : v = .piecewiseLinear → Field v .count
  | breakpointCount : v = .piecewiseLinear → Field v .count
  | slope : v = .piecewiseLinear → Nat → Field v .number
  | breakpoint : v = .piecewiseLinear → Nat → Field v .number
  | termVariable : v = .piecewiseLinear → Field v (.handle .decisionVariable)
  | termVariableIndex : v = .piecewiseLinear → Field v .index
  | function : v = .call → Field v .function
  | reference : v = .numberOf → Field v (.handle .numeric)
  | operandCount {l : ListView} : v.list? = some l → Field v .count
  | operand {l : ListView} : v.list? = some l → Nat → Field v (.handle l.element)
  | operands {l : ListView} : v.list? = some l → Field v (.handles l.element)

namespace Store

variable {v : View}

def readNumber (s : Store) (h : Handle v) : Except Fault Binary64 := do
  match ← s.payload h with
  | .number x => .ok x
  | p => .error (.mismatch v p)

def readTruth (s : Store) (h : Handle v) : Except Fault Bool := do
  match ← s.payload h with
  | .truth b => .ok b
  | p => .error (.mismatch v p)

def readIndex (s : Store) (h : Handle v) : Except Fault UInt32 := do
  match ← s.payload h with
  | .decisionVariable i => .ok i
  | p => .error (.mismatch v p)

def readUnary (s : Store) (h : Handle v) : Except Fault Ref := do
  match ← s.payload h with
  | .unary r => .ok r
  | p => .error (.mismatch v p)

def readBinary (s : Store) (h : Handle v) : Except Fault (Ref × Ref) := do
  match ← s.payload h with
  | .binary a b => .ok (a, b)
  | p => .error (.mismatch v p)

def readBranches (s : Store) (h : Handle v) : Except Fault (Ref × Ref × Option Ref) := do
  match ← s.payload h with
  | .branching c t e => .ok (c, t, e)
  | p => .error (.mismatch v p)

def readTerm (s : Store) (h : Handle v) : Except Fault (Span × Span × Ref) := do
  match ← s.payload h with
  | .piecewiseLinear slopes breakpoints r => .ok (slopes, breakpoints, r)
  | p => .error (.mismatch v p)

def readSlopes (s : Store) (h : Handle v) : Except Fault (Array Binary64) := do
  s.numbersIn (← s.readTerm h).1

def readBreakpoints (s : Store) (h : Handle v) : Except Fault (Array Binary64) := do
  s.numbersIn (← s.readTerm h).2.1

def readTermVariable (s : Store) (h : Handle v) : Except Fault (Handle .decisionVariable) := do
  return .ofRef (← s.readTerm h).2.2

def readFunction (s : Store) (h : Handle v) : Except Fault FunctionRef := do
  match ← s.payload h with
  | .call f _ => .ok ⟨f⟩
  | p => .error (.mismatch v p)

def readOperands (s : Store) (h : Handle v) : Except Fault (Array Ref) := do
  match ← s.payload h with
  | .list r | .call _ r => s.operandsIn r
  | p => .error (.mismatch v p)

def readReference (s : Store) (h : Handle v) : Except Fault Ref := do
  match (← s.readOperands h)[0]? with
  | some r => .ok r
  | none => .error (.indexOutOfRange 0 0)

def entry {α : Type} (xs : Except Fault (Array α)) (i : Nat) : Except Failure α := do
  let xs ← liftM xs
  return xs[← liftM (requireIndex i xs.size)]

def read (s : Store) (h : Handle v) {c : Content} : Field v c → Except Failure c.Value
  | .number _ => liftM (s.readNumber h)
  | .truth _ => liftM (s.readTruth h)
  | .index _ => liftM (s.readIndex h)
  | .argument _ => liftM ((s.readUnary h).map .ofRef)
  | .left _ => liftM ((s.readBinary h).map (.ofRef ·.1))
  | .right _ => liftM ((s.readBinary h).map (.ofRef ·.2))
  | .condition _ => liftM ((s.readBranches h).map (.ofRef ·.1))
  | .consequent _ => liftM ((s.readBranches h).map (.ofRef ·.2.1))
  | .alternative _ => liftM ((s.readBranches h).map (⟨·.2.2⟩))
  | .slopes _ => liftM (s.readSlopes h)
  | .breakpoints _ => liftM (s.readBreakpoints h)
  | .slopeCount _ => liftM ((s.readSlopes h).map (·.size))
  | .breakpointCount _ => liftM ((s.readBreakpoints h).map (·.size))
  | .slope _ i => entry (s.readSlopes h) i
  | .breakpoint _ i => entry (s.readBreakpoints h) i
  | .termVariable _ => liftM (s.readTermVariable h)
  | .termVariableIndex _ => liftM (s.readTermVariable h >>= s.readIndex)
  | .function _ => liftM (s.readFunction h)
  | .reference _ => liftM ((s.readReference h).map .ofRef)
  | .operandCount _ => liftM ((s.readOperands h).map (·.size))
  | .operand _ i => (entry (s.readOperands h) i).map .ofRef
  | .operands _ => liftM ((s.readOperands h).map (·.map .ofRef))

end Store

end ModelExpr
