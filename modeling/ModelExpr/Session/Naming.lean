import ModelExpr.Session.Datum

namespace ModelExpr

def Content.toDatum : (c : Content) → c.Value → Datum
  | .number, x => .number x
  | .index, i => .count i.toNat
  | .truth, b => .truth b
  | .count, n => .count n
  | .numbers, xs => .list (xs.toList.map .number)
  | .function, f => .text f.text
  | .handle _, h => .text h.text
  | .handles _, hs => .list (hs.toList.map fun h => .text h.text)

def Content.toProduct? : (c : Content) → c.Value → Option Product
  | .handle _, h => some (.handle h)
  | .function, f => some (.function f)
  | _, _ => none

namespace Field

abbrev Named (v : View) : Type := (c : Content) × Field v c

def only (v w : View) {c : Content} (f : v = w → Field v c) : Except Refusal (Named v) :=
  if h : v = w then .ok ⟨c, f h⟩ else .error .noField

def term (v : View) {c : Content} (f : v = .piecewiseLinear → Field v c) :
    Except Refusal (Named v) :=
  only v .piecewiseLinear f

def termAt (v : View) (i? : Option Nat) {c : Content} (f : v = .piecewiseLinear → Nat → Field v c) :
    Except Refusal (Named v) :=
  if h : v = .piecewiseLinear then
    match i? with
    | some i => .ok ⟨c, f h i⟩
    | none => .error .malformed
  else .error .noField

def named (v : View) (name : String) (i? : Option Nat) : Except Refusal (Named v) :=
  match name with
  | "value" =>
    if h : v = .logicalConstant then .ok ⟨_, .truth h⟩
    else if h : v = .numberOf then .ok ⟨_, .reference h⟩
    else only v .numericConstant .number
  | "index" => only v .decisionVariable .index
  | "arg" =>
    match h : v.argument?, k : v.list?, i? with
    | some _, _, _ => .ok ⟨_, .argument h⟩
    | none, some _, some i => .ok ⟨_, .operand k i⟩
    | none, some _, none => .error .malformed
    | none, none, _ => term v .termVariable
  | "lhs" =>
    match h : v.sides? with
    | some _ => .ok ⟨_, .left h⟩
    | none => .error .noField
  | "rhs" =>
    match h : v.sides? with
    | some _ => .ok ⟨_, .right h⟩
    | none => .error .noField
  | "condition" =>
    match h : v.branch? with
    | some _ => .ok ⟨_, .condition h⟩
    | none => .error .noField
  | "true_expr" =>
    match h : v.branch? with
    | some _ => .ok ⟨_, .consequent h⟩
    | none => .error .noField
  | "false_expr" =>
    match h : v.branch? with
    | some _ => .ok ⟨_, .alternative h⟩
    | none => .error .noField
  | "num_breakpoints" => term v .breakpointCount
  | "num_slopes" => term v .slopeCount
  | "slope" => termAt v i? .slope
  | "breakpoint" => termAt v i? .breakpoint
  | "slopes" => term v .slopes
  | "breakpoints" => term v .breakpoints
  | "var_index" => term v .termVariableIndex
  | "function" => only v .call .function
  | "num_args" =>
    match h : v.list? with
    | some _ => .ok ⟨_, .operandCount h⟩
    | none => .error .noField
  | "args" =>
    match h : v.list? with
    | some _ => .ok ⟨_, .operands h⟩
    | none => .error .noField
  | _ => .error .noField

def shown : List String :=
  ["value", "index", "arg", "lhs", "rhs", "condition", "true_expr", "false_expr", "slopes",
   "breakpoints", "function", "args"]

end Field

def Store.describe (s : Store) {v : View} (h : Handle v) : Except Failure Datum := do
  let fields ← Field.shown.filterMapM fun name => do
    match Field.named v name none with
    | .ok ⟨c, f⟩ => return some (name, c.toDatum (← s.read h f))
    | .error _ => return none
  return .record (("node", .text h.text) :: fields)

def Store.dump (s : Store) : Except Failure Datum := do
  let nodes ← s.kinds.toList.zipIdx.mapM fun (k, i) =>
    s.describe (v := .specific k) (.ofRef ⟨⟨i.toUInt32⟩, k⟩)
  return .list nodes

end ModelExpr
