import ModelExpr.Fault
/-!
The store: the kinds and the payloads of the finished nodes in order of creation, the flat lists
their spans point into, and the names of the registered functions. All five lists only grow.
-/

namespace ModelExpr

structure Store where
  kinds : Array Kind := #[]
  nodes : Array Payload := #[]
  operands : Array Ref := #[]
  numbers : Array Binary64 := #[]
  functions : Array String := #[]
  deriving DecidableEq

namespace Store

def empty : Store := {}

/-- An empty store with room for nodes and operands. A list takes less than `2 ^ 63` bytes, of which
a node needs at least one and an operand eight. -/
def withRoom (nodes operands : Nat) : Except Fault Store :=
  if nodes < UInt64.size / 2 ∧ 8 * operands < UInt64.size / 2 then .ok empty else .error .oversized

def kind? (s : Store) (i : ExprId) : Option Kind := s.kinds[i.index]?

def expr? (s : Store) (i : ExprId) : Option (Handle .expr) :=
  (s.kind? i).map fun k => .ofRef ⟨i, k⟩

def function? (s : Store) (i : Nat) : Option FunctionRef :=
  if i < s.functions.size then some ⟨⟨i.toUInt32⟩⟩ else none

def node (s : Store) (i : ExprId) : Except Fault Payload :=
  match s.nodes[i.index]? with
  | some p => .ok p
  | none => .error (.indexOutOfRange i.index s.nodes.size)

def payload {v : View} (s : Store) (h : Handle v) : Except Fault Payload :=
  match h.ref? with
  | some r => s.node r.id
  | none => .error (.nullHandle v)

def operandsIn (s : Store) (r : Span) : Except Fault (Array Ref) :=
  if r.stop ≤ s.operands.size then .ok (s.operands.extract r.start.toNat r.stop)
  else .error (.spanOutOfRange r.stop s.operands.size)

def numbersIn (s : Store) (r : Span) : Except Fault (Array Binary64) :=
  if r.stop ≤ s.numbers.size then .ok (s.numbers.extract r.start.toNat r.stop)
  else .error (.spanOutOfRange r.stop s.numbers.size)

def operandsOf (s : Store) : Payload → Except Fault (List Ref)
  | .number _ | .decisionVariable _ | .truth _ => .ok []
  | .unary r => .ok [r]
  | .binary a b => .ok [a, b]
  | .branching c t e => .ok (c :: t :: e.toList)
  | .piecewiseLinear _ _ r => .ok [r]
  | .list r | .call _ r => (s.operandsIn r).map (·.toList)

def functionName (s : Store) (f : FunctionRef) : Except Fault String :=
  if f.isNull then .error .nullFunction
  else match s.functions[f.id.index]? with
    | some name => .ok name
    | none => .error (.indexOutOfRange f.id.index s.functions.size)

def pushNode (s : Store) (k : Kind) (p : Payload) : Store :=
  { s with kinds := s.kinds.push k, nodes := s.nodes.push p }

def appendOperands (s : Store) (xs : Array Ref) : Store := { s with operands := s.operands ++ xs }

def appendNumbers (s : Store) (xs : Array Binary64) : Store := { s with numbers := s.numbers ++ xs }

def pushFunction (s : Store) (name : String) : Store :=
  { s with functions := s.functions.push name }

def text (s : Store) : String :=
  s!"ExprArena \x7b nodes: {s.nodes.size}, operands: {s.operands.size}, " ++
    s!"numbers: {s.numbers.size}, functions: {s.functions.size} \x7d"

end Store

end ModelExpr
