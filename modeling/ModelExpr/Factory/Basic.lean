import ModelExpr.Cursor
import ModelExpr.Draft
import ModelExpr.Event
import Std.Data.HashMap

namespace ModelExpr

structure Options where
  nodeCapacity : Nat := 0
  listCapacity : Nat := 0
  reuseNames : Bool := false
  deriving DecidableEq

def Options.text (o : Options) : String :=
  s!"FactoryConfig \x7b node_capacity: {o.nodeCapacity}, list_capacity: {o.listCapacity}, " ++
    s!"dedupe_functions: {o.reuseNames} \x7d"

/-- `names?` is kept when a name that is registered again gives the function it gave before. The log
holds the events in the order in which they were reported. -/
structure Factory where
  store : Store := .empty
  names? : Option (Std.HashMap String FunctionId) := none
  log : Array Event := #[]

abbrev FactoryM := ExceptT Failure (StateM Factory)

namespace Factory

def ofOptions (o : Options) : Except Fault Factory := do
  let store ← Store.withRoom o.nodeCapacity o.listCapacity
  return { store, names? := if o.reuseNames then some ∅ else none }

def number (t : Table) (length : Nat) : FactoryM UInt32 :=
  if length < UInt32.size then return length.toUInt32 else throw (.faulty (.full t length))

def report (e : Event) : FactoryM Unit := modify fun f => { f with log := f.log.push e }

def allocate (k : Kind) (p : Payload) : FactoryM Ref := do
  let id : ExprId := ⟨← number .expressions (← get).store.nodes.size⟩
  modify fun f => { f with store := f.store.pushNode k p }
  report (.allocated k id)
  return ⟨id, k⟩

def allocateOperands (xs : Array Ref) : FactoryM Span :=
  if xs.isEmpty then return .empty
  else do
    let start ← number .operands (← get).store.operands.size
    modify fun f => { f with store := f.store.appendOperands xs }
    let length ← number .operands xs.size
    return ⟨start, length⟩

def allocateNumbers (xs : Array Binary64) : FactoryM Span := do
  let start ← number .numbers (← get).store.numbers.size
  modify fun f => { f with store := f.store.appendNumbers xs }
  let length ← number .numbers xs.size
  return ⟨start, length⟩

def create (v : View) (k : Kind) (p : Payload) : FactoryM (Handle v) :=
  return .ofRef (← allocate k p)

def constant (x : Binary64) : FactoryM (Handle .numericConstant) :=
  create _ .constant (.number x)

def decisionVariable (i : UInt32) : FactoryM (Handle .decisionVariable) :=
  create _ .decisionVariable (.decisionVariable i)

def logicalConstant (b : Bool) : FactoryM (Handle .logicalConstant) :=
  create _ .logicalConstant (.truth b)

def known? (f : Factory) (name : String) : Option FunctionId := f.names?.bind (·[name]?)

def register (name : String) : FactoryM FunctionRef := do
  let id : FunctionId := ⟨← number .functions (← get).store.functions.size⟩
  modify fun f =>
    { f with
      store := f.store.pushFunction name
      names? := f.names?.map (·.insert name id) }
  report (.registered name id)
  return ⟨id⟩

def addFunction (name : String) : FactoryM FunctionRef := do
  match (← get).known? name with
  | some id => return ⟨id⟩
  | none => register name

def unary (k : Kind) (operand : Handle .numeric) : FactoryM (Handle .unary) := do
  requireKind k Kind.isUnary
  create _ k (.unary (← operand.require))

def binary (k : Kind) (left right : Handle .numeric) : FactoryM (Handle .binary) := do
  requireKind k Kind.isBinary
  create _ k (.binary (← left.require) (← right.require))

def conditional (condition : Handle .logical) (consequent alternative : Handle .numeric) :
    FactoryM (Handle .conditional) := do
  create _ .conditional
    (.branching (← condition.require) (← consequent.require) alternative.ref?)

def negation (operand : Handle .logical) : FactoryM (Handle .negation) := do
  create _ .not (.unary (← operand.require))

def binaryLogical (k : Kind) (left right : Handle .logical) :
    FactoryM (Handle .binaryLogical) := do
  requireKind k Kind.isBinaryLogical
  create _ k (.binary (← left.require) (← right.require))

def relational (k : Kind) (left right : Handle .numeric) : FactoryM (Handle .relational) := do
  requireKind k Kind.isRelational
  create _ k (.binary (← left.require) (← right.require))

def logicalCount (k : Kind) (left : Handle .numeric) (right : Handle .count) :
    FactoryM (Handle .logicalCount) := do
  requireKind k Kind.isLogicalCount
  create _ k (.binary (← left.require) (← right.require))

def implication (condition consequent alternative : Handle .logical) :
    FactoryM (Handle .implication) := do
  create _ .implication
    (.branching (← condition.require) (← consequent.require) alternative.ref?)

def listPayload {l : ListView} (d : Draft l) (operands : Span) : Payload :=
  if d.kind = .call then .call d.function operands else .list operands

def finish {l : ListView} (d : Draft l) : FactoryM (Handle l.view) :=
  match d.requireComplete with
  | .error r => do
    report (.rejectedList d.kind d.declared d.added)
    throw (.rejected r)
  | .ok () => do
    let operands ← allocateOperands d.operands
    let r ← allocate d.kind (listPayload d operands)
    report (.finishedList d.kind r.id d.added)
    return .ofRef r

def finishTerm (d : TermDraft) (argument : Handle .decisionVariable) :
    FactoryM (Handle .piecewiseLinear) := do
  d.requireComplete
  let argument ← argument.require
  let slopes ← allocateNumbers d.slopes
  let breakpoints ← allocateNumbers d.breakpoints
  let r ← allocate .piecewiseLinear (.piecewiseLinear slopes breakpoints argument)
  report (.finishedTerm r.id d.declared)
  return .ofRef r

end Factory

end ModelExpr
