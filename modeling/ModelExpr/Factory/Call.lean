import ModelExpr.Factory.Basic
/-!
Calls: every operation of a factory that makes something, as data. Adding to a draft is not one of
them, because it does not concern the factory.
-/

namespace ModelExpr

inductive Construction (H : View → Type) (F : Type) where
  | constant (value : Binary64)
  | decisionVariable (index : UInt32)
  | logicalConstant (value : Bool)
  | addFunction (name : String)
  | unary (kind : Kind) (operand : H .numeric)
  | binary (kind : Kind) (left right : H .numeric)
  | relational (kind : Kind) (left right : H .numeric)
  | binaryLogical (kind : Kind) (left right : H .logical)
  | logicalCount (kind : Kind) (left : H .numeric) (right : H .count)
  | negation (operand : H .logical)
  | conditional (condition : H .logical) (consequent alternative : H .numeric)
  | implication (condition consequent alternative : H .logical)
  | beginCall (function : F) (count : Nat)
  | beginVararg (kind : Kind) (count : Nat)
  | beginSum (count : Nat)
  | beginNumberOf (count : Nat) (value : H .numeric)
  | beginCount (count : Nat)
  | beginIteratedLogical (kind : Kind) (count : Nat)
  | beginAllDiff (count : Nat)
  | beginTerm (breakpoints : Nat)

def Construction.mapM {m : Type → Type} [Monad m] {H K : View → Type} {F G : Type}
    (h : (v : View) → H v → m (K v)) (f : F → m G) : Construction H F → m (Construction K G)
  | .constant x => return .constant x
  | .decisionVariable i => return .decisionVariable i
  | .logicalConstant b => return .logicalConstant b
  | .addFunction name => return .addFunction name
  | .unary k a => return .unary k (← h _ a)
  | .binary k a b => return .binary k (← h _ a) (← h _ b)
  | .relational k a b => return .relational k (← h _ a) (← h _ b)
  | .binaryLogical k a b => return .binaryLogical k (← h _ a) (← h _ b)
  | .logicalCount k a b => return .logicalCount k (← h _ a) (← h _ b)
  | .negation a => return .negation (← h _ a)
  | .conditional c t e => return .conditional (← h _ c) (← h _ t) (← h _ e)
  | .implication c t e => return .implication (← h _ c) (← h _ t) (← h _ e)
  | .beginCall g n => return .beginCall (← f g) n
  | .beginVararg k n => return .beginVararg k n
  | .beginSum n => return .beginSum n
  | .beginNumberOf n x => return .beginNumberOf n (← h _ x)
  | .beginCount n => return .beginCount n
  | .beginIteratedLogical k n => return .beginIteratedLogical k n
  | .beginAllDiff n => return .beginAllDiff n
  | .beginTerm n => return .beginTerm n

inductive Product where
  | handle {view : View} (handle : Handle view)
  | function (function : FunctionRef)
  | draft {list : ListView} (draft : Draft list)
  | termDraft (draft : TermDraft)

namespace Product

def handle? : Product → Option AnyHandle
  | .handle h => some ⟨_, h⟩
  | _ => none

def function? : Product → Option FunctionRef
  | .function f => some f
  | _ => none

def ofDraft {l : ListView} (d : Except Rejection (Draft l)) : FactoryM Product := do
  return .draft (← liftM d)

def text : Product → String
  | .handle h => h.text
  | .function f => f.text
  | .draft d => d.text
  | .termDraft d => d.text

end Product

def Construction.perform : Construction Handle FunctionRef → FactoryM Product
  | .constant x => .handle <$> Factory.constant x
  | .decisionVariable i => .handle <$> Factory.decisionVariable i
  | .logicalConstant b => .handle <$> Factory.logicalConstant b
  | .addFunction name => .function <$> Factory.addFunction name
  | .unary k a => .handle <$> Factory.unary k a
  | .binary k a b => .handle <$> Factory.binary k a b
  | .relational k a b => .handle <$> Factory.relational k a b
  | .binaryLogical k a b => .handle <$> Factory.binaryLogical k a b
  | .logicalCount k a b => .handle <$> Factory.logicalCount k a b
  | .negation a => .handle <$> Factory.negation a
  | .conditional c t e => .handle <$> Factory.conditional c t e
  | .implication c t e => .handle <$> Factory.implication c t e
  | .beginCall f n => do Product.ofDraft (Draft.call (← get).store.functions.size f n)
  | .beginVararg k n => Product.ofDraft (Draft.vararg k n)
  | .beginSum n => Product.ofDraft (Draft.sum n)
  | .beginNumberOf n x => Product.ofDraft (Draft.numberOf n x)
  | .beginCount n => Product.ofDraft (Draft.count n)
  | .beginIteratedLogical k n => Product.ofDraft (Draft.iteratedLogical k n)
  | .beginAllDiff n => Product.ofDraft (Draft.allDiff n)
  | .beginTerm n => do return .termDraft (← liftM (TermDraft.ofBreakpoints n))

inductive Call where
  | construct (construction : Construction Handle FunctionRef)
  | finish {list : ListView} (draft : Draft list)
  | finishTerm (draft : TermDraft) (argument : Handle .decisionVariable)

def Call.perform : Call → FactoryM Product
  | .construct c => c.perform
  | .finish d => .handle <$> Factory.finish d
  | .finishTerm d v => .handle <$> Factory.finishTerm d v

end ModelExpr
