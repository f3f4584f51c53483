import ModelExpr.Cursor
import ModelExpr.Factory.Call
/-!
Clients: programs that work with one factory and pass to it only what they have from it. A client
reaches a handle by a chain of reads, lookups and casts that starts from what its calls made. Chains
are followed in the store as it is when the handle is used.
-/

namespace ModelExpr

inductive Take where
  | front (passed : Nat)
  | back (passed : Nat)

namespace Cursor

variable {v : View}

def take (c : Cursor v) : Take → Option (Handle v) × Cursor v
  | .front k => c.nth k
  | .back k => c.nthBack k

def takeAll (c : Cursor v) (ts : List Take) : Cursor v := ts.foldl (fun c t => (c.take t).2) c

end Cursor

/-- The ways to reach a handle of a view. Products are numbered in the order in which they were
made. -/
inductive Access : View → Type where
  | null (view : View) : Access view
  | made (view : View) (product : Nat) : Access view
  | lookup (id : ExprId) : Access .expr
  | cast {v : View} (origin : Access v) (view : View) : Access view
  | field {v w : View} (origin : Access v) (field : Field v (.handle w)) : Access w
  | operand {l : ListView} (origin : Access l.view) (earlier : List Take) (last : Take) :
    Access l.element

inductive Callee where
  | null
  | made (product : Nat)
  | lookup (index : Nat)
  | field (origin : Access .call)

inductive Action (H : View → Type) (F : Type) where
  | construct (construction : Construction H F)
  | add {l : ListView} (draft : Nat) (operand : H l.element)
  | addSlope (draft : Nat) (value : Binary64)
  | addBreakpoint (draft : Nat) (value : Binary64)
  | finish (draft : Nat)
  | finishTerm (draft : Nat) (argument : H .decisionVariable)

def Action.mapM {m : Type → Type} [Monad m] {H K : View → Type} {F G : Type}
    (h : (v : View) → H v → m (K v)) (f : F → m G) : Action H F → m (Action K G)
  | .construct c => return .construct (← c.mapM h f)
  | .add i x => return .add i (← h _ x)
  | .addSlope i x => return .addSlope i x
  | .addBreakpoint i x => return .addBreakpoint i x
  | .finish i => return .finish i
  | .finishTerm i x => return .finishTerm i (← h _ x)

structure Deed where
  action : Action Handle FunctionRef
  answer : Except Failure (Option Product)

/-- A draft that is finished leaves its number without a product. -/
structure Client where
  factory : Factory
  products : List (Option Product) := []
  history : List Deed := []

namespace Client

def store (C : Client) : Store := C.factory.store

def product? (C : Client) (i : Nat) : Option Product := C.products[i]?.join

end Client

namespace Product

def handleOf? (v : View) : Product → Option (Handle v)
  | @handle w h => if e : w = v then some (e ▸ h) else none
  | _ => none

def draftOf? (l : ListView) : Product → Option (Draft l)
  | @draft m d => if e : m = l then some (e ▸ d) else none
  | _ => none

end Product

def Access.eval (C : Client) : {v : View} → Access v → Option (Handle v)
  | _, .null _ => some .null
  | _, .made v i => do (← C.product? i).handleOf? v
  | _, .lookup i => C.store.expr? i
  | _, .cast a w => do ((← a.eval C).recast w).toOption
  | _, .field a f => do (C.store.read (← a.eval C) f).toOption
  | _, .operand a earlier last => do
    let c ← (C.store.cursor (← a.eval C)).toOption
    ((c.takeAll earlier).take last).1

def Callee.eval (C : Client) : Callee → Option FunctionRef
  | .null => some .null
  | .made i => do (← C.product? i).function?
  | .lookup i => C.store.function? i
  | .field a => do (C.store.read (← a.eval C) (.function rfl)).toOption

namespace Client

def keep (C : Client) (a : Action Handle FunctionRef) (result : Except Failure Product × Factory) :
    Client :=
  { factory := result.2
    products := C.products ++ result.1.toOption.toList.map some
    history := C.history ++ [⟨a, result.1.map some⟩] }

def update (C : Client) (a : Action Handle FunctionRef) (i : Nat)
    (result : Except Rejection Unit × Product) : Client :=
  { C with
    products := C.products.set i result.2
    history := C.history ++ [⟨a, (result.1.map fun _ => none).mapError .rejected⟩] }

def release (C : Client) (i : Nat) : Client := { C with products := C.products.set i none }

def perform (C : Client) (a : Action Handle FunctionRef) : Client :=
  match a with
  | .construct c => C.keep a ((Call.construct c).perform.run C.factory)
  | @Action.add _ _ l i x =>
    match (C.product? i).bind (·.draftOf? l) with
    | some d => C.update a i (((Draft.add x).run d).map id .draft)
    | none => C
  | .addSlope i x =>
    match C.product? i with
    | some (.termDraft d) => C.update a i (((TermDraft.addSlope x).run d).map id .termDraft)
    | _ => C
  | .addBreakpoint i x =>
    match C.product? i with
    | some (.termDraft d) => C.update a i (((TermDraft.addBreakpoint x).run d).map id .termDraft)
    | _ => C
  | .finish i =>
    match C.product? i with
    | some (.draft d) => (C.release i).keep a ((Call.finish d).perform.run C.factory)
    | _ => C
  | .finishTerm i x =>
    match C.product? i with
    | some (.termDraft d) => (C.release i).keep a ((Call.finishTerm d x).perform.run C.factory)
    | _ => C

def step (C : Client) (a : Action Access Callee) : Client :=
  match a.mapM (fun _ => Access.eval C) (Callee.eval C) with
  | some a => C.perform a
  | none => C

def run (C : Client) (as : List (Action Access Callee)) : Client := as.foldl step C

def start (o : Options) : Except Fault Client := return { factory := ← Factory.ofOptions o }

def sample : List (Action Access Callee) :=
  let x : Access .numeric := .cast (.made .decisionVariable 0) .numeric
  [.construct (.decisionVariable 3),
    .construct (.logicalConstant true),
    .construct (.beginNumberOf 2 x),
    .add (l := .numberOf) 2 x,
    .add (l := .numberOf) 2 x,
    .finish 2,
    .construct (.unary .add x),
    .construct (.conditional (.cast (.made .logicalConstant 1) .logical)
      (.cast (.made .numberOf 3) .numeric) (.null .numeric))]

end Client

end ModelExpr
