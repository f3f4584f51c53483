import ModelExpr.Session.Command
import ModelExpr.Text.Quoted

namespace ModelExpr

inductive Holding where
  | factory (factory : Factory)
  | finished (store : Store)
  | shared (store : Store)

namespace Factory

def namesText (f : Factory) : String :=
  match f.names? with
  | none => "None"
  | some names =>
    let entries := f.store.functions.toList.filterMap fun name =>
      names[name]?.map fun id => s!"{quoted name}: {id.text}"
    "Some(\x7b" ++ ", ".intercalate entries ++ "\x7d)"

def text (f : Factory) : String :=
  s!"ExprFactory \x7b arena: {f.store.text}, functions_by_name: {f.namesText} \x7d"

end Factory

namespace Holding

def store : Holding → Store
  | .factory f => f.store
  | .finished s => s
  | .shared s => s

def text : Holding → String
  | .factory f => f.text
  | .finished s => s.text
  | .shared s => s!"SharedArena({s.text})"

end Holding

structure Session where
  stores : Array Holding
  registers : Std.HashMap String Product := ∅
  log : Array Event := #[]

abbrev SessionM := ExceptT Refusal (StateM Session)

namespace Session

def ofOptions (o : Options) : Except Fault Session := do
  return { stores := #[.factory (← Factory.ofOptions o)] }

def sizes (S : Session) (i : Nat) : Datum :=
  match S.stores[i]? with
  | none => .nothing
  | some h =>
    let s := h.store
    .list [.count s.nodes.size, .count s.operands.size, .count s.numbers.size,
      .count s.functions.size]

end Session

namespace SessionM

def product (name : String) : SessionM Product := do
  match (← get).registers[name]? with
  | some p => return p
  | none => throw .unbound

def find {α : Type} (ofProduct? : Product → Option α) : Source α → SessionM α
  | .register name => do
    match ofProduct? (← product name) with
    | some x => return x
    | none => throw .malformed
  | .given x => return x
  | .malformed => throw .malformed

def handle : HandleSource → SessionM AnyHandle := find Product.handle?

def operand (v : View) (x : HandleSource) : SessionM (Handle v) := do
  let ⟨_, h⟩ ← handle x
  liftM (h.cast v)

def functionRef : FunctionSource → SessionM FunctionRef := find Product.function?

def assign (name : String) (p : Product) : SessionM Unit :=
  modify fun S => { S with registers := S.registers.insert name p }

def release (name : String) : SessionM Unit :=
  modify fun S => { S with registers := S.registers.erase name }

def holding (i : Nat) : SessionM Holding := do
  match (← get).stores[i]? with
  | some h => return h
  | none => throw .malformed

def store (i : Nat) : SessionM Store := return (← holding i).store

def factory (i : Nat) : SessionM Factory := do
  match ← holding i with
  | .factory f => return f
  | _ => throw .frozen

def setHolding (i : Nat) (h : Holding) : SessionM Unit :=
  modify fun S => { S with stores := S.stores.setIfInBounds i h }

def addHolding (h : Holding) : SessionM Nat :=
  modifyGet fun S => (S.stores.size, { S with stores := S.stores.push h })

/-- Runs a call on a factory and takes over what it reports. While it runs, an empty store stands in
for the factory, so that the factory has a single owner and grows in place. -/
def call (i : Nat) (m : FactoryM Product) : SessionM Product := do
  let f ← factory i
  setHolding i (.finished .empty)
  let (result, f) := m.run f
  setHolding i (.factory { f with log := #[] })
  modify fun S => { S with log := S.log ++ f.log }
  liftM result

end SessionM

end ModelExpr
