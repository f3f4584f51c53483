import ModelExpr.Handle
import ModelExpr.Node

namespace ModelExpr

inductive Table where
  | expressions | operands | numbers | functions
  deriving DecidableEq

def Table.name : Table → String
  | .expressions => "expressions"
  | .operands => "operands"
  | .numbers => "breakpoints and slopes"
  | .functions => "functions"

inductive Fault where
  | nullHandle (view : View)
  | nullFunction
  | indexOutOfRange (index length : Nat)
  | spanOutOfRange (stop length : Nat)
  -- the node found has a payload that the view does not read
  | mismatch (view : View) (payload : Payload)
  | full (table : Table) (length : Nat)
  -- more room was asked for than any list can take
  | oversized
  -- an expression that contains itself was walked
  | endless (id : ExprId)
  deriving DecidableEq

def Fault.message : Fault → String
  | .nullHandle v => s!"null {v.name} dereferenced"
  | .nullFunction => "null Function dereferenced"
  | .indexOutOfRange i n => s!"index out of bounds: the len is {n} but the index is {i}"
  | .spanOutOfRange stop n => s!"range end index {stop} out of range for slice of length {n}"
  | .mismatch v p =>
    s!"{v.name} handle resolves to {p.text}; was it created by a different factory?"
  | .full t n => s!"too many {t.name} in one expression store: {n}"
  | .oversized => "capacity overflow"
  | .endless i => s!"{i.text} contains itself"

inductive Failure where
  | rejected (r : Rejection)
  | faulty (f : Fault)
  deriving DecidableEq

instance : MonadLift (Except Rejection) (Except Failure) where
  monadLift x := x.mapError .rejected

instance : MonadLift (Except Fault) (Except Failure) where
  monadLift x := x.mapError .faulty

section Result

variable {ε α β : Type}

theorem bind_eq_ok {x : Except ε α} {f : α → Except ε β} {y : β} :
    x >>= f = .ok y ↔ ∃ b, x = .ok b ∧ f b = .ok y := by
  cases x with
  | error e => simp [bind, Except.bind]
  | ok b => simp [bind, Except.bind]

theorem map_eq_ok {x : Except ε α} {f : α → β} {y : β} :
    x.map f = .ok y ↔ ∃ b, x = .ok b ∧ f b = y := by
  cases x with
  | error e => simp [Except.map]
  | ok b => simp [Except.map]

end Result

def Handle.kind {v : View} (h : Handle v) : Except Fault Kind :=
  match h.ref? with
  | some r => .ok r.kind
  | none => .error (.nullHandle v)

end ModelExpr
