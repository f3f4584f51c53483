import ModelExpr.Reference
import ModelExpr.Rejection

namespace ModelExpr

structure Handle (view : View) where
  ref? : Option Ref
  deriving DecidableEq

namespace Handle

variable {v : View}

def null : Handle v := ⟨none⟩

def ofRef (r : Ref) : Handle v := ⟨some r⟩

def isNull (h : Handle v) : Bool := h.ref?.isNone

def id (h : Handle v) : ExprId :=
  match h.ref? with
  | some r => r.id
  | none => .invalid

def upcast (h : Handle v) : Handle .expr := ⟨h.ref?⟩

def cast (h : Handle v) (w : View) : Except Rejection (Handle w) :=
  match h.ref? with
  | none => .ok null
  | some r => if w.accepts r.kind then .ok (ofRef r) else .error (.invalidKind r.kind)

def recast (h : Handle v) (w : View) : Except Rejection (Handle w) :=
  if v.widensTo w then .ok ⟨h.ref?⟩ else h.cast w

def require (h : Handle v) : Except Rejection Ref :=
  match h.ref? with
  | some r => .ok r
  | none => .error (.invalidArgument .argument)

def text (h : Handle v) : String :=
  match h.ref? with
  | some r => s!"{v.name}({r.kind.name}, {r.id.text})"
  | none => s!"{v.name}::NULL"

end Handle

abbrev AnyHandle := (v : View) × Handle v

end ModelExpr
