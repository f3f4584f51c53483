import ModelExpr.View

namespace ModelExpr

structure ExprId where
  raw : UInt32
  deriving DecidableEq

namespace ExprId

def invalid : ExprId := ⟨0xFFFFFFFF⟩

def isValid (i : ExprId) : Bool := i ≠ invalid

def index (i : ExprId) : Nat := i.raw.toNat

def text (i : ExprId) : String :=
  if i.isValid then s!"ExprId({i.index})" else "ExprId::INVALID"

end ExprId

structure FunctionId where
  raw : UInt32
  deriving DecidableEq

namespace FunctionId

def invalid : FunctionId := ⟨0xFFFFFFFF⟩

def isValid (i : FunctionId) : Bool := i ≠ invalid

def index (i : FunctionId) : Nat := i.raw.toNat

def text (i : FunctionId) : String :=
  if i.isValid then s!"FunctionId({i.index})" else "FunctionId::INVALID"

end FunctionId

structure Ref where
  id : ExprId
  kind : Kind
  deriving DecidableEq

def Ref.text (r : Ref) : String :=
  s!"ExprRef \x7b id: {r.id.text}, kind: {r.kind.name} \x7d"

structure Span where
  start : UInt32
  length : UInt32
  deriving DecidableEq

namespace Span

def empty : Span := ⟨0, 0⟩

def stop (s : Span) : Nat := s.start.toNat + s.length.toNat

def text (s : Span) : String := s!"ListRange({s.start.toNat}..{s.stop})"

end Span

structure FunctionRef where
  id : FunctionId
  deriving DecidableEq

namespace FunctionRef

def null : FunctionRef := ⟨.invalid⟩

def isNull (f : FunctionRef) : Bool := !f.id.isValid

def text (f : FunctionRef) : String :=
  if f.isNull then "Function::NULL" else s!"Function({f.id.index})"

end FunctionRef

end ModelExpr
