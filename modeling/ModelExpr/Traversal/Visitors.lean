import ModelExpr.Store.Field
import ModelExpr.Traversal.Basic

namespace ModelExpr

structure Recording where
  expressions : Nat := 0
  numerics : Nat := 0
  logicals : Nat := 0
  functions : Nat := 0
  stops : Array String := #[]
  deriving DecidableEq

namespace Visitor

def recorder (s : Store) (quiet : Bool) (passesExpr passes : Kind → Bool) : Visitor Recording :=
  let note (stop : Unit → String) (stops : Array String) :=
    if quiet then stops else stops.push (stop ())
  { onExpr := fun h ⟨e, n, l, f, stops⟩ =>
      .ok ⟨e + 1, n, l, f, note (fun _ => s!"E {h.text}") stops⟩
    onNumeric := fun h ⟨e, n, l, f, stops⟩ =>
      .ok ⟨e, n + 1, l, f, note (fun _ => s!"N {h.text}") stops⟩
    onLogical := fun h ⟨e, n, l, f, stops⟩ =>
      .ok ⟨e, n, l + 1, f, note (fun _ => s!"L {h.text}") stops⟩
    onFunction := fun g ⟨e, n, l, f, stops⟩ =>
      if quiet then .ok ⟨e, n, l, f + 1, stops⟩
      else (s.functionName g).map fun name =>
        ⟨e, n, l, f + 1, stops.push s!"F {g.text} {name}"⟩
    passesExpr, passes }

def decisionVariables (s : Store) : Visitor (Array UInt32) :=
  { onNumeric := fun h xs =>
      match h.cast .decisionVariable with
      | .ok v => (s.readIndex v).map fun i => xs.push i
      | .error _ => .ok xs }

def logicals : Visitor (Array ExprId) :=
  { onLogical := fun h xs => .ok (xs.push h.id) }

def functions (s : Store) : Visitor (Array String) :=
  { onFunction := fun f xs => (s.functionName f).map fun name => xs.push name }

end Visitor

end ModelExpr
