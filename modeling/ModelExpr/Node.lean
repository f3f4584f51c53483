import ModelExpr.Binary64.Shortest
import ModelExpr.Reference

namespace ModelExpr

inductive Payload where
  | number (value : Binary64)
  | decisionVariable (index : UInt32)
  | truth (value : Bool)
  | unary (operand : Ref)
  | binary (left right : Ref)
  | branching (condition consequent : Ref) (alternative : Option Ref)
  | piecewiseLinear (slopes breakpoints : Span) (argument : Ref)
  | list (operands : Span)
  | call (function : FunctionId) (operands : Span)
  deriving DecidableEq

def Payload.text : Payload → String
  | .number x => s!"Number({x.text})"
  | .decisionVariable i => s!"Variable({i.toNat})"
  | .truth b => s!"Bool({b})"
  | .unary r => s!"Unary({r.text})"
  | .binary a b => s!"Binary({a.text}, {b.text})"
  | .branching c t none =>
    s!"Conditional \x7b condition: {c.text}, true_expr: {t.text}, false_expr: None \x7d"
  | .branching c t (some e) =>
    s!"Conditional \x7b condition: {c.text}, true_expr: {t.text}, false_expr: Some({e.text}) \x7d"
  | .piecewiseLinear s b r =>
    s!"PiecewiseLinear \x7b slopes: {s.text}, breakpoints: {b.text}, var: {r.text} \x7d"
  | .list s => s!"Iterated \x7b args: {s.text} \x7d"
  | .call f s => s!"Call \x7b function: {f.text}, args: {s.text} \x7d"

end ModelExpr
