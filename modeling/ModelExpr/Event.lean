import ModelExpr.Reference

namespace ModelExpr

inductive Event where
  | allocated (kind : Kind) (id : ExprId)
  | registered (name : String) (id : FunctionId)
  | finishedList (kind : Kind) (id : ExprId) (operands : Nat)
  | finishedTerm (id : ExprId) (breakpoints : Nat)
  | rejectedList (kind : Kind) (declared added : Nat)
  deriving DecidableEq

def Event.text : Event → String
  | .allocated k i => s!"TRACE allocated expression kind={k.symbol} id={i.index}"
  | .registered name i => s!"TRACE registered function name={name} id={i.index}"
  | .finishedList k i n =>
    s!"DEBUG finished iterated expression kind={k.symbol} id={i.index} num_args={n}"
  | .finishedTerm i n => s!"DEBUG finished piecewise-linear term id={i.index} breakpoints={n}"
  | .rejectedList k declared added =>
    s!"DEBUG rejected incomplete iterated expression kind={k.symbol} " ++
      s!"declared={declared} added={added}"

end ModelExpr
