import ModelExpr.Session.Run

namespace ModelExpr

inductive Request where
  | kinds
  | kind (kind : Kind)
  | sort (kinds : List Kind)
  | view (view : View)
  | operand (operand : Operand)
  | rejection (rejection : Rejection) (other? : Option Rejection)
  | exprId (id : ExprId)
  | functionId (id : FunctionId)
  | options (options : Options)
  | session (options : Options) (trace : Bool) (steps : List Step)
  | malformed

namespace Request

def kindNames (ks : List Kind) : Datum := .texts (ks.map Kind.name)

def describeKind (k : Kind) : Datum :=
  .record [("debug", .text k.name), ("as_str", .text k.symbol), ("display", .text k.symbol),
    ("index", .count k.index), ("predicates", .texts k.categories),
    ("views", .texts ((View.all.filter (·.accepts k)).map View.name))]

def orFault : Except Fault Datum → Datum
  | .ok d => d
  | .error f => (Refusal.failure (.faulty f)).datum

def describeView (v : View) : Datum :=
  let null : Handle v := .null
  .record [("null", .text null.text), ("null_id", .text null.id.text),
    ("is_null", .truth null.isNull), ("null_kind", orFault (null.kind.map fun k => .text k.name)),
    ("accepts", kindNames (Kind.all.filter v.accepts))]

def describeOperand (o : Operand) : Datum :=
  .record [("debug", .text o.name), ("singular", .text o.singular), ("plural", .text o.plural)]

def describeRejection (r : Rejection) (other? : Option Rejection) : Datum :=
  .record [("value", (Refusal.failure (.rejected r)).datum),
    ("equal", .ofOption (other?.map fun q => .truth (r = q)))]

def describeExprId (i : ExprId) : Datum :=
  .record [("debug", .text i.text), ("index", .count i.index), ("raw", .count i.raw.toNat),
    ("is_valid", .truth i.isValid), ("is_default", .truth (i = .invalid)),
    ("is_invalid", .truth (i = .invalid))]

def describeFunctionId (i : FunctionId) : Datum :=
  .record [("debug", .text i.text), ("index", .count i.index), ("is_valid", .truth i.isValid),
    ("is_default", .truth (i = .invalid))]

def describeOptions (o : Options) : Datum :=
  .record [("debug", .text o.text), ("is_default", .truth (o = {})),
    ("node_capacity", .count o.nodeCapacity), ("list_capacity", .count o.listCapacity),
    ("dedupe_functions", .truth o.reuseNames)]

def answer : Request → Datum
  | .kinds => kindNames Kind.all
  | .kind k => describeKind k
  | .sort ks =>
    .record [("sorted", kindNames (Kind.sort ks)), ("distinct", .count ks.eraseDups.length)]
  | .view v => describeView v
  | .operand o => describeOperand o
  | .rejection r other? => describeRejection r other?
  | .exprId i => describeExprId i
  | .functionId i => describeFunctionId i
  | .options o => describeOptions o
  | .session o trace steps => orFault (Session.play o trace steps)
  | .malformed => Refusal.malformed.datum

end Request

end ModelExpr
