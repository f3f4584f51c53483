import ModelExpr.Proofs.Client.Steps

namespace ModelExpr

def Construction.refs : Construction Handle FunctionRef → List Ref
  | .unary _ a | .beginNumberOf _ a => a.ref?.toList
  | .negation a => a.ref?.toList
  | .binary _ a b | .relational _ a b => a.ref?.toList ++ b.ref?.toList
  | .binaryLogical _ a b => a.ref?.toList ++ b.ref?.toList
  | .logicalCount _ a b => a.ref?.toList ++ b.ref?.toList
  | .conditional c t e => c.ref?.toList ++ t.ref?.toList ++ e.ref?.toList
  | .implication c t e => c.ref?.toList ++ t.ref?.toList ++ e.ref?.toList
  | _ => []

def Action.refs : Action Handle FunctionRef → List Ref
  | .construct c => c.refs
  | .add _ x => x.ref?.toList
  | .finishTerm _ x => x.ref?.toList
  | _ => []

def Product.refs : Product → List Ref
  | .handle h => h.ref?.toList
  | .draft d => d.operands.toList
  | _ => []

namespace Construction

variable {c : Construction Handle FunctionRef}

theorem operands_node? {n : PlainNode} (h : c.node? = some n) : n.content.operands = c.refs := by
  cases c with
  | constant | decisionVariable | logicalConstant =>
    cases h
    rfl
  | unary | negation =>
    obtain ⟨r, hr, h⟩ := Option.map_eq_some_iff.1 h
    cases h
    simp [refs, hr, Plain.operands]
  | binary | relational | binaryLogical | logicalCount =>
    obtain ⟨r, hr, h⟩ := Option.bind_eq_some_iff.1 h
    obtain ⟨t, ht, h⟩ := Option.bind_eq_some_iff.1 h
    cases h
    simp [refs, hr, ht, Plain.operands]
  | conditional | implication =>
    obtain ⟨r, hr, h⟩ := Option.bind_eq_some_iff.1 h
    obtain ⟨t, ht, h⟩ := Option.bind_eq_some_iff.1 h
    cases h
    simp [refs, hr, ht, Plain.operands]
  | _ => cases h

theorem refs_plan {m : Nat} {q : Product} (h : c.plan m = .ok (.draft q)) : q.refs = c.refs := by
  cases plan_opens h <;> rfl

end Construction

theorem Action.refs_change {a : Action Handle FunctionRef} {p q : Product}
    {y : Except Rejection Unit} (h : a.change? p = some (y, q)) :
    ∀ r ∈ q.refs, r ∈ p.refs ++ a.refs := by
  cases changes_of_change? h with
  | @add l i x d d' y hrun =>
    obtain ⟨-, rfl⟩ := Prod.ext_iff.1 hrun
    rw [Draft.add_run]
    intro r hr
    split at hr
    case h_1 t ht =>
      split at hr
      · exact List.mem_append_left _ hr
      · obtain rfl := Handle.require_eq_ok.1 ht
        change r ∈ d.operands.toList ++ [t]
        exact Array.toList_push ▸ hr
    case h_2 => exact List.mem_append_left _ hr
  | addSlope | addBreakpoint =>
    intro r hr
    cases hr

theorem Draft.operands_plain {l : ListView} (d : Draft l) : d.plain.operands = d.operands.toList := by
  unfold plain
  split <;> rfl

end ModelExpr
