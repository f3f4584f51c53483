import ModelExpr.Node

namespace ModelExpr

inductive Shape where
  | number | decisionVariable | truth | unary | binary | branching | piecewiseLinear | list | call
  deriving DecidableEq

def Payload.shape : Payload → Shape
  | .number _ => .number
  | .decisionVariable _ => .decisionVariable
  | .truth _ => .truth
  | .unary _ => .unary
  | .binary _ _ => .binary
  | .branching _ _ _ => .branching
  | .piecewiseLinear _ _ _ => .piecewiseLinear
  | .list _ => .list
  | .call _ _ => .call

namespace Kind

theorem mem_all (k : Kind) : k ∈ all := by cases k <;> decide

instance (p : Kind → Prop) [DecidablePred p] : Decidable (∀ k, p k) :=
  decidable_of_iff (∀ k ∈ all, p k) ⟨fun h k => h k (mem_all k), fun h k _ => h k⟩

def shape (k : Kind) : Shape :=
  if k.isUnary || k = .not then .unary
  else if k.isBinary || k.isBinaryLogical || k.isRelational || k.isLogicalCount then .binary
  else if k = .conditional || k = .implication then .branching
  else if k = .piecewiseLinear then .piecewiseLinear
  else if k = .call then .call
  else if k.isIterated then .list
  else if k = .constant then .number
  else if k = .decisionVariable then .decisionVariable
  else .truth

def slot (k : Kind) (position : Nat) : View :=
  match k with
  | .call => .expr
  | .not | .or | .and | .implication | .count | .existential | .universal => .logical
  | .conditional => if position = 0 then .logical else .numeric
  | .atLeast | .atMost | .exactly => if position = 0 then .numeric else .count
  | .piecewiseLinear => .decisionVariable
  | _ => .numeric

end Kind

namespace View

def shape? : View → Option Shape
  | .expr | .numeric | .logical => none
  | .numericConstant => some .number
  | .decisionVariable => some .decisionVariable
  | .logicalConstant => some .truth
  | .unary | .negation => some .unary
  | .binary | .binaryLogical | .relational | .logicalCount => some .binary
  | .conditional | .implication => some .branching
  | .piecewiseLinear => some .piecewiseLinear
  | .call => some .call
  | .vararg | .sum | .numberOf | .count | .iteratedLogical | .allDiff => some .list

theorem mem_all (v : View) : v ∈ all := by cases v <;> decide

instance (p : View → Prop) [DecidablePred p] : Decidable (∀ v, p v) :=
  decidable_of_iff (∀ v ∈ all, p v) ⟨fun h v => h v (mem_all v), fun h v _ => h v⟩

theorem shape_of_accepts : ∀ {v : View} {k : Kind}, v.accepts k = true → v.shape?.isSome = true →
    v.shape? = some k.shape := by
  decide +kernel

theorem specific_iff : ∀ {v : View} {k : Kind},
    v.isSpecific = true ∧ v.accepts k = true ↔ v = specific k := by
  decide +kernel

theorem specific_accepts (k : Kind) :
    (specific k).accepts k = true ∧ (specific k).isSpecific = true :=
  (specific_iff.2 rfl).symm

theorem accepts_above : ∀ {v : View} {k : Kind}, v.accepts k = true → v.above.accepts k = true := by
  decide +kernel

variable {v w a b : View} {k : Kind}

theorem accepts_of_widensTo (h : v.widensTo w = true) (hv : v.accepts k = true) :
    w.accepts k = true := by
  simp only [widensTo, Bool.and_eq_true, Bool.or_eq_true, decide_eq_true_eq] at h
  obtain ⟨-, rfl | rfl⟩ := h
  · exact hv
  · exact accepts_above hv

theorem argument_slot (hw : v.argument? = some w) (h : v.accepts k = true) :
    k.shape = .unary ∧ k.slot 0 = w := by
  cases v <;> cases hw <;> cases k <;> first | exact ⟨rfl, rfl⟩ | cases h

theorem sides_slot (hs : v.sides? = some (a, b)) (h : v.accepts k = true) :
    k.shape = .binary ∧ k.slot 0 = a ∧ k.slot 1 = b := by
  cases v <;> cases hs <;> cases k <;> first | exact ⟨rfl, rfl, rfl⟩ | cases h

theorem branch_slot (hw : v.branch? = some w) (h : v.accepts k = true) :
    k.shape = .branching ∧ k.slot 0 = .logical ∧ ∀ i, k.slot (i + 1) = w := by
  cases v <;> cases hw <;> cases k <;> first | exact ⟨rfl, rfl, fun _ => rfl⟩ | cases h

theorem slot_piecewiseLinear (h : v.accepts k = true) (hv : v = .piecewiseLinear) (i : Nat) :
    k.slot i = .decisionVariable := by
  subst hv
  obtain rfl := of_decide_eq_true h
  rfl

end View

namespace ListView

variable {l : ListView} {k : Kind}

theorem slot_eq_element (h : l.view.accepts k = true) (i : Nat) : k.slot i = l.element := by
  cases l <;> cases k <;> first | rfl | cases h

theorem shape_eq (h : l.view.accepts k = true) : k.shape = if k = .call then .call else .list := by
  cases l <;> cases k <;> first | rfl | cases h

end ListView

end ModelExpr
