import ModelExpr.Store.Basic
/-!
Traversals: a walk through an expression from the outside in and from left to right. An expression
that is used twice is walked twice. The walk keeps its own list of what is left to visit, so its
depth is not limited by any stack.
-/

namespace ModelExpr

/-- What is done at every stop, and at which kinds the walk goes on to the operands. Every expression
has a stop as an expression and then one as a numeric or as a logical expression; a call has another
for its function. -/
structure Visitor (σ : Type) where
  onExpr : Handle .expr → σ → Except Fault σ := fun _ a => .ok a
  onNumeric : Handle .numeric → σ → Except Fault σ := fun _ a => .ok a
  onLogical : Handle .logical → σ → Except Fault σ := fun _ a => .ok a
  onFunction : FunctionRef → σ → Except Fault σ := fun _ a => .ok a
  passesExpr : Kind → Bool := fun _ => true
  passes : Kind → Bool := fun _ => true

namespace Store

theorem operandsIn_size_le {s : Store} {r : Span} {xs : Array Ref}
    (h : s.operandsIn r = .ok xs) : xs.size ≤ s.operands.size := by
  unfold operandsIn at h
  split at h
  · obtain rfl := Except.ok.inj h
    simp only [Array.size_extract]
    omega
  · cases h

theorem operandsOf_length_le {s : Store} {p : Payload} {xs : List Ref}
    (h : s.operandsOf p = .ok xs) : xs.length ≤ s.operands.size + 3 := by
  have list {r : Span} (h : (s.operandsIn r).map (·.toList) = .ok xs) :
      xs.length ≤ s.operands.size + 3 := by
    cases hr : s.operandsIn r with
    | error f => simp [hr, Except.map] at h
    | ok ys =>
      have := operandsIn_size_le hr
      simp only [hr, Except.map, Except.ok.injEq] at h
      subst h
      simp only [Array.length_toList]
      omega
  cases p with
  | list r => exact list h
  | call f r => exact list h
  | branching c t e =>
    obtain rfl := Except.ok.inj h
    cases e <;> simp
  | _ =>
    obtain rfl := Except.ok.inj h
    simp

end Store

namespace Visitor

variable {σ : Type} (V : Visitor σ) (s : Store)

def stopAtFunction : Payload → σ → Except Fault σ
  | .call f _, a => V.onFunction ⟨f⟩ a
  | _, a => .ok a

def stopAtCategory (r : Ref) (a : σ) : Except Fault σ :=
  if r.kind.isNumeric then V.onNumeric (.ofRef r) a else V.onLogical (.ofRef r) a

def openNode (r : Ref) (a : σ) : Except Fault (List Ref × σ) := do
  let p ← s.node r.id
  let b ← V.stopAtFunction p a
  let xs ← s.operandsOf p
  return (xs, b)

def enterCategory (r : Ref) (a : σ) : Except Fault (List Ref × σ) := do
  let b ← V.stopAtCategory r a
  if V.passes r.kind then V.openNode s r b else return ([], b)

def enter (r : Ref) (a : σ) : Except Fault (List Ref × σ) := do
  let b ← V.onExpr (.ofRef r) a
  if V.passesExpr r.kind then V.enterCategory s r b else return ([], b)

theorem openNode_length_le {r : Ref} {a b : σ} {xs : List Ref}
    (h : V.openNode s r a = .ok (xs, b)) : xs.length ≤ s.operands.size + 3 := by
  obtain ⟨n, _, h⟩ := bind_eq_ok.1 h
  obtain ⟨c, _, h⟩ := bind_eq_ok.1 h
  obtain ⟨ys, hy, h⟩ := bind_eq_ok.1 h
  cases h
  exact Store.operandsOf_length_le hy

theorem enterCategory_length_le {r : Ref} {a b : σ} {xs : List Ref}
    (h : V.enterCategory s r a = .ok (xs, b)) : xs.length ≤ s.operands.size + 3 := by
  obtain ⟨c, _, h⟩ := bind_eq_ok.1 h
  split at h
  · exact V.openNode_length_le s h
  · cases h
    simp

theorem enter_length_le {r : Ref} {a b : σ} {xs : List Ref}
    (h : V.enter s r a = .ok (xs, b)) : xs.length ≤ s.operands.size + 3 := by
  obtain ⟨c, _, h⟩ := bind_eq_ok.1 h
  split at h
  · exact V.enterCategory_length_le s h
  · cases h
    simp

def weight (s : Store) : List (Ref × Nat) → Nat
  | [] => 0
  | p :: work => (s.operands.size + 4).pow p.2 + weight s work

theorem weight_append_operands (d : Nat) (xs : List Ref) (work : List (Ref × Nat)) :
    weight s (xs.map (·, d) ++ work) =
      xs.length * (s.operands.size + 4).pow d + weight s work := by
  induction xs with
  | nil => simp
  | cons x xs ih =>
    simp only [List.map_cons, List.cons_append, weight, ih, List.length_cons, Nat.succ_mul]
    omega

theorem weight_operands_lt {r : Ref} {d : Nat} {xs : List Ref} {work : List (Ref × Nat)}
    (h : xs.length ≤ s.operands.size + 3) :
    weight s (xs.map (·, d) ++ work) < weight s ((r, d + 1) :: work) := by
  have positive : 0 < (s.operands.size + 4).pow d := Nat.pow_pos (by omega)
  have product := Nat.mul_le_mul_right ((s.operands.size + 4).pow d) h
  have power : (s.operands.size + 4).pow (d + 1) =
      (s.operands.size + 3) * (s.operands.size + 4).pow d + (s.operands.size + 4).pow d := by
    rw [← Nat.succ_mul, Nat.mul_comm]
    rfl
  rw [weight_append_operands, weight, power]
  omega

def run (work : List (Ref × Nat)) (a : σ) : Except Fault σ :=
  match work with
  | [] => .ok a
  | (r, 0) :: _ => .error (.endless r.id)
  | (r, d + 1) :: work =>
    match _h : V.enter s r a with
    | .error f => .error f
    | .ok (xs, b) => run (xs.map (·, d) ++ work) b
termination_by weight s work
decreasing_by exact weight_operands_lt s (V.enter_length_le s _h)

/-- Visits expressions that follow one opened node. A walk that opens more nodes inside each other
than the store holds has opened one inside itself, and never ends. -/
def runOperands (next : Except Fault (List Ref × σ)) : Except Fault σ := do
  let (xs, a) ← next
  V.run s (xs.map (·, s.nodes.size)) a

def walkExpr (h : Handle .expr) (a : σ) : Except Fault σ :=
  match h.ref? with
  | none => .ok a
  | some r => V.runOperands s (V.enterCategory s r a)

def visitExpr (h : Handle .expr) (a : σ) : Except Fault σ := do
  let b ← V.onExpr h a
  match h.ref? with
  | none => return b
  | some r => if V.passesExpr r.kind then V.walkExpr s h b else return b

def walkOperands {v : View} (h : Handle v) (a : σ) : Except Fault σ :=
  match h.ref? with
  | none => .ok a
  | some r => V.runOperands s (V.openNode s r a)

def visitNumeric (h : Handle .numeric) (a : σ) : Except Fault σ := do
  let b ← V.onNumeric h a
  match h.ref? with
  | none => return b
  | some r => if V.passes r.kind then V.walkOperands s h b else return b

def visitLogical (h : Handle .logical) (a : σ) : Except Fault σ := do
  let b ← V.onLogical h a
  match h.ref? with
  | none => return b
  | some r => if V.passes r.kind then V.walkOperands s h b else return b

end Visitor

inductive Start where
  | visitExpr | walkExpr | visitNumeric | walkNumeric | visitLogical | walkLogical
  deriving DecidableEq

namespace Start

def view : Start → View
  | .visitExpr | .walkExpr => .expr
  | .visitNumeric | .walkNumeric => .numeric
  | .visitLogical | .walkLogical => .logical

def run {σ : Type} (V : Visitor σ) (s : Store) : (e : Start) → Handle e.view → σ → Except Fault σ
  | .visitExpr => V.visitExpr s
  | .walkExpr => V.walkExpr s
  | .visitNumeric => V.visitNumeric s
  | .walkNumeric => V.walkOperands s
  | .visitLogical => V.visitLogical s
  | .walkLogical => V.walkOperands s

end Start

end ModelExpr
