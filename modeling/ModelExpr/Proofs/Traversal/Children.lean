import ModelExpr.Proofs.Traversal.Unfolding

namespace ModelExpr.Store

def elements (s : Store) {l : ListView} (h : Handle l.view) :
    Except Failure (List (Handle .expr)) := do
  let c ← liftM (s.cursor h)
  return c.remaining.toList.map (·.upcast)

def children (s : Store) {w : View} (h : Handle w) : Except Failure (List (Handle .expr)) :=
  match e : w.argument? with
  | some _ => do return [(← s.read h (.argument e)).upcast]
  | none =>
  match e : w.sides? with
  | some _ => do
    let x ← s.read h (.left e)
    let y ← s.read h (.right e)
    return [x.upcast, y.upcast]
  | none =>
  match e : w.branch? with
  | some _ => do
    let x ← s.read h (.condition e)
    let y ← s.read h (.consequent e)
    let z ← s.read h (.alternative e)
    return x.upcast :: y.upcast :: if z.isNull then [] else [z.upcast]
  | none =>
  match w.list? with
  | some l => s.elements (⟨h.ref?⟩ : Handle l.view)
  | none =>
    if e : w = .piecewiseLinear then do return [(← s.read h (.termVariable e)).upcast]
    else return []

def callee? (s : Store) : {w : View} → Handle w → Except Failure (Option FunctionRef)
  | .call, h => do return some (← s.read h (.function rfl))
  | _, _ => return none

variable {s : Store} {r : Ref} {i : Nat} {k : Kind} {n : Plain} {w : View}

theorem elements_of_plain {l : ListView} {rs : List Ref} (hn : s.plain? r.id.index = some n)
    (hl : n.list? = some rs) : s.elements (.ofRef r : Handle l.view) = .ok (rs.map .ofRef) := by
  rw [elements, cursor_of_plain hn hl]
  change Except.ok _ = _
  simp [Cursor.remaining, Cursor.ofOperands, Handle.upcast, Handle.ofRef, Function.comp_def]

theorem Suits.children_eq (h : s.Suits i k n) (hn : s.plain? r.id.index = some n)
    (hv : w.accepts k = true) (hw : w.isSpecific = true) :
    s.children (.ofRef r : Handle w) = .ok (n.operands.map .ofRef) := by
  unfold children
  split
  case h_1 v e =>
    obtain ⟨x, rfl, -⟩ := h.exists_argument hv e
    rw [read_of_plain (x := .ok (Handle.ofRef x)) hn rfl]
    rfl
  case h_2 hargument =>
  split
  case h_1 p e =>
    obtain ⟨x, y, rfl, -⟩ := h.exists_sides hv e
    rw [read_of_plain (x := .ok (Handle.ofRef x)) hn rfl,
      read_of_plain (x := .ok (Handle.ofRef y)) hn rfl]
    rfl
  case h_2 hsides =>
  split
  case h_1 v e =>
    obtain ⟨x, y, z, rfl, -⟩ := h.exists_branches hv e
    rw [read_of_plain (x := .ok (Handle.ofRef x)) hn rfl,
      read_of_plain (x := .ok (Handle.ofRef y)) hn rfl, read_of_plain (x := .ok (Handle.mk z)) hn rfl]
    cases z <;> rfl
  case h_2 hbranch =>
  split
  case h_1 l e =>
    obtain ⟨hl, -⟩ := h.exists_list hv e
    exact elements_of_plain hn hl
  case h_2 hlist =>
  split
  case isTrue e =>
    have hshape := h.shape_eq hv e rfl
    cases n <;> cases hshape
    rw [read_of_plain (x := .ok (Handle.ofRef _)) hn rfl]
    rfl
  case isFalse hterm =>
    have hleaf : n.operands = [] := by
      cases w with
      | numericConstant | decisionVariable | logicalConstant =>
        have hshape := h.shape_eq hv rfl rfl
        cases n <;> cases hshape
        rfl
      | expr | numeric | logical => cases hw
      | piecewiseLinear => cases hterm rfl
      | unary | negation => cases hargument
      | binary | binaryLogical | relational | logicalCount => cases hsides
      | conditional | implication => cases hbranch
      | call | vararg | sum | numberOf | count | iteratedLogical | allDiff => cases hlist
    rw [hleaf]
    rfl

theorem Suits.isSome_function? (h : s.Suits i k n) : n.function?.isSome = true ↔ k = .call := by
  have hcall : ∀ k : Kind, k.shape = .call ↔ k = .call := by decide
  rw [← hcall, ← h.shape]
  cases n <;> simp [Plain.function?, Plain.shape]

theorem Suits.callee?_eq (h : s.Suits i k n) (hn : s.plain? r.id.index = some n)
    (hv : w.accepts k = true) (hw : w.isSpecific = true) :
    s.callee? (.ofRef r : Handle w) = .ok n.function? := by
  cases w with
  | expr | numeric | logical => cases hw
  | call =>
    have hshape := h.shape_eq hv rfl rfl
    cases n <;> cases hshape
    rw [callee?, read_of_plain (x := .ok (FunctionRef.mk _)) hn rfl]
    rfl
  | _ =>
    -- no other specific view accepts a kind whose nodes hold a function
    have hshape := h.shape_eq hv rfl rfl
    cases n <;> cases hshape <;> rfl

end ModelExpr.Store
