import ModelExpr.Proofs.Store.Typed
import ModelExpr.Traversal.Basic
/-!
Unfoldings: the tree that an expression stands for, in which an operand that is used twice stands
twice. A traversal makes the stops of this tree from the outside in and from left to right.
-/

namespace ModelExpr

inductive Stop where
  | expr (handle : Handle .expr)
  | numeric (handle : Handle .numeric)
  | logical (handle : Handle .logical)
  | function (function : FunctionRef)
  deriving DecidableEq

def Stop.category (r : Ref) : Stop :=
  if r.kind.isNumeric then .numeric (.ofRef r) else .logical (.ofRef r)

inductive Unfolding where
  | node (root : Ref) (function? : Option FunctionRef) (operands : List Unfolding)

namespace Unfolding

/-- The stops in the order of a walk that goes on where it may: `passesExpr` is asked after the stop
as an expression, and `passes` after the stop as a numeric or logical one. -/
def stops (passesExpr passes : Kind → Bool) : Unfolding → List Stop
  | node r f? ts =>
    .expr (.ofRef r) ::
      if passesExpr r.kind then
        .category r ::
          if passes r.kind then f?.toList.map .function ++ all ts else []
      else []
where
  all : List Unfolding → List Stop
    | [] => []
    | t :: ts => stops passesExpr passes t ++ all ts

end Unfolding

def Plain.function? : Plain → Option FunctionRef
  | .call f _ => some ⟨f⟩
  | _ => none

/-- The unfolding of a reference. An operand that does not come before its expression is not
unfolded any further. -/
def Store.unfold (s : Store) (r : Ref) : Unfolding :=
  match s.plain? r.id.index with
  | none => .node r none []
  | some n => .node r n.function? (n.operands.map fun x =>
      if _h : x.id.index < r.id.index then s.unfold x else .node x none [])
termination_by r.id.index

namespace Store

variable {s : Store} {r : Ref}

theorem WellFormed.unfold_eq (hs : s.WellFormed) (hr : s.Holds r) : ∃ n,
    s.plain? r.id.index = some n ∧
      (∀ x ∈ n.operands, x.id.index < r.id.index ∧ s.Holds x) ∧
        s.unfold r = .node r n.function? (n.operands.map s.unfold) := by
  obtain ⟨n, hn, hsuits⟩ := hs.exists_plain hr
  have hoperands : ∀ x ∈ n.operands, x.id.index < r.id.index ∧ s.Holds x := by
    intro x hx
    obtain ⟨j, hj⟩ := List.mem_iff_getElem?.1 hx
    obtain ⟨hlt, hholds, -⟩ := hsuits.operands j x hj
    exact ⟨hlt, hholds⟩
  refine ⟨n, hn, hoperands, ?_⟩
  rw [unfold, hn]
  apply congrArg (Unfolding.node r n.function?)
  apply List.map_congr_left
  intro x hx
  exact dif_pos (hoperands x hx).1

end Store

namespace Visitor

variable {σ : Type} (V : Visitor σ) {s : Store} {r : Ref}

def stopAt (a : σ) : Stop → Except Fault σ
  | .expr h => V.onExpr h a
  | .numeric h => V.onNumeric h a
  | .logical h => V.onLogical h a
  | .function f => V.onFunction f a

theorem stopAtCategory_eq (a : σ) : V.stopAtCategory r a = V.stopAt a (.category r) := by
  unfold stopAtCategory Stop.category
  split <;> rfl

theorem openNode_eq {n : Plain} (hn : s.plain? r.id.index = some n) (a : σ) :
    V.openNode s r a =
      (n.function?.toList.map Stop.function).foldlM V.stopAt a >>= fun b =>
        .ok (n.operands, b) := by
  obtain ⟨p, hp, hinline⟩ := Store.plain?_eq_some_iff.1 hn
  have hoperands := Store.operandsOf_inline hinline
  have hshape := Store.shape_inline hinline
  have hstop : V.stopAtFunction p a =
      (n.function?.toList.map Stop.function).foldlM V.stopAt a := by
    cases p with
    | call f rs =>
      obtain ⟨xs, -, rfl⟩ := Store.inline_eq_ok_call.1 hinline
      simp [stopAtFunction, Plain.function?, stopAt]
    | _ => cases n <;> cases hshape <;> rfl
  rw [← hstop]
  simp only [openNode, Store.node, hp]
  change (V.stopAtFunction p a >>= fun b => s.operandsOf p >>= fun xs => pure (xs, b)) = _
  rw [hoperands]
  rfl

theorem run_nil : V.run s [] = pure := by
  funext a
  rw [run]
  rfl

theorem run_succ (d : Nat) (work : List (Ref × Nat)) (a : σ) :
    V.run s ((r, d + 1) :: work) a =
      V.enter s r a >>= fun (xs, b) => V.run s (xs.map (·, d) ++ work) b := by
  rw [run]
  split
  · simp [*, bind, Except.bind]
  · simp [*, bind, Except.bind]

def nested (s : Store) : Nat → Ref → σ → Except Fault σ
  | 0, r, _ => .error (.endless r.id)
  | d + 1, r, a => V.enter s r a >>= fun (xs, b) => xs.foldlM (fun c x => nested s d x c) b

theorem run_cons (d : Nat) (work : List (Ref × Nat)) (a : σ) :
    V.run s ((r, d) :: work) a = V.nested s d r a >>= V.run s work := by
  induction d generalizing r work a with
  | zero =>
    rw [run]
    rfl
  | succ d ih =>
    rw [run_succ, nested, bind_assoc]
    apply congrArg
    apply funext
    rintro ⟨xs, b⟩
    dsimp only
    -- the operands are on top of the work in their order
    induction xs generalizing b with
    | nil => rfl
    | cons x xs ihxs =>
      rw [List.map_cons, List.cons_append, ih, List.foldlM_cons, bind_assoc]
      apply congrArg
      funext c
      exact ihxs c

theorem run_operands (d : Nat) (xs : List Ref) (a : σ) :
    V.run s (xs.map (·, d)) a = xs.foldlM (fun b x => V.nested s d x b) a := by
  induction xs generalizing a with
  | nil => exact congrFun V.run_nil a
  | cons x xs ih =>
    rw [List.map_cons, run_cons, List.foldlM_cons]
    apply congrArg
    funext b
    exact ih b

theorem nested_eq (hs : s.WellFormed) (hr : s.Holds r) {d : Nat} (hd : r.id.index < d) (a : σ) :
    V.nested s d r a =
      ((s.unfold r).stops V.passesExpr V.passes).foldlM V.stopAt a := by
  induction d generalizing r a with
  | zero => cases hd
  | succ d ih =>
    obtain ⟨n, hn, hoperands, hunfold⟩ := hs.unfold_eq hr
    have hrest (xs : List Ref) (hxs : ∀ x ∈ xs, x ∈ n.operands) (b : σ) :
        xs.foldlM (fun c x => V.nested s d x c) b =
          (Unfolding.stops.all V.passesExpr V.passes (xs.map s.unfold)).foldlM V.stopAt b := by
      induction xs generalizing b with
      | nil => rfl
      | cons x xs ihxs =>
        obtain ⟨hlt, hholds⟩ := hoperands x (hxs x List.mem_cons_self)
        have hdeep : x.id.index < d := by omega
        rw [List.foldlM_cons, ih hholds hdeep, List.map_cons, Unfolding.stops.all,
          List.foldlM_append]
        apply congrArg
        funext c
        apply ihxs
        intro y hy
        exact hxs y (List.mem_cons_of_mem x hy)
    rw [nested, hunfold, Unfolding.stops, List.foldlM_cons, enter, bind_assoc]
    apply congrArg
    funext b
    by_cases hexpr : V.passesExpr r.kind
    case neg =>
      rw [if_neg hexpr, if_neg hexpr]
      rfl
    case pos =>
      rw [if_pos hexpr, if_pos hexpr, enterCategory, bind_assoc, List.foldlM_cons,
        stopAtCategory_eq]
      apply congrArg
      funext c
      by_cases hpasses : V.passes r.kind
      case neg =>
        rw [if_neg hpasses, if_neg hpasses]
        rfl
      case pos =>
        rw [if_pos hpasses, if_pos hpasses, V.openNode_eq hn, bind_assoc, List.foldlM_append]
        apply congrArg
        funext e
        apply hrest
        intro x hx
        exact hx

theorem visitExpr_ofRef (a : σ) : V.visitExpr s (.ofRef r) a = V.run s [(r, s.nodes.size + 1)] a := by
  rw [run_succ, visitExpr, enter, bind_assoc]
  apply congrArg
  funext b
  change (if V.passesExpr r.kind then
    V.enterCategory s r b >>= fun (xs, c) => V.run s (xs.map (·, s.nodes.size)) c else .ok b) = _
  split
  · apply congrArg
    apply funext
    rintro ⟨xs, c⟩
    simp only [List.append_nil]
  · exact (congrFun V.run_nil b).symm

theorem visitExpr_eq (hs : s.WellFormed) (hr : s.Holds r) (a : σ) :
    V.visitExpr s (.ofRef r) a =
      ((s.unfold r).stops V.passesExpr V.passes).foldlM V.stopAt a := by
  have hlt : r.id.index < s.nodes.size + 1 := Nat.lt_succ_of_lt (hs.size_eq ▸ hr.lt)
  rw [visitExpr_ofRef, run_cons, V.nested_eq hs hr hlt, V.run_nil, bind_pure]

theorem foldlM_nested (hs : s.WellFormed) {xs : List Ref} (hxs : ∀ x ∈ xs, s.Holds x) (a : σ) :
    xs.foldlM (fun b x => V.nested s s.nodes.size x b) a =
      xs.foldlM (fun b x => V.visitExpr s (.ofRef x) b) a := by
  induction xs generalizing a with
  | nil => rfl
  | cons x xs ih =>
    have hx : s.Holds x := hxs x List.mem_cons_self
    have hlt : x.id.index < s.nodes.size := hs.size_eq ▸ hx.lt
    rw [List.foldlM_cons, List.foldlM_cons, V.nested_eq hs hx hlt, V.visitExpr_eq hs hx]
    apply congrArg
    funext b
    apply ih
    intro y hy
    exact hxs y (List.mem_cons_of_mem x hy)

theorem walkOperands_eq (hs : s.WellFormed) (hr : s.Holds r) {n : Plain}
    (hn : s.plain? r.id.index = some n) {v : View} (a : σ) :
    V.walkOperands s (.ofRef r : Handle v) a =
      n.function?.toList.foldlM (fun b f => V.onFunction f b) a >>= fun b =>
        n.operands.foldlM (fun c x => V.visitExpr s (.ofRef x) c) b := by
  obtain ⟨m, hm, hoperands, -⟩ := hs.unfold_eq hr
  obtain rfl := Option.some.inj (hn.symm.trans hm)
  change V.openNode s r a >>= (fun (xs, b) => V.run s (xs.map (·, s.nodes.size)) b) = _
  rw [V.openNode_eq hn, bind_assoc, List.foldlM_map]
  apply congrArg
  funext b
  change V.run s (n.operands.map (·, s.nodes.size)) b = _
  rw [run_operands, V.foldlM_nested hs (fun x hx => (hoperands x hx).2)]

def noting (passesExpr passes : Kind → Bool) : Visitor (List Stop) where
  onExpr h a := .ok (a ++ [.expr h])
  onNumeric h a := .ok (a ++ [.numeric h])
  onLogical h a := .ok (a ++ [.logical h])
  onFunction f a := .ok (a ++ [.function f])
  passesExpr := passesExpr
  passes := passes

theorem foldlM_noting (passesExpr passes : Kind → Bool) (xs a : List Stop) :
    xs.foldlM (noting passesExpr passes).stopAt a = .ok (a ++ xs) := by
  induction xs generalizing a with
  | nil => simp [pure, Except.pure]
  | cons x xs ih =>
    have hx : (noting passesExpr passes).stopAt a x = .ok (a ++ [x]) := by cases x <;> rfl
    have happend : a ++ x :: xs = a ++ [x] ++ xs := by simp
    rw [List.foldlM_cons, hx, happend]
    exact ih (a ++ [x])

theorem foldlM_visitExpr_noting (passes : Kind → Bool) (xs : List (Handle .expr)) (a : List Stop) :
    xs.foldlM (fun b x => (noting (fun _ => false) passes).visitExpr s x b) a =
      .ok (a ++ xs.map .expr) := by
  rw [← foldlM_noting (fun _ => false) passes, List.foldlM_map]
  apply congrArg (fun f => List.foldlM f a xs)
  funext b x
  obtain ⟨_ | r⟩ := x <;> rfl

end Visitor

end ModelExpr
