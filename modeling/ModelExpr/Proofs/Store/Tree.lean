import ModelExpr.Proofs.Factory.Names
import ModelExpr.Proofs.Store.Tiling

namespace ModelExpr

inductive Tree where
  | node (kind : Kind) (form : Form Tree)

namespace Tree

def kind : Tree → Kind
  | .node k _ => k

def form : Tree → Form Tree
  | .node _ n => n

end Tree

def Store.tree (s : Store) (r : Ref) : Tree :=
  match s.plain? r.id.index with
  | none => .node r.kind (.list [])
  | some n => .node r.kind (n.form (fun x =>
      if _h : x.id.index < r.id.index then s.tree x else .node x.kind (.list [])) s.name?)
termination_by r.id.index

theorem Plain.form_congr {M : Type} {n : Plain} {μ μ' : Ref → M}
    {names names' : FunctionRef → Option String} (hμ : ∀ x ∈ n.operands, μ x = μ' x)
    (hnames : ∀ f rs, n = .call f rs → names ⟨f⟩ = names' ⟨f⟩) :
    n.form μ names = n.form μ' names' := by
  cases n with
  | number | decisionVariable | truth => rfl
  | unary a | piecewiseLinear xs ys a =>
    have ha := hμ a List.mem_cons_self
    rw [form, form, ha]
  | binary a b =>
    have ha := hμ a List.mem_cons_self
    have hb := hμ b (List.mem_cons_of_mem a List.mem_cons_self)
    rw [form, form, ha, hb]
  | branching c t e =>
    have hc := hμ c List.mem_cons_self
    have ht := hμ t (List.mem_cons_of_mem c List.mem_cons_self)
    have he : e.map μ = e.map μ' := by
      cases e with
      | none => rfl
      | some x => exact congrArg some (hμ x (by simp [operands]))
    rw [form, form, hc, ht, he]
  | list rs =>
    have hrs : rs.map μ = rs.map μ' := List.map_congr_left hμ
    rw [form, form, hrs]
  | call f rs =>
    have hrs : rs.map μ = rs.map μ' := List.map_congr_left hμ
    have hname := hnames f rs rfl
    rw [form, form, hrs, hname]

namespace Store

variable {s t : Store} {r : Ref}

theorem kind_tree (s : Store) (r : Ref) : (s.tree r).kind = r.kind := by
  rw [tree]
  split <;> rfl

namespace WellFormed

theorem tree_eq (hs : s.WellFormed) (hr : s.Holds r) : ∃ n, s.plain? r.id.index = some n ∧
    s.Suits r.id.index r.kind n ∧ s.tree r = .node r.kind (n.form s.tree s.name?) := by
  obtain ⟨n, hn, hsuits⟩ := hs.exists_plain hr
  refine ⟨n, hn, hsuits, ?_⟩
  rw [tree, hn]
  apply congrArg (Tree.node r.kind)
  apply Plain.form_congr
  · intro x hx
    obtain ⟨j, hj⟩ := List.mem_iff_getElem?.1 hx
    exact dif_pos (hsuits.operands j x hj).1
  · intro f rs _
    rfl

theorem form_tree (hs : s.WellFormed) (hr : s.Holds r) :
    some (s.tree r).form = s.form? s.tree r := by
  obtain ⟨n, hn, -, htree⟩ := hs.tree_eq hr
  rw [htree, form?, hn]
  rfl

theorem tree_later (hs : s.WellFormed) (ht : t.WellFormed) (h : s.Extends t) (hr : s.Holds r) :
    t.tree r = s.tree r := by
  induction hi : r.id.index using Nat.strongRecOn generalizing r with
  | _ i ih =>
    subst hi
    obtain ⟨n, hn, hsuits, htree⟩ := hs.tree_eq hr
    obtain ⟨n', hn', -, htree'⟩ := ht.tree_eq (h.holds hr)
    cases hn'.symm.trans (h.plain?_eq hn)
    rw [htree, htree']
    apply congrArg (Tree.node r.kind)
    apply Plain.form_congr
    · intro x hx
      obtain ⟨j, hj⟩ := List.mem_iff_getElem?.1 hx
      obtain ⟨hlt, hholds, -⟩ := hsuits.operands j x hj
      exact ih _ hlt hholds rfl
    · intro f rs hcall
      exact FunctionRef.Known.name?_eq (.inr (hsuits.callee f rs hcall)) h

theorem tree_lay (hs : s.WellFormed) {k : Kind} {n : Plain} (hroom : s.Room n)
    (ht : (s.lay k n).WellFormed) :
    (s.lay k n).tree (s.next k) = .node k (n.form s.tree s.name?) := by
  have hadds := adds_lay (k := k) hroom
  have hindex := next_index (k := k) hroom.node
  obtain ⟨n', hn', hsuits, htree⟩ := ht.tree_eq (hadds.holds_next hs hroom.node)
  have hlast := (hadds.plain?_last hs.size_eq).1
  rw [← hindex] at hlast
  cases hn'.symm.trans hlast
  rw [htree]
  apply congrArg (Tree.node k)
  apply Plain.form_congr
  · intro x hx
    obtain ⟨j, hj⟩ := List.mem_iff_getElem?.1 hx
    obtain ⟨hlt, hholds, -⟩ := hsuits.operands j x hj
    have hold : s.Holds x := by
      have hne : x.id.index ≠ s.kinds.size := by
        rw [hs.size_eq, ← hindex]
        exact Nat.ne_of_lt hlt
      have hpush : (s.kinds.push k)[x.id.index]? = some x.kind := hholds
      rwa [Array.getElem?_push, if_neg hne] at hpush
    exact hs.tree_later ht hadds.toExtends hold
  · intro f rs _
    rfl

end WellFormed

end Store

end ModelExpr
