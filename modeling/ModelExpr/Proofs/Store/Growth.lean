import ModelExpr.Store.Field

namespace ModelExpr.Store

structure Extends (s t : Store) : Prop where
  kinds : s.kinds.toList <+: t.kinds.toList
  nodes : s.nodes.toList <+: t.nodes.toList
  operands : s.operands.toList <+: t.operands.toList
  numbers : s.numbers.toList <+: t.numbers.toList
  functions : s.functions.toList <+: t.functions.toList

section Prefix

variable {α : Type} {xs ys : Array α}

theorem exists_append_of_prefix (h : xs.toList <+: ys.toList) : ∃ zs, ys = xs ++ zs := by
  obtain ⟨zs, hz⟩ := h
  exact ⟨zs.toArray, Array.toList_inj.1 (by simp [hz])⟩

theorem getElem?_of_prefix (h : xs.toList <+: ys.toList) {i : Nat} {x : α} (hx : xs[i]? = some x) :
    ys[i]? = some x := by
  obtain ⟨zs, rfl⟩ := exists_append_of_prefix h
  have hi : i < xs.size := (Array.getElem?_eq_some_iff.1 hx).1
  rw [Array.getElem?_append_left hi, hx]

theorem size_le_of_prefix (h : xs.toList <+: ys.toList) : xs.size ≤ ys.size := by
  simpa using h.length_le

theorem extract_of_prefix (h : xs.toList <+: ys.toList) {i j : Nat} (hj : j ≤ xs.size) :
    ys.extract i j = xs.extract i j := by
  obtain ⟨zs, rfl⟩ := exists_append_of_prefix h
  rw [Array.extract_append, Nat.sub_eq_zero_of_le hj]
  simp

end Prefix

namespace Extends

variable {s t u : Store}

@[refl]
theorem refl (s : Store) : s.Extends s :=
  ⟨List.prefix_rfl, List.prefix_rfl, List.prefix_rfl, List.prefix_rfl, List.prefix_rfl⟩

theorem trans (h : s.Extends t) (h' : t.Extends u) : s.Extends u :=
  ⟨h.kinds.trans h'.kinds, h.nodes.trans h'.nodes, h.operands.trans h'.operands,
    h.numbers.trans h'.numbers, h.functions.trans h'.functions⟩

theorem kind_eq (h : s.Extends t) {i : Nat} {k : Kind} (hk : s.kinds[i]? = some k) :
    t.kinds[i]? = some k :=
  getElem?_of_prefix h.kinds hk

theorem node_eq (h : s.Extends t) {i : Nat} {p : Payload} (hp : s.nodes[i]? = some p) :
    t.nodes[i]? = some p :=
  getElem?_of_prefix h.nodes hp

theorem functions_le (h : s.Extends t) : s.functions.size ≤ t.functions.size :=
  size_le_of_prefix h.functions

theorem operandsIn (h : s.Extends t) {r : Span} {xs : Array Ref} (hx : s.operandsIn r = .ok xs) :
    t.operandsIn r = .ok xs := by
  have hle := size_le_of_prefix h.operands
  unfold Store.operandsIn at hx ⊢
  split at hx
  case isTrue hr =>
    rw [if_pos (Nat.le_trans hr hle), extract_of_prefix h.operands hr]
    exact hx
  case isFalse => cases hx

theorem numbersIn (h : s.Extends t) {r : Span} {xs : Array Binary64} (hx : s.numbersIn r = .ok xs) :
    t.numbersIn r = .ok xs := by
  have hle := size_le_of_prefix h.numbers
  unfold Store.numbersIn at hx ⊢
  split at hx
  case isTrue hr =>
    rw [if_pos (Nat.le_trans hr hle), extract_of_prefix h.numbers hr]
    exact hx
  case isFalse => cases hx

end Extends

variable (s : Store)

theorem extends_pushNode (k : Kind) (p : Payload) : s.Extends (s.pushNode k p) := by
  constructor <;> simp [pushNode]

theorem extends_appendOperands (xs : Array Ref) : s.Extends (s.appendOperands xs) := by
  constructor <;> simp [appendOperands]

theorem extends_appendNumbers (xs : Array Binary64) : s.Extends (s.appendNumbers xs) := by
  constructor <;> simp [appendNumbers]

theorem extends_pushFunction (name : String) : s.Extends (s.pushFunction name) := by
  constructor <;> simp [pushFunction]

end ModelExpr.Store
