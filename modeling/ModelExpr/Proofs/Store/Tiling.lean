import Mathlib.Data.List.Induction
import ModelExpr.Proofs.Store.Layout
/-!
Tilings: the store that some functions and plain nodes are laid into, one after the other. Every list
of such a store starts where the lists of the earlier nodes end.
-/

namespace ModelExpr

structure Plain.Countable (n : Plain) : Prop where
  listed : n.listed.length < UInt32.size - 1
  breakpoints : ∀ xs ys r, n = .piecewiseLinear xs ys r → ys.length < UInt32.size - 1

namespace Store

def ofNodes (functions : Array String) (ns : List PlainNode) : Store :=
  ns.foldl (fun s n => s.lay n.kind n.content) { functions }

/-- The store is what its nodes come to when they are laid into an empty one, and there was room for
each of them. -/
structure Tiled (s : Store) (ns : List PlainNode) : Prop where
  functions : s.functions.size ≤ UInt32.size
  store_eq : s = ofNodes s.functions ns
  room : ∀ i n, ns[i]? = some n → (ofNodes s.functions (ns.take i)).Room n.content
  countable : ∀ n ∈ ns, n.content.Countable

variable {s t : Store} {k : Kind} {n : Plain} {fs : Array String} {ns : List PlainNode}

theorem extends_lay : s.Extends (s.lay k n) := by
  constructor <;> simp [lay]

theorem layout_pushFunction (name : String) : (s.pushFunction name).layout n = s.layout n := by
  cases n <;> rfl

theorem lay_pushFunction (name : String) :
    (s.pushFunction name).lay k n = (s.lay k n).pushFunction name := by
  simp only [lay, layout_pushFunction]
  rfl

theorem room_pushFunction (name : String) : (s.pushFunction name).Room n ↔ s.Room n := by
  constructor
  · intro h
    exact ⟨h.node, h.operands, h.numbers⟩
  · intro h
    exact ⟨h.node, h.operands, h.numbers⟩

theorem ofNodes_concat (n : PlainNode) :
    ofNodes fs (ns ++ [n]) = (ofNodes fs ns).lay n.kind n.content := by
  simp [ofNodes]

theorem ofNodes_push (name : String) :
    ofNodes (fs.push name) ns = (ofNodes fs ns).pushFunction name := by
  induction ns using List.reverseRecOn with
  | nil => rfl
  | append_singleton ns n ih => rw [ofNodes_concat, ofNodes_concat, ih, lay_pushFunction]

theorem functions_ofNodes : (ofNodes fs ns).functions = fs := by
  induction ns using List.reverseRecOn with
  | nil => rfl
  | append_singleton ns n ih =>
    rw [ofNodes_concat]
    exact ih

theorem size_ofNodes (fs : Array String) (ns : List PlainNode) : (ofNodes fs ns).nodes.size = ns.length ∧
    (ofNodes fs ns).kinds.size = ns.length := by
  induction ns using List.reverseRecOn with
  | nil => exact ⟨rfl, rfl⟩
  | append_singleton ns n ih =>
    rw [ofNodes_concat]
    simpa [lay] using ih

theorem ofNodes_append (fs : Array String) (ns ms : List PlainNode) :
    (ofNodes fs ns).Extends (ofNodes fs (ns ++ ms)) := by
  induction ms using List.reverseRecOn with
  | nil =>
    rw [List.append_nil]
  | append_singleton ms n ih =>
    rw [← List.append_assoc, ofNodes_concat]
    exact ih.trans extends_lay

theorem extends_take (fs : Array String) (ns : List PlainNode) (i : Nat) :
    (ofNodes fs (ns.take i)).Extends (ofNodes fs ns) := by
  have h := ofNodes_append fs (ns.take i) (ns.drop i)
  rwa [List.take_append_drop] at h

theorem ofNodes_take_succ {i : Nat} {n : PlainNode} (h : ns[i]? = some n) :
    ofNodes fs (ns.take (i + 1)) = (ofNodes fs (ns.take i)).lay n.kind n.content := by
  rw [List.take_add_one, h, ← ofNodes_concat]
  rfl

theorem Adds.plain?_last (h : s.Adds t k n) (hsize : s.kinds.size = s.nodes.size) :
    t.plain? s.nodes.size = some n ∧ t.kinds[s.nodes.size]? = some k := by
  obtain ⟨u, p, hu, hp, rfl⟩ := h
  have hnode : (u.pushNode k p).nodes[s.nodes.size]? = some p := by
    rw [← hu.nodes_eq]
    exact Array.getElem?_push_size
  have hkind : (u.pushNode k p).kinds[s.nodes.size]? = some k := by
    rw [← hsize, ← hu.kinds_eq]
    exact Array.getElem?_push_size
  exact ⟨plain?_eq_some_iff.2 ⟨p, hnode, (extends_pushNode u k p).inline hp⟩, hkind⟩

namespace Tiled

theorem empty : Store.empty.Tiled [] := by
  refine ⟨Nat.zero_le _, rfl, ?_, ?_⟩
  · intro i n h
    cases h
  · intro n h
    cases h

theorem lay (h : s.Tiled ns) (hroom : s.Room n) (hcount : n.Countable) :
    (s.lay k n).Tiled (ns ++ [⟨k, n⟩]) := by
  have hfunctions : (s.lay k n).functions = s.functions := rfl
  constructor
  · exact h.functions
  · rw [hfunctions, ofNodes_concat, ← h.store_eq]
  · intro i m hm
    rw [hfunctions]
    rw [List.getElem?_append] at hm
    split at hm
    case isTrue hi =>
      rw [List.take_append_of_le_length (Nat.le_of_lt hi)]
      exact h.room i m hm
    case isFalse hi =>
      have hlast := (List.getElem?_eq_some_iff.1 hm).1
      have hsub : i - ns.length = 0 := Nat.lt_one_iff.1 hlast
      rw [hsub] at hm
      cases hm
      have hlen : i = ns.length := by omega
      rw [hlen, List.take_left, ← h.store_eq]
      exact hroom
  · intro m hm
    rw [List.mem_append, List.mem_singleton] at hm
    obtain hm | rfl := hm
    · exact h.countable m hm
    · exact hcount

theorem pushFunction (h : s.Tiled ns) (hroom : s.functions.size < UInt32.size) (name : String) :
    (s.pushFunction name).Tiled ns := by
  have hfunctions : (s.pushFunction name).functions = s.functions.push name := rfl
  constructor
  · rw [hfunctions, Array.size_push]
    exact hroom
  · rw [hfunctions, ofNodes_push, ← h.store_eq]
  · intro i n hn
    rw [hfunctions, ofNodes_push, room_pushFunction]
    exact h.room i n hn
  · exact h.countable

theorem node (h : s.Tiled ns) {i : Nat} {n : PlainNode} (hn : ns[i]? = some n) :
    s.plain? i = some n.content ∧ s.kinds[i]? = some n.kind := by
  have hlt := (List.getElem?_eq_some_iff.1 hn).1
  have hadds := adds_lay (k := n.kind) (h.room i n hn)
  obtain ⟨hnodes, hkinds⟩ := size_ofNodes s.functions (ns.take i)
  have hlength : (ns.take i).length = i := List.length_take_of_le (Nat.le_of_lt hlt)
  obtain ⟨hplain, hkind⟩ := hadds.plain?_last (hkinds.trans hnodes.symm)
  rw [← ofNodes_take_succ hn, hnodes, hlength] at hplain hkind
  have hext : (ofNodes s.functions (ns.take (i + 1))).Extends s := by
    have hall := extends_take s.functions ns (i + 1)
    rwa [← h.store_eq] at hall
  exact ⟨hext.plain?_eq hplain, hext.kind_eq hkind⟩

end Tiled

end Store

end ModelExpr
