import ModelExpr.Proofs.Kind.Shape
import ModelExpr.Proofs.Store.Growth
/-!
Well-formed stores: the kind and the position of every node determine the shape of its payload, where
its operands come from, which kinds they have and how many there are. Appending list entries, a
function or a node that fits keeps a store well formed.
-/

namespace ModelExpr

namespace Store

def Holds (s : Store) (r : Ref) : Prop := s.kinds[r.id.index]? = some r.kind

/-- The payload suits a node of the kind at the position: above all, every operand is an earlier node
of a kind that its place admits. -/
structure Fits (s : Store) (i : Nat) (k : Kind) (p : Payload) : Prop where
  shape : p.shape = k.shape
  operands : ∃ rs, s.operandsOf p = .ok rs ∧
    ∀ j r, rs[j]? = some r → r.id.index < i ∧ s.Holds r ∧ (k.slot j).accepts r.kind = true
  -- a term has a breakpoint, and one slope more than breakpoints
  term : ∀ slopes breakpoints r, p = .piecewiseLinear slopes breakpoints r →
    slopes.stop ≤ s.numbers.size ∧ breakpoints.stop ≤ s.numbers.size ∧
      1 ≤ breakpoints.length.toNat ∧ slopes.length.toNat = breakpoints.length.toNat + 1
  -- the counted value is the first operand
  counted : k = .numberOf → s.operandsOf p ≠ .ok []
  callee : ∀ f r, p = .call f r → f.isValid = true ∧ f.index < s.functions.size

structure WellFormed (s : Store) : Prop where
  size_eq : s.kinds.size = s.nodes.size
  fits : ∀ i k p, s.kinds[i]? = some k → s.nodes[i]? = some p → s.Fits i k p

variable {s t : Store}

theorem Holds.lt {r : Ref} (h : s.Holds r) : r.id.index < s.kinds.size :=
  (Array.getElem?_eq_some_iff.1 h).1

theorem Extends.holds (h : s.Extends t) {r : Ref} (hr : s.Holds r) : t.Holds r := h.kind_eq hr

theorem Extends.operandsOf (h : s.Extends t) {p : Payload} {rs : List Ref}
    (hp : s.operandsOf p = .ok rs) : t.operandsOf p = .ok rs := by
  have list {r : Span} (hr : (s.operandsIn r).map (·.toList) = .ok rs) :
      (t.operandsIn r).map (·.toList) = .ok rs := by
    obtain ⟨xs, hx, rfl⟩ := map_eq_ok.1 hr
    exact map_eq_ok.2 ⟨xs, h.operandsIn hx, rfl⟩
  cases p with
  | list r => exact list hp
  | call f r => exact list hp
  | _ => exact hp

theorem Fits.mono {i : Nat} {k : Kind} {p : Payload} (hp : s.Fits i k p) (h : s.Extends t) :
    t.Fits i k p := by
  obtain ⟨rs, hrs, hr⟩ := hp.operands
  have hnumbers := size_le_of_prefix h.numbers
  constructor
  · exact hp.shape
  · refine ⟨rs, h.operandsOf hrs, ?_⟩
    intro j r hj
    obtain ⟨hlt, hholds, haccepts⟩ := hr j r hj
    exact ⟨hlt, h.holds hholds, haccepts⟩
  · intro a b r he
    obtain ⟨ha, hb, hn⟩ := hp.term a b r he
    exact ⟨Nat.le_trans ha hnumbers, Nat.le_trans hb hnumbers, hn⟩
  · intro hk he
    apply hp.counted hk
    have hnil : rs = [] := Except.ok.inj ((h.operandsOf hrs).symm.trans he)
    rw [hrs, hnil]
  · intro f r he
    obtain ⟨hvalid, hlt⟩ := hp.callee f r he
    exact ⟨hvalid, Nat.lt_of_lt_of_le hlt h.functions_le⟩

namespace WellFormed

theorem empty : Store.empty.WellFormed := by
  constructor
  · rfl
  · intro i k p hk
    simp [Store.empty] at hk

theorem exists_node (hs : s.WellFormed) {r : Ref} (hr : s.Holds r) :
    ∃ p, s.nodes[r.id.index]? = some p ∧ s.Fits r.id.index r.kind p := by
  have hlt : r.id.index < s.nodes.size := hs.size_eq ▸ hr.lt
  have hp := Array.getElem?_eq_getElem hlt
  exact ⟨_, hp, hs.fits _ _ _ hr hp⟩

end WellFormed

structure Pads (s t : Store) : Prop extends s.Extends t where
  kinds_eq : t.kinds = s.kinds
  nodes_eq : t.nodes = s.nodes

namespace Pads

variable {u : Store}

@[refl]
theorem refl (s : Store) : s.Pads s := ⟨.refl s, rfl, rfl⟩

theorem trans (h : s.Pads t) (h' : t.Pads u) : s.Pads u :=
  ⟨h.toExtends.trans h'.toExtends, h'.kinds_eq.trans h.kinds_eq, h'.nodes_eq.trans h.nodes_eq⟩

theorem wellFormed (h : s.Pads t) (hs : s.WellFormed) : t.WellFormed := by
  constructor
  · rw [h.kinds_eq, h.nodes_eq, hs.size_eq]
  · intro i k p hk hp
    rw [h.kinds_eq] at hk
    rw [h.nodes_eq] at hp
    exact (hs.fits i k p hk hp).mono h.toExtends

end Pads

theorem pads_appendOperands (xs : Array Ref) : s.Pads (s.appendOperands xs) :=
  ⟨extends_appendOperands s xs, rfl, rfl⟩

theorem pads_appendNumbers (xs : Array Binary64) : s.Pads (s.appendNumbers xs) :=
  ⟨extends_appendNumbers s xs, rfl, rfl⟩

theorem pads_pushFunction (name : String) : s.Pads (s.pushFunction name) :=
  ⟨extends_pushFunction s name, rfl, rfl⟩

theorem WellFormed.pushNode (hs : s.WellFormed) {k : Kind} {p : Payload}
    (hp : s.Fits s.kinds.size k p) : (s.pushNode k p).WellFormed := by
  have hext := extends_pushNode s k p
  constructor
  · simp [Store.pushNode, hs.size_eq]
  · intro i k' p' hk hp'
    simp only [Store.pushNode, Array.getElem?_push, hs.size_eq] at hk hp'
    by_cases hi : i = s.nodes.size
    · rw [if_pos hi] at hk hp'
      obtain rfl := Option.some.inj hk
      obtain rfl := Option.some.inj hp'
      rw [hi, ← hs.size_eq]
      exact hp.mono hext
    · rw [if_neg hi] at hk hp'
      exact (hs.fits i k' p' hk hp').mono hext

end Store

end ModelExpr
