import Mathlib.Data.Finset.Card
import Mathlib.Data.Finset.Range
import Mathlib.Logic.Relation
import ModelExpr.Proofs.Store.Spelling

namespace ModelExpr

namespace Plain

def Precedes (n : Plain) (i : Nat) : Prop := ∀ r ∈ n.operands, r.id.index < i

instance (n : Plain) (i : Nat) : Decidable (n.Precedes i) :=
  inferInstanceAs (Decidable (∀ r ∈ n.operands, r.id.index < i))

end Plain

namespace Store

open Relation

def Uses (s : Store) (i m : Nat) : Prop :=
  ∃ p xs, s.nodes[i]? = some p ∧ s.operandsOf p = .ok xs ∧ ∃ r ∈ xs, r.id.index = m

def Ordered (s : Store) : Prop := ∀ i m, s.Uses i m → m < i

def Acyclic (s : Store) : Prop := ∀ i, ¬TransGen s.Uses i i

variable {s : Store} {i m : Nat}

theorem Ordered.acyclic (hs : s.Ordered) : s.Acyclic := by
  have hdown {i m : Nat} (h : TransGen s.Uses i m) : m < i := by
    induction h with
    | single h => exact hs _ _ h
    | tail _ h ih => exact Nat.lt_trans (hs _ _ h) ih
  intro i h
  exact Nat.lt_irrefl i (hdown h)

theorem Spells.ordered_iff {ns : List PlainNode} (hs : s.Spells ns) :
    s.Ordered ↔ ∀ (i : Nat) (n : PlainNode), ns[i]? = some n → n.content.Precedes i := by
  constructor
  · intro hordered i n hn r hr
    obtain ⟨p, -, hp, hinline⟩ := hs.node hn
    exact hordered i _ ⟨p, _, hp, operandsOf_inline hinline, r, hr, rfl⟩
  · rintro hall i m ⟨p, xs, hp, hxs, r, hr, rfl⟩
    obtain ⟨n, hn, hinline⟩ := hs.exists_node hp
    obtain rfl := Except.ok.inj (hxs.symm.trans (operandsOf_inline hinline))
    exact hall i n hn r hr

open scoped Classical in
noncomputable def below (s : Store) (i : Nat) : Finset Nat :=
  (Finset.range s.nodes.size).filter (ReflTransGen s.Uses i)

noncomputable def rank (s : Store) (i : Nat) : Nat := (s.below i).card

theorem rank_le (s : Store) (i : Nat) : s.rank i ≤ s.nodes.size := by
  have hsub : s.below i ⊆ Finset.range s.nodes.size := by
    intro k hk
    simp only [below, Finset.mem_filter] at hk
    exact hk.1
  simpa [rank] using Finset.card_le_card hsub

theorem Uses.lt (h : s.Uses i m) : i < s.nodes.size := by
  obtain ⟨p, -, hp, -⟩ := h
  exact (Array.getElem?_eq_some_iff.1 hp).1

theorem Acyclic.rank_lt (hs : s.Acyclic) (h : s.Uses i m) : s.rank m < s.rank i := by
  apply Finset.card_lt_card
  rw [Finset.ssubset_iff_of_subset]
  · refine ⟨i, ?_, ?_⟩
    · simp only [below, Finset.mem_filter, Finset.mem_range]
      exact ⟨h.lt, .refl⟩
    · simp only [below, Finset.mem_filter, not_and]
      intro _ hback
      exact hs i (TransGen.head' h hback)
  · intro k hk
    simp only [below, Finset.mem_filter] at hk ⊢
    exact ⟨hk.1, .head h hk.2⟩

end Store

end ModelExpr
