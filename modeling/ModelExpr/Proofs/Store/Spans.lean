import Mathlib.Logic.ExistsUnique
import ModelExpr.Reference

namespace ModelExpr

theorem filterMap_concat {α β : Type} (p : α → Option β) (xs : List α) (x : α) :
    (xs ++ [x]).filterMap p = xs.filterMap p ++ (p x).toList := by
  rw [List.filterMap_append]
  cases hx : p x <;> simp [hx]

theorem getElem?_concat {α : Type} {xs : List α} {x y : α} {i : Nat}
    (h : (xs ++ [x])[i]? = some y) :
    (i < xs.length ∧ xs[i]? = some y) ∨ (i = xs.length ∧ y = x) := by
  rw [List.getElem?_append] at h
  split at h
  case isTrue hi => exact .inl ⟨hi, h⟩
  case isFalse hi =>
    right
    obtain ⟨hlt, hx⟩ := List.getElem?_eq_some_iff.1 h
    rw [List.getElem_singleton] at hx
    rw [List.length_singleton] at hlt
    exact ⟨by omega, hx.symm⟩

namespace Span

def Covers (r : Span) (m : Nat) : Prop := r.start.toNat ≤ m ∧ m < r.stop

def cover : List Span → Nat
  | [] => 0
  | r :: rs => r.length.toNat + cover rs

structure Divides (rs : List Span) (length : Nat) : Prop where
  starts : ∀ (i : Nat) (r : Span), rs[i]? = some r → r.length ≠ 0 →
    r.start.toNat = cover (rs.take i)
  cover_eq : cover rs = length
  within : ∀ r ∈ rs, ∀ m, r.Covers m → m < length
  owner : ∀ m < length, ∃! i : Nat, ∃ r, rs[i]? = some r ∧ r.Covers m

variable {rs ts : List Span} {r t : Span} {m n : Nat}

theorem cover_append : cover (rs ++ ts) = cover rs + cover ts := by
  induction rs with
  | nil => exact (Nat.zero_add _).symm
  | cons r rs ih => rw [List.cons_append, cover, cover, ih, Nat.add_assoc]

theorem covers_iff (h : r.length ≠ 0 → r.start.toNat = n) :
    r.Covers m ↔ n ≤ m ∧ m < n + r.length.toNat := by
  rw [Covers, stop]
  by_cases hzero : r.length = 0
  · rw [hzero, UInt32.toNat_zero]
    omega
  · rw [h hzero]

namespace Divides

theorem nil : Divides [] 0 := by
  constructor
  · intro i r h
    cases h
  · rfl
  · intro r h
    cases h
  · intro m h
    cases h

theorem concat (h : Divides rs n) (hr : r.length ≠ 0 → r.start.toNat = n) :
    Divides (rs ++ [r]) (n + r.length.toNat) := by
  constructor
  · intro i t ht hne
    obtain ⟨hi, ht⟩ | ⟨rfl, rfl⟩ := getElem?_concat ht
    · rw [List.take_append_of_le_length (Nat.le_of_lt hi)]
      exact h.starts i t ht hne
    · rw [List.take_left, h.cover_eq]
      exact hr hne
  · rw [cover_append, h.cover_eq]
    rfl
  · intro t ht m hm
    obtain ht | ht := List.mem_append.1 ht
    · exact Nat.lt_add_right _ (h.within t ht m hm)
    · obtain rfl := List.mem_singleton.1 ht
      exact ((covers_iff hr).1 hm).2
  · intro m hm
    -- An old entry keeps its owner, and the new span owns nothing but the new ones.
    by_cases hlt : m < n
    case pos =>
      obtain ⟨i, ⟨t, ht, hcovered⟩, hunique⟩ := h.owner m hlt
      have hi := (List.getElem?_eq_some_iff.1 ht).1
      refine ⟨i, ⟨t, (List.getElem?_append_left hi).trans ht, hcovered⟩, ?_⟩
      rintro j ⟨u, hu, hcovers⟩
      obtain ⟨-, hu⟩ | ⟨-, rfl⟩ := getElem?_concat hu
      · exact hunique j ⟨u, hu, hcovers⟩
      · exact absurd hlt (Nat.not_lt_of_le ((covers_iff hr).1 hcovers).1)
    case neg =>
      refine ⟨rs.length, ⟨r, List.getElem?_concat_length, ?_⟩, ?_⟩
      · exact (covers_iff hr).2 ⟨Nat.le_of_not_lt hlt, hm⟩
      · rintro j ⟨u, hu, hcovers⟩
        obtain ⟨-, hu⟩ | ⟨hj, -⟩ := getElem?_concat hu
        · exact absurd (h.within u (List.mem_of_getElem? hu) m hcovers) hlt
        · exact hj

end Divides

end Span

end ModelExpr
