import Mathlib.Data.List.Induction
import ModelExpr.Proofs.Cursor.Queue

namespace ModelExpr.Cursor

variable {v : View} {c : Cursor v} {hs : List (Handle v)}

inductive Yields (step : Cursor v → Option (Handle v) × Cursor v) :
    Cursor v → List (Handle v) → Prop where
  | nil {c : Cursor v} (h : (step c).1 = none) : Yields step c []
  | cons {c : Cursor v} {x : Handle v} {hs : List (Handle v)} (h : (step c).1 = some x)
    (hrest : Yields step (step c).2 hs) : Yields step c (x :: hs)

structure Walks (c : Cursor v) (hs : List (Handle v)) : Prop where
  length : c.length = hs.length
  nth : ∀ i, (c.nth i).1 = hs[i]?
  nthBack : ∀ i, i < hs.length → (c.nthBack (hs.length - 1 - i)).1 = hs[i]?
  forward : c.Yields next hs
  backward : c.Yields nextBack hs.reverse

theorem next_remaining (c : Cursor v) :
    c.next.1 = c.queue.remaining.head? ∧ c.next.2.queue.remaining = c.queue.remaining.tail := by
  have hnext := (nth_queue c 0).symm.trans (Queue.nth_eq _ 0)
  constructor
  · rw [List.head?_eq_getElem?]
    exact congrArg Prod.fst hnext
  · rw [← List.drop_one]
    exact congrArg (·.2.remaining) hnext

theorem nextBack_remaining (c : Cursor v) : c.nextBack.1 = c.queue.remaining.getLast? ∧
    c.nextBack.2.queue.remaining = c.queue.remaining.dropLast := by
  have hnext := (nthBack_queue c 0).symm.trans (Queue.nthBack_eq _ 0)
  constructor
  · rw [← List.head?_reverse, List.head?_eq_getElem?]
    exact congrArg Prod.fst hnext
  · rw [List.dropLast_eq_take]
    exact congrArg (·.2.remaining) hnext

theorem yields_next (h : c.queue.remaining = hs) : c.Yields next hs := by
  induction hs generalizing c with
  | nil =>
    apply Yields.nil
    rw [(next_remaining c).1, h]
    rfl
  | cons x hs ih =>
    obtain ⟨hfirst, hrest⟩ := next_remaining c
    rw [h] at hfirst hrest
    exact .cons hfirst (ih hrest)

theorem yields_nextBack (h : c.queue.remaining = hs) : c.Yields nextBack hs.reverse := by
  induction hs using List.reverseRecOn generalizing c with
  | nil =>
    apply Yields.nil
    rw [(nextBack_remaining c).1, h]
    rfl
  | append_singleton hs x ih =>
    obtain ⟨hlast, hrest⟩ := nextBack_remaining c
    rw [h, List.getLast?_concat] at hlast
    rw [h, List.dropLast_concat] at hrest
    rw [List.reverse_concat]
    exact .cons hlast (ih hrest)

theorem walks {owner : Option Ref} (h : c.queue = .fresh owner hs) : c.Walks hs := by
  have hremaining : c.queue.remaining = hs := by
    rw [h]
    rfl
  have hnth (i : Nat) := (nth_queue c i).symm.trans (Queue.nth_eq _ i)
  have hnthBack (i : Nat) := (nthBack_queue c i).symm.trans (Queue.nthBack_eq _ i)
  constructor
  · rw [← c.length_queue, Queue.length, hremaining]
  · intro i
    rw [← hremaining]
    exact congrArg Prod.fst (hnth i)
  · intro i hi
    have hback : hs.length - 1 - (hs.length - 1 - i) = i := by omega
    rw [congrArg Prod.fst (hnthBack _), hremaining, List.getElem?_reverse (by omega), hback]
  · exact yields_next hremaining
  · exact yields_nextBack hremaining

end ModelExpr.Cursor
