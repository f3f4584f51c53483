import Mathlib.Data.List.Induction
import ModelExpr.Proofs.Draft.Within
import ModelExpr.Proofs.Store.Spans

namespace ModelExpr

theorem take_concat {α : Type} (xs : List α) (x : α) (n : Nat) :
    (xs ++ [x]).take n = if (xs.take n).length = n then xs.take n else xs.take n ++ [x] := by
  rw [List.length_take]
  by_cases h : n ≤ xs.length
  · rw [if_pos (Nat.min_eq_left h), List.take_append_of_le_length h]
  · have hlength : xs.length ≤ n := Nat.le_of_not_le h
    rw [if_neg (by omega), List.take_of_length_le hlength, List.take_of_length_le]
    simp only [List.length_append, List.length_singleton]
    omega

namespace Draft

variable {l : ListView} {d : Draft l}

def offered (d : Draft l) (xs : List (Handle l.element)) : Draft l :=
  xs.foldl (fun d x => ((add x).run d).2) d

def given (d : Draft l) (xs : List (Handle l.element)) : List Ref :=
  d.operands.toList ++ xs.filterMap (·.ref?)

theorem offered_concat (d : Draft l) (xs : List (Handle l.element)) (x : Handle l.element) :
    d.offered (xs ++ [x]) = ((add x).run (d.offered xs)).2 := by
  simp only [offered, List.foldl_append, List.foldl_cons, List.foldl_nil]

theorem given_concat (d : Draft l) (xs : List (Handle l.element)) (x : Handle l.element) :
    d.given (xs ++ [x]) = d.given xs ++ x.ref?.toList := by
  rw [given, filterMap_concat, ← List.append_assoc, given]

theorem offered_eq (h : d.operands.size ≤ d.declared) (xs : List (Handle l.element)) :
    d.offered xs = { d with operands := ((d.given xs).take d.declared).toArray } := by
  induction xs using List.reverseRecOn with
  | nil => simp [offered, given, List.take_of_length_le h]
  | append_singleton xs x ih =>
    rw [offered_concat, given_concat, ih, add_run]
    obtain ⟨_ | r⟩ := x
    · simp [Handle.require]
    · simp only [Handle.require, Option.toList_some, take_concat, List.size_toArray]
      split <;> simp

theorem Within.offered (hd : d.Within) (xs : List (Handle l.element)) :
    (d.offered xs).Within ∧ (d.offered xs).declared = d.declared := by
  rw [offered_eq hd.added]
  exact ⟨⟨List.length_take_le _ _, hd.declared⟩, rfl⟩

end Draft

namespace TermDraft

inductive Offer where
  | slope (value : Binary64)
  | breakpoint (value : Binary64)
  deriving DecidableEq

namespace Offer

def isSlope : Offer → Bool
  | .slope _ => true
  | .breakpoint _ => false

def value : Offer → Binary64
  | .slope x | .breakpoint x => x

def attempt : Offer → ExceptT Rejection (StateM TermDraft) Unit
  | .slope x => addSlope x
  | .breakpoint x => addBreakpoint x

end Offer

def select (slopes : Bool) (os : List Offer) : List Offer := os.filter (·.isSlope == slopes)

def values (slopes : Bool) (os : List Offer) : List Binary64 := (select slopes os).map Offer.value

variable {d : TermDraft}

def offered (d : TermDraft) (os : List Offer) : TermDraft :=
  os.foldl (fun d o => (o.attempt.run d).2) d

def answers (d : TermDraft) : List Offer → List (Offer × Except Rejection Unit)
  | [] => []
  | o :: os => (o, (o.attempt.run d).1) :: (o.attempt.run d).2.answers os

theorem addSlope_answer (x : Binary64) (d : TermDraft) : ((addSlope x).run d).1 =
    if d.slopes.size = d.declaredSlopes then .error (.overflow .slope) else .ok () := by
  rw [addSlope_run]
  split <;> rfl

theorem addBreakpoint_answer (x : Binary64) (d : TermDraft) : ((addBreakpoint x).run d).1 =
    if d.breakpoints.size = d.declared then .error (.overflow .breakpoint) else .ok () := by
  rw [addBreakpoint_run]
  split <;> rfl

theorem offered_concat (d : TermDraft) (os : List Offer) (o : Offer) :
    d.offered (os ++ [o]) = (o.attempt.run (d.offered os)).2 := by
  simp only [offered, List.foldl_append, List.foldl_cons, List.foldl_nil]

theorem answers_concat (d : TermDraft) (os : List Offer) (o : Offer) :
    d.answers (os ++ [o]) = d.answers os ++ [(o, (o.attempt.run (d.offered os)).1)] := by
  induction os generalizing d with
  | nil => rfl
  | cons o' os ih => rw [List.cons_append, answers, ih, answers, List.cons_append]; rfl

theorem select_concat (b : Bool) (os : List Offer) (o : Offer) :
    select b (os ++ [o]) = if o.isSlope = b then select b os ++ [o] else select b os := by
  simp only [select, List.filter_append, List.filter_cons, List.filter_nil, beq_iff_eq]
  split <;> simp

theorem values_concat (b : Bool) (os : List Offer) (o : Offer) :
    values b (os ++ [o]) = if o.isSlope = b then values b os ++ [o.value] else values b os := by
  rw [values, select_concat]
  split <;> simp [values]

theorem offered_eq (hslopes : d.slopes.size ≤ d.declaredSlopes)
    (hbreakpoints : d.breakpoints.size ≤ d.declared) (os : List Offer) :
    d.offered os = { d with
      slopes := ((d.slopes.toList ++ values true os).take d.declaredSlopes).toArray
      breakpoints := ((d.breakpoints.toList ++ values false os).take d.declared).toArray } := by
  induction os using List.reverseRecOn with
  | nil => simp [offered, values, select, List.take_of_length_le, hslopes, hbreakpoints]
  | append_singleton os o ih =>
    rw [offered_concat, ih]
    cases o with
    | slope x =>
      simp only [Offer.attempt, addSlope_run, declaredSlopes, values_concat, Offer.isSlope,
        Offer.value, if_true, ← List.append_assoc, take_concat, List.size_toArray]
      split <;> simp
    | breakpoint x =>
      simp only [Offer.attempt, addBreakpoint_run, declaredSlopes, values_concat, Offer.isSlope,
        Offer.value, if_true, ← List.append_assoc, take_concat, List.size_toArray]
      split <;> simp

theorem answers_select (hslopes : d.slopes.size ≤ d.declaredSlopes)
    (hbreakpoints : d.breakpoints.size ≤ d.declared) (b : Bool) (os : List Offer) :
    (d.answers os).filter (·.1.isSlope == b) = d.answers (select b os) := by
  induction os using List.reverseRecOn with
  | nil => rfl
  | append_singleton os o ih =>
    rw [answers_concat, List.filter_append, ih, select_concat]
    by_cases ho : o.isSlope = b
    case neg => simp [ho]
    case pos =>
      have hvalues : values b (select b os) = values b os := by simp [values, select]
      have hanswer : (o.attempt.run (d.offered (select b os))).1 =
          (o.attempt.run (d.offered os)).1 := by
        rw [offered_eq hslopes hbreakpoints, offered_eq hslopes hbreakpoints]
        subst ho
        cases o with
        | slope x =>
          simp only [Offer.attempt, addSlope_answer, Offer.isSlope] at hvalues ⊢
          rw [hvalues]
          rfl
        | breakpoint x =>
          simp only [Offer.attempt, addBreakpoint_answer, Offer.isSlope] at hvalues ⊢
          rw [hvalues]
      rw [if_pos ho, answers_concat, hanswer]
      simp [ho]

theorem Within.offered (hd : d.Within) (os : List Offer) :
    (d.offered os).Within ∧ (d.offered os).declared = d.declared := by
  rw [offered_eq hd.slopes hd.breakpoints]
  exact ⟨⟨List.length_take_le _ _, List.length_take_le _ _, hd.declared⟩, rfl⟩

end TermDraft

end ModelExpr
