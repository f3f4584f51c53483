import ModelExpr.Proofs.Factory.Plan

namespace ModelExpr

structure Draft.Within {l : ListView} (d : Draft l) : Prop where
  added : d.operands.size ≤ d.declared
  declared : d.declared < UInt32.size - 1

structure TermDraft.Within (d : TermDraft) : Prop where
  slopes : d.slopes.size ≤ d.declaredSlopes
  breakpoints : d.breakpoints.size ≤ d.declared
  declared : d.declared < UInt32.size - 1

def Product.Within : Product → Prop
  | .draft d => d.Within
  | .termDraft d => d.Within
  | _ => True

namespace Draft

variable {l : ListView} {d d' : Draft l}

theorem Within.add {x : Handle l.element} {y : Except Rejection Unit} (hd : d.Within)
    (h : (Draft.add x).run d = (y, d')) : d'.Within := by
  rw [add_run] at h
  have hadded := hd.added
  split at h
  · split at h <;> cases h
    · exact hd
    · refine ⟨?_, hd.declared⟩
      simp only [Array.size_push]
      omega
  · cases h
    exact hd

theorem requireComplete_eq_ok (h : d.operands.size ≤ d.declared) :
    d.requireComplete = .ok () ↔ d.operands.size = d.declared := by
  unfold requireComplete
  split
  · refine iff_of_false (by rintro ⟨⟩) ?_
    omega
  · refine iff_of_true rfl ?_
    omega

end Draft

namespace TermDraft

variable {d d' : TermDraft} {x : Binary64} {y : Except Rejection Unit}

theorem addSlope_error {e : Rejection} (h : (addSlope x).run d = (.error e, d')) : d' = d := by
  rw [addSlope_run] at h
  split at h <;> cases h
  rfl

theorem addBreakpoint_error {e : Rejection} (h : (addBreakpoint x).run d = (.error e, d')) :
    d' = d := by
  rw [addBreakpoint_run] at h
  split at h <;> cases h
  rfl

theorem Within.addSlope (hd : d.Within) (h : (TermDraft.addSlope x).run d = (y, d')) :
    d'.Within := by
  rw [addSlope_run] at h
  have hslopes := hd.slopes
  split at h <;> cases h
  · exact hd
  · refine ⟨?_, hd.breakpoints, hd.declared⟩
    unfold declaredSlopes at *
    simp only [Array.size_push]
    omega

theorem Within.addBreakpoint (hd : d.Within) (h : (TermDraft.addBreakpoint x).run d = (y, d')) :
    d'.Within := by
  rw [addBreakpoint_run] at h
  have hbreakpoints := hd.breakpoints
  split at h <;> cases h
  · exact hd
  · refine ⟨hd.slopes, ?_, hd.declared⟩
    simp only [Array.size_push]
    omega

theorem requireComplete_eq_ok (hslopes : d.slopes.size ≤ d.declaredSlopes)
    (hbreakpoints : d.breakpoints.size ≤ d.declared) : d.requireComplete = .ok () ↔
      d.breakpoints.size = d.declared ∧ d.slopes.size = d.declaredSlopes := by
  unfold requireComplete
  split
  · refine iff_of_false (by rintro ⟨⟩) ?_
    omega
  · split
    · refine iff_of_false (by rintro ⟨⟩) ?_
      omega
    · refine iff_of_true rfl ?_
      omega

end TermDraft

theorem Construction.plan_within {c : Construction Handle FunctionRef} {m : Nat} {q : Product}
    (h : c.plan m = .ok (.draft q)) : q.Within := by
  cases plan_opens h with
  | numberOf n r hleast hn => exact ⟨hleast, hn⟩
  | call f n _ hn | vararg k n _ hn | iteratedLogical k n _ hn => exact ⟨Nat.zero_le n, hn⟩
  | sum n hn | count n hn | allDiff n hn => exact ⟨Nat.zero_le n, hn⟩
  | term n _ hn => exact ⟨Nat.zero_le _, Nat.zero_le _, hn⟩

theorem Call.perform_within {c : Call} {f g : Factory} {q : Product}
    (h : c.perform.run f = (.ok q, g)) : q.Within := by
  cases c with
  | construct c =>
    obtain ⟨p, hp, hmakes⟩ := Construction.perform_ok h
    cases p with
    | node v k p =>
      obtain ⟨rfl, -⟩ := hmakes
      trivial
    | function name =>
      obtain ⟨x, rfl, -⟩ := hmakes
      trivial
    | draft d =>
      obtain ⟨rfl, -⟩ := hmakes
      exact Construction.plan_within hp
  | finish d =>
    obtain ⟨x, f₁, -, h⟩ := FactoryM.run_bind_ok h
    cases h
    trivial
  | finishTerm d x =>
    obtain ⟨x, f₁, -, h⟩ := FactoryM.run_bind_ok h
    cases h
    trivial

end ModelExpr
