import ModelExpr.Proofs.Client.Sound
import ModelExpr.Proofs.Traversal.Children

namespace ModelExpr.Client

variable {C : Client}

/-- A visitor that notes its stops and goes on where `passesExpr` and `passes` let it notes those of
the unfolding, in which every expression has the unfoldings of its operands from left to right. Its
visits are nested at most one deeper than the position of the expression. -/
theorem run_visit_eq_stops {o : Options} (h : start o = .ok C) (as : List (Action Access Callee))
    {v : View} (a : Access v) {r : Ref} (hr : a.eval (C.run as) = some (.ofRef r))
    (passesExpr passes : Kind → Bool) :
    let s := (C.run as).store
    let V := Visitor.noting passesExpr passes
    let stops := (s.unfold r).stops passesExpr passes
    V.visitExpr s (.ofRef r) [] = .ok stops ∧
      V.nested s (r.id.index + 1) r [] = .ok stops ∧
        ∃ n, s.plain? r.id.index = some n ∧
          s.unfold r = .node r n.function? (n.operands.map s.unfold) := by
  intro s V stops
  have hC := ((Sound.start h).run as).sound
  have hs : s.WellFormed := hC.factory.wellFormed
  have hholds : s.Holds r := (hC.access_known a hr).of_ofRef.2
  have hlt : r.id.index < r.id.index + 1 := Nat.lt_succ_self _
  have hnoted := Visitor.foldlM_noting passesExpr passes stops []
  refine ⟨?_, ?_, ?_⟩
  · rw [V.visitExpr_eq hs hholds]
    exact hnoted
  · rw [V.nested_eq hs hholds hlt]
    exact hnoted
  · obtain ⟨n, hn, -, hunfold⟩ := hs.unfold_eq hholds
    exact ⟨n, hn, hunfold⟩

theorem run_visit_eq_stops_sample : ∃ C, start {} = .ok C ∧
    (Visitor.noting (fun _ => true) (· ≠ .count)).visitExpr (C.run sample).store
      (.ofRef ⟨⟨2⟩, .numberOf⟩) [] =
        .ok [.expr (.ofRef ⟨⟨2⟩, .numberOf⟩), .numeric (.ofRef ⟨⟨2⟩, .numberOf⟩),
          .expr (.ofRef ⟨⟨0⟩, .decisionVariable⟩), .numeric (.ofRef ⟨⟨0⟩, .decisionVariable⟩),
          .expr (.ofRef ⟨⟨0⟩, .decisionVariable⟩), .numeric (.ofRef ⟨⟨0⟩, .decisionVariable⟩)] := by
  refine ⟨_, rfl, ?_⟩
  obtain ⟨hvisit, hnested, -⟩ := run_visit_eq_stops (o := {}) rfl sample (.made .numberOf 3) rfl
    (fun _ => true) (· ≠ .count)
  exact hvisit.trans (hnested.symm.trans rfl)

/-- One call of a walk passes on what the accessors of the only specific view give: the function
first, which calls alone have, and then the operands from left to right. -/
theorem run_walk_eq_children {o : Options} (h : start o = .ok C) (as : List (Action Access Callee))
    {v : View} (a : Access v) {r : Ref} (hr : a.eval (C.run as) = some (.ofRef r)) :
    let s := (C.run as).store
    ∃ w : View, (∀ u : View, u.isSpecific = true ∧ u.accepts r.kind = true ↔ u = w) ∧
      ∃ x : Handle w, (Handle.ofRef r : Handle v).cast w = .ok x ∧
        ∃ f? xs, s.callee? x = .ok f? ∧ s.children x = .ok xs ∧
          (f?.isSome = true ↔ r.kind = .call) ∧
          ∀ e ∈ [Start.walkNumeric, .walkLogical],
            (∀ {σ : Type} (V : Visitor σ) (b : σ), e.run V s (.ofRef r) b =
              f?.toList.foldlM (fun c f => V.onFunction f c) b >>= fun c =>
                xs.foldlM (fun d y => V.visitExpr s y d) c) ∧
            ∀ passes, e.run (.noting (fun _ => false) passes) s (.ofRef r) [] =
              .ok (f?.toList.map .function ++ xs.map .expr) := by
  intro s
  have hC := ((Sound.start h).run as).sound
  have hs : s.WellFormed := hC.factory.wellFormed
  have hholds : s.Holds r := (hC.access_known a hr).of_ofRef.2
  obtain ⟨n, hn, hsuits⟩ := hs.exists_plain hholds
  obtain ⟨haccepts, hspecific⟩ := View.specific_accepts r.kind
  have hwalk (e : Start) (he : e ∈ [Start.walkNumeric, .walkLogical]) {σ : Type} (V : Visitor σ)
      (b : σ) : e.run V s (.ofRef r) b =
        n.function?.toList.foldlM (fun c f => V.onFunction f c) b >>= fun c =>
          (n.operands.map Handle.ofRef).foldlM (fun d y => V.visitExpr s y d) c := by
    simp only [List.foldlM_map]
    obtain rfl | rfl : e = .walkNumeric ∨ e = .walkLogical := by simpa using he
    · exact V.walkOperands_eq (v := .numeric) hs hholds hn b
    · exact V.walkOperands_eq (v := .logical) hs hholds hn b
  refine ⟨.specific r.kind, fun _ => View.specific_iff, .ofRef r, if_pos haccepts, n.function?,
    n.operands.map .ofRef, hsuits.callee?_eq hn haccepts hspecific,
    hsuits.children_eq hn haccepts hspecific, hsuits.isSome_function?, ?_⟩
  intro e he
  refine ⟨hwalk e he, ?_⟩
  intro passes
  have hfunctions := Visitor.foldlM_noting (fun _ => false) passes
    (n.function?.toList.map .function) []
  rw [List.foldlM_map] at hfunctions
  rw [hwalk e he]
  change (n.function?.toList.foldlM (fun b f => (Visitor.noting _ passes).stopAt b (.function f)) []
    >>= _) = _
  rw [hfunctions]
  exact Visitor.foldlM_visitExpr_noting passes _ _

theorem run_walk_eq_children_sample : ∃ C, start {} = .ok C ∧
    (Visitor.noting (fun _ => false) (fun _ => true)).walkOperands (C.run sample).store
      (.ofRef ⟨⟨3⟩, .conditional⟩ : Handle .numeric) [] =
        .ok [.expr (.ofRef ⟨⟨1⟩, .logicalConstant⟩), .expr (.ofRef ⟨⟨2⟩, .numberOf⟩)] := by
  refine ⟨_, rfl, ?_⟩
  obtain ⟨w, hw, x, hx, f?, xs, hf, hxs, -, hwalk⟩ :=
    run_walk_eq_children (o := {}) rfl sample (.made .conditional 4) rfl
  obtain rfl := (hw .conditional).1 ⟨rfl, rfl⟩
  cases hx
  cases hf
  cases hxs
  exact (hwalk .walkNumeric List.mem_cons_self).2 fun _ => true

end ModelExpr.Client
