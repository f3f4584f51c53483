import ModelExpr.Proofs.Cursor.Walk
import ModelExpr.Proofs.Store.Series
import ModelExpr.Proofs.Workshop.Cursors

namespace ModelExpr.Workshop

variable {j : Nat} {g : Factory} {r : Ref} {v : View} {c : Content}

theorem run_content (jobs : List Job) (hg : (Workshop.run {} jobs).factories[j]? = some g)
    (hr : g.store.kind? r.id = some r.kind) (hv : v.accepts r.kind = true) (L : Series v c) :
    ∃ n p u xs, (Workshop.laid {} j jobs)[r.id.index]? = some ⟨r.kind, n⟩ ∧ L.list? n = some xs ∧
      g.store.nodes[r.id.index]? = some p ∧ L.span? p = some u ∧ u.Cuts (L.flat g.store) xs ∧
      L.Reads g.store (.ofRef r) xs := by
  have hspells := run_spells jobs hg
  obtain ⟨n, p, hm, hp, hinline, hshape⟩ := hspells.exists_content (run_shaped jobs hg) hr
  obtain ⟨xs, hxs⟩ := L.exists_list hv hshape
  obtain ⟨u, hu, hcuts⟩ := L.exists_span hinline hxs
  have hplain := hspells.plain?_eq_some_iff.2 ⟨_, hm, rfl⟩
  exact ⟨n, p, u, xs, hm, hxs, hp, hu, hcuts, L.reads hplain hxs⟩

theorem run_walks (jobs : List Job) (hg : (Workshop.run {} jobs).factories[j]? = some g)
    (hr : g.store.kind? r.id = some r.kind) (hv : v.accepts r.kind = true) {l : ListView}
    (e : v.list? = some l) : ∃ xs k, (Series.operands e).Reads g.store (.ofRef r) xs ∧
      g.store.cursor (.ofRef r : Handle l.view) = .ok k ∧ k.Walks xs := by
  rw [View.list?_eq_some_iff.1 e] at hv
  obtain ⟨n, rs, k, hn, hrs, hk, hfresh⟩ := run_cursor jobs hg hr hv
  have hxs : (Series.operands e).list? n = some (rs.map .ofRef) := by
    rw [Series.list?, hrs]
    rfl
  exact ⟨_, k, (Series.operands e).reads hn hxs, hk, k.walks hfresh⟩

/-- A list is what the span of its node cuts out of the flat list, and that is what was asked for.
Read as a whole, by its length or by an index, it is the same list, and operands also come in its
order from the front and in reverse from the back. -/
theorem run_series (jobs : List Job) (hg : (Workshop.run {} jobs).factories[j]? = some g)
    (hr : g.store.kind? r.id = some r.kind) (hv : v.accepts r.kind = true) :
    (∀ {c : Content} (L : Series v c), ∃ n p u xs,
      (Workshop.laid {} j jobs)[r.id.index]? = some ⟨r.kind, n⟩ ∧ L.list? n = some xs ∧
      g.store.nodes[r.id.index]? = some p ∧ L.span? p = some u ∧ u.Cuts (L.flat g.store) xs ∧
      L.Reads g.store (.ofRef r) xs) ∧
    ∀ {l : ListView} (e : v.list? = some l), ∃ xs k,
      (Series.operands e).Reads g.store (.ofRef r) xs ∧
      g.store.cursor (.ofRef r : Handle l.view) = .ok k ∧ k.Walks xs :=
  ⟨run_content jobs hg hr hv, run_walks jobs hg hr hv⟩

def adjoining : List Job :=
  [.equip {}, .act 0 (.construct (.decisionVariable 0)), .act 0 (.construct (.decisionVariable 1)),
    .act 0 (.construct (.beginSum 2)), .act 0 (.add (l := .sum) 2 (.ofRef ⟨⟨0⟩, .decisionVariable⟩)),
    .act 0 (.add (l := .sum) 2 (.ofRef ⟨⟨1⟩, .decisionVariable⟩)), .act 0 (.finish 2),
    .act 0 (.construct (.beginSum 1)), .act 0 (.add (l := .sum) 4 (.ofRef ⟨⟨1⟩, .decisionVariable⟩)),
    .act 0 (.finish 4), .act 0 (.construct (.beginTerm 1)), .act 0 (.addSlope 6 ⟨5⟩),
    .act 0 (.addBreakpoint 6 ⟨6⟩), .act 0 (.addSlope 6 ⟨7⟩),
    .act 0 (.finishTerm 6 (.ofRef ⟨⟨0⟩, .decisionVariable⟩))]

theorem run_series_adjoining : ∃ g, (Workshop.run {} adjoining).factories[0]? = some g ∧
    g.store.operands.toList = [⟨⟨0⟩, .decisionVariable⟩, ⟨⟨1⟩, .decisionVariable⟩,
      ⟨⟨1⟩, .decisionVariable⟩] ∧
    (∀ i, 2 ≤ i → g.store.read (.ofRef ⟨⟨2⟩, .sum⟩ : Handle .sum) (.operand rfl i) =
      .error (.rejected (.indexOutOfBounds i 2))) ∧
    (∃ k, g.store.cursor (.ofRef ⟨⟨2⟩, .sum⟩ : Handle ListView.sum.view) = .ok k ∧
      k.Yields Cursor.nextBack [.ofRef ⟨⟨1⟩, .decisionVariable⟩, .ofRef ⟨⟨0⟩, .decisionVariable⟩]) ∧
    g.store.numbers.toList = [⟨5⟩, ⟨7⟩, ⟨6⟩] ∧
    ∀ i, 2 ≤ i → g.store.read (.ofRef ⟨⟨4⟩, .piecewiseLinear⟩ : Handle .piecewiseLinear)
      (.slope rfl i) = .error (.rejected (.indexOutOfBounds i 2)) := by
  obtain ⟨hsum, hwalk⟩ := run_series (j := 0) (r := ⟨⟨2⟩, .sum⟩) (v := .sum) adjoining rfl rfl rfl
  obtain ⟨hterm, -⟩ := run_series (j := 0) (r := ⟨⟨4⟩, .piecewiseLinear⟩) (v := .piecewiseLinear)
    adjoining rfl rfl rfl
  obtain ⟨n, p, u, xs, hn, hxs, -, -, -, hoperands⟩ := hsum (.operands rfl)
  cases hn
  cases hxs
  obtain ⟨n, p, u, xs, hn, hxs, -, -, -, hslopes⟩ := hterm (.slopes rfl)
  cases hn
  cases hxs
  obtain ⟨xs, k, hreads, hk, hwalks⟩ := hwalk (l := .sum) rfl
  have hall := hreads.all.symm.trans hoperands.all
  obtain rfl := List.toArray_inj (Except.ok.inj hall)
  exact ⟨_, rfl, rfl, fun i hi => (hoperands.refused_iff i _).2 ⟨hi, rfl⟩, ⟨k, hk, hwalks.backward⟩,
    rfl, fun i hi => (hslopes.refused_iff i _).2 ⟨hi, rfl⟩⟩

end ModelExpr.Workshop
