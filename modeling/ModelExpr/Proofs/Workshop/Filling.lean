import ModelExpr.Proofs.Factory.Filling
import ModelExpr.Proofs.Workshop.Makers

namespace ModelExpr

inductive Product.Arises : Product → Prop where
  | handle {v : View} (x : Handle v) : Arises (.handle x)
  | function (f : FunctionRef) : Arises (.function f)
  | draft {c : Construction Handle FunctionRef} {b : Beginning} {f : Factory}
    (hb : c.beginning? = some b) (h : c.perform.run f = (.ok (.draft b.draft), f))
    (xs : List (Handle b.list.element)) : Arises (.draft (b.draft.offered xs))
  | termDraft {n : Nat} {f : Factory}
    (h : (Construction.beginTerm n).perform.run f = (.ok (.termDraft { declared := n }), f))
    (os : List TermDraft.Offer) : Arises (.termDraft (.offered { declared := n } os))

theorem Product.Arises.change {a : Action Handle FunctionRef} {p q : Product}
    {y : Except Rejection Unit} (hp : p.Arises) (h : a.change? p = some (y, q)) : q.Arises := by
  cases Action.changes_of_change? h with
  | @add l i x d d' y hrun =>
    cases hp with
    | draft hb hbegun xs =>
      obtain ⟨-, rfl⟩ := Prod.ext_iff.1 hrun
      rw [← Draft.offered_concat]
      exact .draft hb hbegun (xs ++ [x])
  | @addSlope i x d d' y hrun =>
    cases hp with
    | termDraft hbegun os =>
      obtain ⟨-, rfl⟩ := Prod.ext_iff.1 hrun
      change (Product.termDraft ((TermDraft.Offer.slope x).attempt.run _).2).Arises
      rw [← TermDraft.offered_concat]
      exact .termDraft hbegun (os ++ [.slope x])
  | @addBreakpoint i x d d' y hrun =>
    cases hp with
    | termDraft hbegun os =>
      obtain ⟨-, rfl⟩ := Prod.ext_iff.1 hrun
      change (Product.termDraft ((TermDraft.Offer.breakpoint x).attempt.run _).2).Arises
      rw [← TermDraft.offered_concat]
      exact .termDraft hbegun (os ++ [.breakpoint x])

theorem Call.perform_arises {c : Call} {f g : Factory} {q : Product}
    (h : c.perform.run f = (.ok q, g)) : q.Arises := by
  cases Call.perform_ends h with
  | laid => exact .handle _
  | known | registered => exact .function _
  | drafted b q hc hq hg =>
    subst hc hg
    cases Construction.plan_opens hq with
    | term n => exact .termDraft h []
    | call f n => exact .draft (c := .beginCall f n) rfl h []
    | vararg k n => exact .draft (c := .beginVararg k n) rfl h []
    | sum n => exact .draft (c := .beginSum n) rfl h []
    | numberOf n r => exact .draft (c := .beginNumberOf n (.ofRef r)) rfl h []
    | count n => exact .draft (c := .beginCount n) rfl h []
    | iteratedLogical k n => exact .draft (c := .beginIteratedLogical k n) rfl h []
    | allDiff n => exact .draft (c := .beginAllDiff n) rfl h []

namespace Workshop

theorem run_arises (jobs : List Job) :
    ∀ i p, (Workshop.run {} jobs).product? i = some p → p.Arises :=
  run_products (fun _ _ _ _ => Product.Arises.change) (fun _ _ _ _ => Call.perform_arises) jobs

/-- After any attempts to add to a list that was begun, it holds the first of what it was given, and it
is finished into a node with exactly these operands or refused. No draft is there but such ones. -/
theorem run_drafts_filled (jobs : List Job) :
    (∀ (c : Construction Handle FunctionRef) (b : Beginning) (f g : Factory) (q : Product),
      c.beginning? = some b → c.perform.run f = (.ok q, g) →
        g = f ∧ q = .draft b.draft ∧ b.draft.added = (if b.kind = .numberOf then 1 else 0) ∧
          ∀ xs, b.Filled xs (b.draft.offered xs)) ∧
      ∀ (i : Nat) {l : ListView} (d : Draft l),
        (Workshop.run {} jobs).product? i = some (.draft d) →
          (∃ (c : Construction Handle FunctionRef) (b : Beginning) (f : Factory) (xs : _),
            c.beginning? = some b ∧ c.perform.run f = (.ok (.draft b.draft), f) ∧
              Product.draft d = .draft (b.draft.offered xs)) ∧
          ∀ (f g : Factory) x, (Factory.finish d).run f = (.ok x, g) →
            ∃ n, g.store.plain? x.id.index = some n ∧ n.operands.length = d.declared := by
  refine ⟨?_, ?_⟩
  · intro c b f g q hb h
    obtain ⟨rfl, rfl, hvalid⟩ := Construction.perform_beginning hb h
    exact ⟨rfl, rfl, hvalid.initial, hvalid.filled⟩
  · intro i l d hd
    have harises := run_arises jobs i _ hd
    cases harises with
    | @draft c b f hb hbegun xs =>
      refine ⟨⟨c, b, f, xs, hb, hbegun, rfl⟩, ?_⟩
      intro f' g x hx
      obtain ⟨-, -, hvalid⟩ := Construction.perform_beginning hb hbegun
      have hfilled := hvalid.filled xs
      obtain ⟨rs, -, hlength, r, rfl, hfinishes, -⟩ := hfilled.finished f' g x hx
      refine ⟨_, hfinishes.reads, ?_⟩
      rw [hfilled.declared, ← hlength, Beginning.plain]
      split <;> rfl

theorem run_drafts_filled_sample :
    let x : Ref := ⟨⟨0⟩, .decisionVariable⟩
    let b : Beginning := { list := .numberOf, kind := .numberOf, declared := 2, operands := [x] }
    let d := b.draft.offered [.null, .ofRef x, .ofRef x]
    d.operands.toList = [x, x] ∧ ((Draft.add (.ofRef x)).run d).1 = .error (.overflow .argument) ∧
      (∃ y g, (Factory.finish d).run {} = (.ok y, g) ∧ g.store.read y (.operandCount rfl) = .ok 2) ∧
      ∃ (l : ListView) (d : Draft l), (Workshop.run {} sample).product? 1 = some (.draft d) ∧
        ∀ (f g : Factory) y, (Factory.finish d).run f = (.ok y, g) →
          ∃ n, g.store.plain? y.id.index = some n ∧ n.operands.length = 1 := by
  intro x b d
  obtain ⟨hbegun, hreached⟩ := run_drafts_filled sample
  obtain ⟨-, -, -, hfilled⟩ := hbegun (.beginNumberOf 2 (.ofRef x)) b {} {} _ rfl rfl
  have hd := hfilled [.null, .ofRef x, .ofRef x]
  refine ⟨hd.held, hd.next x, ?_, ?_⟩
  · obtain ⟨y, g, hy⟩ := (hd.finish_iff {} (by decide) (by decide)).2 rfl
    refine ⟨y, g, hy, ?_⟩
    obtain ⟨rs, rfl, -, r, rfl, hfinishes, -⟩ := hd.finished {} g y hy
    exact Store.read_of_plain (x := .ok _) hfinishes.reads rfl
  · exact ⟨.sum, _, rfl, (hreached 1 _ rfl).2⟩

/-- After any attempts to add to a term that was begun, it holds the first of its slopes and the first
of its breakpoints. In which order the two sorts came makes no difference to anything. -/
theorem run_terms_filled (jobs : List Job) :
    (∀ (n : Nat) (f g : Factory) (q : Product),
      (Construction.beginTerm n).perform.run f = (.ok q, g) →
        let d : TermDraft := { declared := n }
        g = f ∧ q = .termDraft d ∧ (∀ os, TermDraft.Filled n os (d.offered os)) ∧
          ∀ os os' : List TermDraft.Offer,
            (∀ b, TermDraft.select b os = TermDraft.select b os') →
              (∀ b, (d.answers os).filter (·.1.isSlope == b) =
                (d.answers os').filter (·.1.isSlope == b)) ∧
              d.offered os = d.offered os' ∧
              ∀ (f : Factory) v, (Factory.finishTerm (d.offered os) v).run f =
                (Factory.finishTerm (d.offered os') v).run f) ∧
      ∀ (i : Nat) (d : TermDraft), (Workshop.run {} jobs).product? i = some (.termDraft d) →
        ∃ n f os, (Construction.beginTerm n).perform.run f =
          (.ok (.termDraft { declared := n }), f) ∧ d = .offered { declared := n } os := by
  refine ⟨?_, ?_⟩
  · intro n f g q h d
    obtain ⟨rfl, rfl⟩ := Construction.perform_beginTerm h
    refine ⟨rfl, rfl, TermDraft.filled n, ?_⟩
    intro os os' hsame
    have hslopes : d.slopes.size ≤ d.declaredSlopes := Nat.zero_le _
    have hbreakpoints : d.breakpoints.size ≤ d.declared := Nat.zero_le _
    have hoffered : d.offered os = d.offered os' := by
      rw [TermDraft.offered_eq hslopes hbreakpoints, TermDraft.offered_eq hslopes hbreakpoints]
      simp only [TermDraft.values, hsame]
    refine ⟨?_, hoffered, ?_⟩
    · intro b
      rw [TermDraft.answers_select hslopes hbreakpoints,
        TermDraft.answers_select hslopes hbreakpoints, hsame]
    · intro f v
      rw [hoffered]
  · intro i d hd
    have harises := run_arises jobs i _ hd
    cases harises with
    | @termDraft n f hbegun os => exact ⟨n, f, os, hbegun, rfl⟩

theorem run_terms_filled_sample :
    let d : TermDraft := { declared := 1 }
    let os : List TermDraft.Offer := [.slope ⟨1⟩, .breakpoint ⟨2⟩, .slope ⟨3⟩, .slope ⟨4⟩]
    let os' : List TermDraft.Offer := [.slope ⟨1⟩, .slope ⟨3⟩, .slope ⟨4⟩, .breakpoint ⟨2⟩]
    (d.offered os).slopes.toList = [⟨1⟩, ⟨3⟩] ∧ d.offered os = d.offered os' ∧
      (d.answers os').filter (·.1.isSlope == true) =
        [(.slope ⟨1⟩, .ok ()), (.slope ⟨3⟩, .ok ()), (.slope ⟨4⟩, .error (.overflow .slope))] ∧
      ∃ x g, (Factory.finishTerm (d.offered os) (.ofRef ⟨⟨0⟩, .decisionVariable⟩)).run {} =
        (.ok x, g) ∧ g.store.read x (.breakpoints rfl) = .ok #[⟨2⟩] := by
  intro d os os'
  obtain ⟨hbegun, -⟩ := run_terms_filled []
  obtain ⟨-, -, hfilled, hsame⟩ := hbegun 1 {} {} _ rfl
  have hos : ∀ b, TermDraft.select b os = TermDraft.select b os' := by
    rintro (_ | _) <;> rfl
  obtain ⟨hanswers, hoffered, -⟩ := hsame os os' hos
  have hd := hfilled os
  refine ⟨hd.slopes, hoffered, (hanswers true).symm.trans rfl, ?_⟩
  obtain ⟨x, g, hx⟩ := (hd.finish_iff {} (.ofRef ⟨⟨0⟩, .decisionVariable⟩) (by decide)
    (by decide)).2 ⟨by decide, by decide, rfl⟩
  obtain ⟨xs, ys, -, -, rfl, -, a, r, -, -, -, -, hys, -⟩ := hd.finished {} g _ x hx
  exact ⟨x, g, hx, hys⟩

end Workshop

end ModelExpr
