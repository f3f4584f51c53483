import ModelExpr.Proofs.Client.Given
import ModelExpr.Proofs.Traversal.Ending
import ModelExpr.Proofs.Workshop.Makers
import ModelExpr.Proofs.Workshop.Nodes

namespace ModelExpr

namespace Job

def refs : Job → List Ref
  | .equip _ => []
  | .act _ a => a.refs

def target? (ms : List Nat) : Job → Option Nat
  | .equip _ => none
  | .act i a =>
    match a.adds? with
    | some k => ms[k]?
    | none => some i

end Job

namespace Workshop

variable {W : Workshop} {job : Job} {jobs : List Job} {ms : List Nat} {j : Nat} {f g : Factory}

/-- Factory `j` is given only what it has: operands are among its nodes, and the drafts that it
finishes were begun on it. -/
def Heeds (j : Nat) (W : Workshop) (ms : List Nat) (job : Job) : Prop :=
  (job.target? ms = some j →
    ∀ f ∈ W.factories[j]?, ∀ r ∈ job.refs, r.id.index < f.store.nodes.size) ∧
  (job.factory? = some j → ∀ k ∈ job.spends?, ms[k]? = some j)

instance : Decidable (W.Heeds j ms job) :=
  inferInstanceAs (Decidable ((_ → _) ∧ (_ → _)))

def Inside (j i : Nat) (g : Factory) (p : Product) : Prop :=
  i = j → ∀ r ∈ p.refs, r.id.index < g.store.nodes.size

theorem Inside.change {i k : Nat} {a : Action Handle FunctionRef} {p q : Product}
    {y : Except Rejection Unit} (hp : Inside j j g p) (hg : W.factories[j]? = some g)
    (hjob : W.Heeds j ms (.act i a)) (hk : a.adds? = some k) (hj : ms[k]? = some j)
    (hq : a.change? p = some (y, q)) : Inside j j g q := by
  have htarget : (Job.act i a).target? ms = some j := by
    rw [Job.target?, hk]
    exact hj
  intro _ r hr
  obtain hr | hr := List.mem_append.1 (Action.refs_change hq r hr)
  · exact hp rfl r hr
  · exact hjob.1 htarget g hg r hr

theorem Heeds.precedes (hjob : W.Heeds j ms job) (h : W.Tied (Inside j) ms) {c : Call}
    (hc : W.call? j job = some (f, c)) {n : PlainNode} (hn : c.node? = some n) :
    n.content.Precedes f.store.nodes.size := by
  obtain ⟨a, rfl, hf, hcall⟩ := call?_eq_some hc
  cases a with
  | construct b =>
    cases hcall
    intro r hr
    rw [Construction.operands_node? hn] at hr
    exact hjob.1 rfl f hf r hr
  | finish k =>
    simp only [Client.call?] at hcall
    split at hcall <;> cases hcall
    cases hn
    intro r hr
    rw [Draft.operands_plain] at hr
    obtain ⟨g, hg, hinside⟩ := h.holds k j _ (hjob.2 rfl k rfl) ‹_›
    obtain rfl := Option.some.inj (hf.symm.trans hg)
    exact hinside rfl r hr
  | finishTerm k x =>
    simp only [Client.call?] at hcall
    split at hcall <;> cases hcall
    obtain ⟨t, ht, hn⟩ := Option.map_eq_some_iff.1 hn
    cases hn
    intro r hr
    obtain rfl := List.mem_singleton.1 hr
    exact hjob.1 rfl f hf r (Option.mem_toList.2 ht)
  | _ => cases hcall

theorem Heeds.made (hjob : W.Heeds j ms job) {c : Call} {q : Product}
    (hc : W.call? j job = some (f, c)) (hrun : c.perform.run f = (.ok q, g)) : Inside j j g q := by
  intro _ r hr
  cases Call.perform_ends hrun with
  | laid v k n hn hlays =>
    obtain rfl := List.mem_singleton.1 hr
    rw [Store.next_index hlays.room.node, hlays.store_eq, Store.lay, Array.size_push]
    exact Nat.lt_succ_self _
  | known name x | registered name x => cases hr
  | drafted b q hb hq hg =>
    subst hb hg
    obtain ⟨a, rfl, hf, hcall⟩ := call?_eq_some hc
    obtain rfl := Client.eq_construct hcall
    rw [Construction.refs_plan hq] at hr
    exact hjob.1 rfl g hf r hr

theorem Inside.perform (h : W.Tied (Inside j) ms) (hjob : W.Heeds j ms job) :
    (W.perform job).2.Tied (Inside j) (ms ++ (W.maker? job).toList) := by
  apply h.perform
  · intro i f g p hext hp hij r hr
    exact Nat.lt_of_lt_of_le (hp hij r hr) (Store.size_le_of_prefix hext.nodes)
  · rintro i a k _ g p q y rfl hk hj hg hp hq rfl
    exact Inside.change hp hg hjob hk hj hq rfl
  · rintro _ f g c q hc hrun rfl
    exact hjob.made hc hrun rfl

structure Orderly (j : Nat) (W : Workshop) (ms : List Nat) : Prop where
  tied : W.Tied (Inside j) ms
  ordered : W.Nodewise (fun _ i n => n.content.Precedes i) j

theorem Orderly.perform (h : W.Orderly j ms) (hjob : W.Heeds j ms job) :
    (W.perform job).2.Orderly j (ms ++ (W.maker? job).toList) := by
  refine ⟨Inside.perform h.tied hjob, h.ordered.perform ?_ ?_⟩
  · intro s t i n _ hn
    exact hn
  · intro f c n hc hn
    exact hjob.precedes h.tied hc hn

theorem Orderly.run (h : Workshop.Always (Heeds j) {} [] jobs) :
    (Workshop.run {} jobs).Orderly j (Workshop.makers {} jobs) := by
  apply h.run (I := Orderly j)
  · intro W ms job hI hjob
    exact hI.perform hjob
  · exact ⟨.empty _, .empty _⟩

/-- The operands of a factory come before their nodes exactly when it was asked for nothing else, and
they do when it is given only what it has, of which every handle that it made is a part. Then it has
no cycle, and without a cycle every traversal ends. -/
theorem run_ordered (jobs : List Job) (hg : (Workshop.run {} jobs).factories[j]? = some g) :
    (g.store.Ordered ↔ ∀ (i : Nat) (n : PlainNode), (Workshop.laid {} j jobs)[i]? = some n →
      n.content.Precedes i) ∧
    (Workshop.Always (Heeds j) {} [] jobs → g.store.Ordered ∧ ∀ (k : Nat) (p : Product),
      (Workshop.makers {} jobs)[k]? = some j → (Workshop.run {} jobs).product? k = some p →
        ∀ r ∈ p.refs, r.id.index < g.store.nodes.size) ∧
    (g.store.Ordered → g.store.Acyclic) ∧
    (g.store.Acyclic → ∀ {σ : Type} (V : Visitor σ), V.Ends → ∀ (e : Start) (h : Handle e.view)
      (a : σ), Ended (e.run V g.store h a)) := by
  refine ⟨(run_spells jobs hg).ordered_iff, ?_, Store.Ordered.acyclic, ?_⟩
  · intro halways
    have horderly := Orderly.run halways
    obtain ⟨ns, hns, hprecedes⟩ := horderly.ordered g hg
    refine ⟨hns.ordered_iff.2 hprecedes, ?_⟩
    intro k p hk hp
    obtain ⟨g', hg', hinside⟩ := horderly.tied.holds k j p hk hp
    obtain rfl := Option.some.inj (hg.symm.trans hg')
    exact hinside rfl
  · intro hacyclic σ V hV e h a
    exact hV.run hacyclic e h a

def shared : List Job :=
  [.equip {}, .equip {}, .act 0 (.construct (.decisionVariable 5)),
    .act 1 (.construct (.constant ⟨0⟩)),
    .act 1 (.construct (.unary .abs (.ofRef ⟨⟨0⟩, .decisionVariable⟩))),
    .act 1 (.construct (.beginSum 1)), .act 0 (.add (l := .sum) 3 (.ofRef ⟨⟨1⟩, .abs⟩)),
    .act 1 (.finish 3)]

theorem run_ordered_shared : ∃ g, (Workshop.run {} shared).factories[1]? = some g ∧
    g.store.nodes.size = 3 ∧ g.store.Ordered ∧ g.store.Acyclic ∧
      Ended (Start.visitExpr.run (Visitor.noting (fun _ => true) (fun _ => true)) g.store
        (.ofRef ⟨⟨2⟩, .sum⟩) []) := by
  obtain ⟨-, hheeds, hacyclic, hends⟩ := run_ordered (j := 1) shared rfl
  obtain ⟨hordered, -⟩ := hheeds (by decide)
  exact ⟨_, rfl, rfl, hordered, hacyclic hordered,
    hends (hacyclic hordered) _ (Visitor.noting_ends _ _) .visitExpr _ _⟩

def loop : List Job :=
  [.equip {}, .equip {}, .act 0 (.construct (.decisionVariable 0)),
    .act 1 (.construct (.unary .minus (.ofRef ⟨⟨0⟩, .decisionVariable⟩)))]

theorem foreign_operand_loops : ∃ g, (Workshop.run {} loop).factories[1]? = some g ∧
    Workshop.answers {} 1 loop = [.ok (some (.handle (.ofRef ⟨⟨0⟩, .minus⟩ : Handle .unary)))] ∧
      ¬g.store.Ordered ∧ ¬g.store.Acyclic ∧
        Start.visitExpr.run (Visitor.noting (fun _ => true) (fun _ => true)) g.store
          (.ofRef ⟨⟨0⟩, .minus⟩) [] = .error (.endless ⟨0⟩) := by
  have huses : (Store.mk #[.minus] #[.unary ⟨⟨0⟩, .decisionVariable⟩] #[] #[] #[]).Uses 0 0 :=
    ⟨_, _, rfl, rfl, _, List.mem_singleton_self _, rfl⟩
  refine ⟨_, rfl, rfl, ?_, ?_, ?_⟩
  · intro hordered
    exact Nat.lt_irrefl 0 (hordered 0 0 huses)
  · intro hacyclic
    exact hacyclic 0 (.single huses)
  · refine (Visitor.visitExpr_ofRef _ _).trans ?_
    rw [Visitor.run_cons]
    rfl

end Workshop

end ModelExpr
