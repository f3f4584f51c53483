import ModelExpr.Proofs.Traversal.Naming
import ModelExpr.Proofs.Workshop.Makers
import ModelExpr.Proofs.Workshop.Nodes
import ModelExpr.Proofs.Workshop.Tables
import ModelExpr.Traversal.Visitors

namespace ModelExpr

def Product.callee? : Product → Option FunctionRef
  | .draft d => if d.kind = .call then some ⟨d.function⟩ else none
  | _ => none

theorem Draft.function?_plain {l : ListView} (d : Draft l) :
    d.plain.function? = (Product.draft d).callee? := by
  by_cases hcall : d.kind = .call <;> simp [plain, Product.callee?, Plain.function?, hcall]

theorem Construction.function?_node? {c : Construction Handle FunctionRef} {n : PlainNode}
    (h : c.node? = some n) : n.content.function? = none := by
  obtain ⟨hlist, -⟩ := node?_flat h
  cases hn : n.content <;> rw [hn] at hlist <;> first | rfl | cases hlist

theorem Construction.registered_plan {c : Construction Handle FunctionRef} {s : Store} {q : Product}
    (h : c.plan s.functions.size = .ok (.draft q)) : ∀ f ∈ q.callee?, f.Registered s := by
  cases plan_opens h with
  | call f n hf hn =>
    rintro _ ⟨⟩
    exact hf
  | vararg k n hk hn | iteratedLogical k n hk hn =>
    intro f hf
    have hcall : k ≠ .call := by
      intro he
      subst he
      cases hk
    rw [Product.callee?, if_neg hcall] at hf
    cases hf
  | _ => rintro f ⟨⟩

theorem Action.callee?_change {a : Action Handle FunctionRef} {p q : Product}
    {y : Except Rejection Unit} (h : a.change? p = some (y, q)) : q.callee? = p.callee? := by
  cases changes_of_change? h with
  | @add l i x d d' y hrun =>
    obtain ⟨rs, hrs⟩ := Draft.exists_operands_add x d
    obtain rfl := (congrArg Prod.snd hrun).symm.trans hrs
    rfl
  | addSlope | addBreakpoint => rfl

namespace Workshop

variable {W : Workshop} {job : Job} {jobs : List Job} {ms : List Nat} {j : Nat} {f g : Factory}

def EndsOwn (j : Nat) (W : Workshop) (ms : List Nat) (job : Job) : Prop :=
  job.factory? = some j →
    ∀ k ∈ job.spends?, ∀ p ∈ W.product? k, p.callee? ≠ none → ms[k]? = some j

instance : Decidable (W.EndsOwn j ms job) :=
  inferInstanceAs (Decidable (_ → ∀ k ∈ job.spends?, ∀ p ∈ W.product? k, _ → _))

def Begun (_ : Nat) (g : Factory) (p : Product) : Prop := ∀ f ∈ p.callee?, f.Registered g.store

theorem Begun.perform (h : W.Tied Begun ms) (job : Job) :
    (W.perform job).2.Tied Begun (ms ++ (W.maker? job).toList) := by
  apply h.perform
  · intro i f g p hext hp x hx
    exact (hp x hx).mono hext
  · intro i a k j g p q y _ _ _ _ hp hq x hx
    rw [Action.callee?_change hq] at hx
    exact hp x hx
  · intro j f g c q _ hrun x hx
    cases Call.perform_ends hrun with
    | laid | known | registered => cases hx
    | drafted b q hb hq hg =>
      rw [hg]
      exact Construction.registered_plan hq x hx

structure Names (j : Nat) (W : Workshop) (ms : List Nat) : Prop where
  tied : W.Tied Begun ms
  registered : W.Nodewise (fun s _ n => ∀ f ∈ n.content.function?, f.Registered s) j

theorem EndsOwn.registered (hjob : W.EndsOwn j ms job) (h : W.Tied Begun ms) {c : Call}
    (hc : W.call? j job = some (f, c)) {n : PlainNode} (hn : c.node? = some n) :
    ∀ x ∈ n.content.function?, x.Registered f.store := by
  obtain ⟨a, rfl, hf, hcall⟩ := call?_eq_some hc
  intro x hx
  cases a with
  | construct b =>
    cases hcall
    rw [Construction.function?_node? hn] at hx
    cases hx
  | finish k =>
    simp only [Client.call?] at hcall
    split at hcall <;> cases hcall
    rename_i d hp
    cases hn
    rw [Draft.function?_plain] at hx
    obtain ⟨g, hg, hbegun⟩ := h.holds k j _ (hjob rfl k rfl _ hp (by rw [hx]; rintro ⟨⟩)) hp
    obtain rfl := Option.some.inj (hf.symm.trans hg)
    exact hbegun x hx
  | finishTerm k t =>
    simp only [Client.call?] at hcall
    split at hcall <;> cases hcall
    obtain ⟨r, -, hn⟩ := Option.map_eq_some_iff.1 hn
    cases hn
    cases hx
  | _ => cases hcall

theorem Names.perform (h : W.Names j ms) (hjob : W.EndsOwn j ms job) :
    (W.perform job).2.Names j (ms ++ (W.maker? job).toList) := by
  refine ⟨Begun.perform h.tied job, h.registered.perform ?_ ?_⟩
  · intro s t i n hext hn f hf
    exact (hn f hf).mono hext
  · intro f c n hc hn
    exact hjob.registered h.tied hc hn

theorem Names.run (h : Workshop.Always (EndsOwn j) {} [] jobs) :
    (Workshop.run {} jobs).Names j (Workshop.makers {} jobs) := by
  apply h.run (I := Names j)
  · intro W ms job hI hjob
    exact hI.perform hjob
  · exact ⟨.empty _, .empty _⟩

/-- The stored calls of a factory name registered functions exactly when it accepted no other call,
and so they do when it ends no call that was begun elsewhere. Then the function of every call can be
read and has a name, and every traversal may ask for the name at every function. -/
theorem run_callable (jobs : List Job) (hg : (Workshop.run {} jobs).factories[j]? = some g) :
    (g.store.Callable ↔
      ∀ n ∈ Workshop.laid {} j jobs, ∀ f ∈ n.content.function?, f.Registered g.store) ∧
    (Workshop.Always (EndsOwn j) {} [] jobs → g.store.Callable) ∧
    (g.store.Callable →
      (∀ r : Ref, g.store.kind? r.id = some .call → ∃ f name,
        g.store.read (.ofRef r : Handle .call) (.function rfl) = .ok f ∧
          g.store.functionName f = .ok name) ∧
      (∀ (h : Handle .call) (f : FunctionRef), g.store.read h (.function rfl) = .ok f →
        ∃ name, g.store.functionName f = .ok name) ∧
      ∀ {σ : Type} (V : Visitor σ) (e : Start) (h : Handle e.view) (a : σ),
        e.run (V.naming g.store) g.store h a = e.run V g.store h a) := by
  refine ⟨(run_spells jobs hg).callable_iff, ?_, ?_⟩
  · intro halways
    obtain ⟨ns, hns, hregistered⟩ := (Names.run halways).registered g hg
    refine hns.callable_iff.2 ?_
    intro n hn
    obtain ⟨i, hi⟩ := List.mem_iff_getElem?.1 hn
    exact hregistered i n hi
  · intro hcallable
    have hname (h : Handle .call) (f : FunctionRef) (hf : g.store.read h (.function rfl) = .ok f) :
        ∃ name, g.store.functionName f = .ok name := by
      cases hread : g.store.readFunction h with
      | error e =>
        rw [Store.read, hread] at hf
        cases hf
      | ok x =>
        rw [Store.read, hread] at hf
        cases hf
        exact hcallable.name hread
    refine ⟨?_, hname, ?_⟩
    · intro r hr
      obtain ⟨f, hf⟩ := Store.Shaped.readFunction (run_shaped jobs hg) hr
      obtain ⟨name, hn⟩ := hname _ f hf
      exact ⟨f, name, hf, hn⟩
    · intro σ V e h a
      exact Visitor.naming_start hcallable e h a

def homely : List Job :=
  [.equip {}, .equip {}, .act 0 (.construct (.addFunction "f")),
    .act 1 (.construct (.addFunction "g")), .act 1 (.construct (.beginCall ⟨⟨0⟩⟩ 0)),
    .act 0 (.construct (.beginSum 0)), .act 1 (.finish 3), .act 1 (.finish 2)]

theorem run_callable_homely : ∃ g, (Workshop.run {} homely).factories[1]? = some g ∧
    g.store.kinds = #[.sum, .call] ∧ g.store.Callable ∧
      Start.visitExpr.run ((Visitor.noting (fun _ => true) (fun _ => true)).naming g.store) g.store
        (.ofRef ⟨⟨1⟩, .call⟩) [] =
      Start.visitExpr.run (Visitor.noting (fun _ => true) (fun _ => true)) g.store
        (.ofRef ⟨⟨1⟩, .call⟩) [] := by
  obtain ⟨-, hends, hcalls⟩ := run_callable (j := 1) homely rfl
  have hcallable := hends (by decide)
  obtain ⟨-, -, hnaming⟩ := hcalls hcallable
  exact ⟨_, rfl, rfl, hcallable, hnaming _ .visitExpr _ _⟩

def strayed : List Job :=
  [.equip {}, .equip {}, .act 0 (.construct (.addFunction "f")),
    .act 0 (.construct (.beginCall ⟨⟨0⟩⟩ 0)), .act 1 (.finish 1)]

theorem strayed_call_unnamed : ∃ g, (Workshop.run {} strayed).factories[1]? = some g ∧
    Workshop.answers {} 1 strayed = [.ok (some (.handle (.ofRef ⟨⟨0⟩, .call⟩ : Handle .call)))] ∧
      ¬g.store.Callable ∧
        g.store.read (.ofRef ⟨⟨0⟩, .call⟩ : Handle .call) (.function rfl) = .ok ⟨⟨0⟩⟩ ∧
          g.store.functionName ⟨⟨0⟩⟩ = .error (.indexOutOfRange 0 0) ∧
            Start.visitExpr.run (Visitor.functions g.store) g.store (.ofRef ⟨⟨0⟩, .call⟩) #[] =
              .error (.indexOutOfRange 0 0) := by
  refine ⟨_, rfl, rfl, ?_, rfl, rfl, ?_⟩
  · intro hcallable
    exact Nat.not_lt_zero 0 (hcallable 0 _ _ rfl).2
  · refine (Visitor.visitExpr_ofRef _ _).trans ?_
    rw [Visitor.run_cons]
    rfl

end Workshop

end ModelExpr
