import ModelExpr.Proofs.Factory.Effect

namespace ModelExpr

inductive Plan where
  | node (view : View) (kind : Kind) (payload : Payload)
  | function (name : String)
  | draft (product : Product)

def Construction.plan (functions : Nat) : Construction Handle FunctionRef → Except Rejection Plan
  | .constant x => return .node .numericConstant .constant (.number x)
  | .decisionVariable i => return .node .decisionVariable .decisionVariable (.decisionVariable i)
  | .logicalConstant b => return .node .logicalConstant .logicalConstant (.truth b)
  | .addFunction name => return .function name
  | .unary k a => do
    requireKind k Kind.isUnary
    return .node .unary k (.unary (← a.require))
  | .binary k a b => do
    requireKind k Kind.isBinary
    return .node .binary k (.binary (← a.require) (← b.require))
  | .relational k a b => do
    requireKind k Kind.isRelational
    return .node .relational k (.binary (← a.require) (← b.require))
  | .binaryLogical k a b => do
    requireKind k Kind.isBinaryLogical
    return .node .binaryLogical k (.binary (← a.require) (← b.require))
  | .logicalCount k a b => do
    requireKind k Kind.isLogicalCount
    return .node .logicalCount k (.binary (← a.require) (← b.require))
  | .negation a => return .node .negation .not (.unary (← a.require))
  | .conditional c t e => do
    return .node .conditional .conditional (.branching (← c.require) (← t.require) e.ref?)
  | .implication c t e => do
    return .node .implication .implication (.branching (← c.require) (← t.require) e.ref?)
  | .beginCall g n => return .draft (.draft (← Draft.call functions g n))
  | .beginVararg k n => return .draft (.draft (← Draft.vararg k n))
  | .beginSum n => return .draft (.draft (← Draft.sum n))
  | .beginNumberOf n x => return .draft (.draft (← Draft.numberOf n x))
  | .beginCount n => return .draft (.draft (← Draft.count n))
  | .beginIteratedLogical k n => return .draft (.draft (← Draft.iteratedLogical k n))
  | .beginAllDiff n => return .draft (.draft (← Draft.allDiff n))
  | .beginTerm n => return .draft (.termDraft (← TermDraft.ofBreakpoints n))

inductive Construction.Opens (functions : Nat) :
    Construction Handle FunctionRef → Product → Prop where
  | call (f : FunctionRef) (n : Nat) (hf : f.id.isValid = true ∧ f.id.index < functions)
    (hn : n < UInt32.size - 1) :
    Opens functions (.beginCall f n) (@Product.draft .call ⟨.call, f.id, n, #[]⟩)
  | vararg (k : Kind) (n : Nat) (hk : k.isVararg = true) (hn : n < UInt32.size - 1) :
    Opens functions (.beginVararg k n) (@Product.draft .vararg ⟨k, .invalid, n, #[]⟩)
  | sum (n : Nat) (hn : n < UInt32.size - 1) :
    Opens functions (.beginSum n) (@Product.draft .sum ⟨.sum, .invalid, n, #[]⟩)
  | numberOf (n : Nat) (r : Ref) (hleast : 1 ≤ n) (hn : n < UInt32.size - 1) :
    Opens functions (.beginNumberOf n (.ofRef r))
      (@Product.draft .numberOf ⟨.numberOf, .invalid, n, #[r]⟩)
  | count (n : Nat) (hn : n < UInt32.size - 1) :
    Opens functions (.beginCount n) (@Product.draft .count ⟨.count, .invalid, n, #[]⟩)
  | iteratedLogical (k : Kind) (n : Nat) (hk : k.isIteratedLogical = true)
    (hn : n < UInt32.size - 1) :
    Opens functions (.beginIteratedLogical k n)
      (@Product.draft .iteratedLogical ⟨k, .invalid, n, #[]⟩)
  | allDiff (n : Nat) (hn : n < UInt32.size - 1) :
    Opens functions (.beginAllDiff n) (@Product.draft .allDiff ⟨.allDiff, .invalid, n, #[]⟩)
  | term (n : Nat) (hleast : 1 ≤ n) (hn : n < UInt32.size - 1) :
    Opens functions (.beginTerm n) (.termDraft { declared := n })

theorem Construction.plan_opens {c : Construction Handle FunctionRef} {m : Nat} {q : Product}
    (h : c.plan m = .ok (.draft q)) : c.Opens m q := by
  cases c with
  | beginCall f n =>
    obtain ⟨d, hd, h⟩ := bind_eq_ok.1 h
    obtain ⟨_, hf, hd⟩ := bind_eq_ok.1 hd
    obtain ⟨_, hn, hd⟩ := bind_eq_ok.1 hd
    cases hd
    cases h
    exact .call f n (Draft.requireFunction_eq_ok.1 hf) (requireCount_eq_ok.1 hn).2
  | beginVararg k n =>
    obtain ⟨d, hd, h⟩ := bind_eq_ok.1 h
    obtain ⟨_, hk, hd⟩ := bind_eq_ok.1 hd
    obtain ⟨rfl, -, hn⟩ := Draft.ofKind_eq_ok hd
    cases h
    exact .vararg k n (requireKind_eq_ok.1 hk) hn
  | beginSum n =>
    obtain ⟨d, hd, h⟩ := bind_eq_ok.1 h
    obtain ⟨rfl, -, hn⟩ := Draft.ofKind_eq_ok hd
    cases h
    exact .sum n hn
  | beginNumberOf n x =>
    obtain ⟨d, hd, h⟩ := bind_eq_ok.1 h
    obtain ⟨d₀, h₀, hd⟩ := bind_eq_ok.1 hd
    obtain ⟨r, hr, hd⟩ := bind_eq_ok.1 hd
    obtain ⟨rfl, hleast, hn⟩ := Draft.ofKind_eq_ok h₀
    obtain rfl := Handle.require_eq_ok.1 hr
    cases hd
    cases h
    exact .numberOf n r hleast hn
  | beginCount n =>
    obtain ⟨d, hd, h⟩ := bind_eq_ok.1 h
    obtain ⟨rfl, -, hn⟩ := Draft.ofKind_eq_ok hd
    cases h
    exact .count n hn
  | beginIteratedLogical k n =>
    obtain ⟨d, hd, h⟩ := bind_eq_ok.1 h
    obtain ⟨_, hk, hd⟩ := bind_eq_ok.1 hd
    obtain ⟨rfl, -, hn⟩ := Draft.ofKind_eq_ok hd
    cases h
    exact .iteratedLogical k n (requireKind_eq_ok.1 hk) hn
  | beginAllDiff n =>
    obtain ⟨d, hd, h⟩ := bind_eq_ok.1 h
    obtain ⟨rfl, -, hn⟩ := Draft.ofKind_eq_ok hd
    cases h
    exact .allDiff n hn
  | beginTerm n =>
    obtain ⟨d, hd, h⟩ := bind_eq_ok.1 h
    obtain ⟨_, hn, hd⟩ := bind_eq_ok.1 hd
    obtain ⟨hleast, hn⟩ := requireCount_eq_ok.1 hn
    cases hd
    cases h
    exact .term n hleast hn
  | _ => simp [plan, bind_eq_ok, pure, Except.pure] at h

namespace Plan

def fulfil : Plan → FactoryM Product
  | .node v k p => .handle <$> Factory.create v k p
  | .function name => .function <$> Factory.addFunction name
  | .draft d => return d

def Makes (f g : Factory) : Plan → Product → Prop
  | .node v k p, y => y = .handle (.ofRef (f.store.next k) : Handle v) ∧
      ∀ n, f.store.inline p = .ok n → f.Adds g k n
  | .function name, y => ∃ x, y = .function x ∧ (Factory.addFunction name).run f = (.ok x, g)
  | .draft d, y => y = d ∧ g = f

variable {f g : Factory}

theorem fulfil_ok {p : Plan} {y : Product} (h : p.fulfil.run f = (.ok y, g)) : p.Makes f g y := by
  cases p with
  | node v k p =>
    obtain ⟨x, f₁, h₁, h⟩ := FactoryM.run_bind_ok h
    obtain ⟨r, f₂, h₂, h₁⟩ := FactoryM.run_bind_ok h₁
    cases h₁
    cases h
    obtain ⟨rfl, hadds⟩ := Factory.allocate_ok h₂
    exact ⟨rfl, hadds⟩
  | function name =>
    obtain ⟨x, f₁, h₁, h⟩ := FactoryM.run_bind_ok h
    cases h
    exact ⟨x, rfl, h₁⟩
  | draft d =>
    cases h
    exact ⟨rfl, rfl⟩

theorem fulfil_error {p : Plan} {e : Failure} (h : p.fulfil.run f = (.error e, g)) : g = f := by
  cases p with
  | node v k p =>
    obtain h | ⟨x, f₁, -, h⟩ := FactoryM.run_bind_error h
    · obtain h | ⟨r, f₂, -, h⟩ := FactoryM.run_bind_error h
      · exact Factory.allocate_error h
      · cases h
    · cases h
  | function name =>
    obtain h | ⟨x, f₁, -, h⟩ := FactoryM.run_bind_error h
    · exact Factory.addFunction_error h
    · cases h
  | draft d => cases h

end Plan

namespace Construction

theorem perform_run (c : Construction Handle FunctionRef) (f : Factory) :
    c.perform.run f = match c.plan f.store.functions.size with
      | .ok p => p.fulfil.run f
      | .error r => (.error (.rejected r), f) := by
  cases c with
  | constant | decisionVariable | logicalConstant | addFunction => rfl
  | unary k a =>
    simp only [perform, plan, Factory.unary]
    cases requireKind k Kind.isUnary <;> cases a.require <;> rfl
  | binary k a b =>
    simp only [perform, plan, Factory.binary]
    cases requireKind k Kind.isBinary <;> cases a.require <;> cases b.require <;> rfl
  | relational k a b =>
    simp only [perform, plan, Factory.relational]
    cases requireKind k Kind.isRelational <;> cases a.require <;> cases b.require <;> rfl
  | binaryLogical k a b =>
    simp only [perform, plan, Factory.binaryLogical]
    cases requireKind k Kind.isBinaryLogical <;> cases a.require <;> cases b.require <;> rfl
  | logicalCount k a b =>
    simp only [perform, plan, Factory.logicalCount]
    cases requireKind k Kind.isLogicalCount <;> cases a.require <;> cases b.require <;> rfl
  | negation a =>
    simp only [perform, plan, Factory.negation]
    cases a.require <;> rfl
  | conditional c t e =>
    simp only [perform, plan, Factory.conditional]
    cases c.require <;> cases t.require <;> rfl
  | implication c t e =>
    simp only [perform, plan, Factory.implication]
    cases c.require <;> cases t.require <;> rfl
  | beginCall g n =>
    simp only [perform, plan, FactoryM.run_bind, FactoryM.run_get]
    cases Draft.call f.store.functions.size g n <;> rfl
  | beginVararg k n =>
    simp only [perform, plan]
    cases Draft.vararg k n <;> rfl
  | beginSum n =>
    simp only [perform, plan]
    cases Draft.sum n <;> rfl
  | beginNumberOf n x =>
    simp only [perform, plan]
    cases Draft.numberOf n x <;> rfl
  | beginCount n =>
    simp only [perform, plan]
    cases Draft.count n <;> rfl
  | beginIteratedLogical k n =>
    simp only [perform, plan]
    cases Draft.iteratedLogical k n <;> rfl
  | beginAllDiff n =>
    simp only [perform, plan]
    cases Draft.allDiff n <;> rfl
  | beginTerm n =>
    simp only [perform, plan]
    cases TermDraft.ofBreakpoints n <;> rfl

variable {c : Construction Handle FunctionRef} {f g : Factory}

theorem perform_ok {y : Product} (h : c.perform.run f = (.ok y, g)) :
    ∃ p, c.plan f.store.functions.size = .ok p ∧ p.Makes f g y := by
  rw [perform_run] at h
  split at h
  · exact ⟨_, ‹_›, Plan.fulfil_ok h⟩
  · cases h

theorem perform_error {e : Failure} (h : c.perform.run f = (.error e, g)) : g = f := by
  rw [perform_run] at h
  split at h
  · exact Plan.fulfil_error h
  · cases h
    rfl

end Construction

end ModelExpr
