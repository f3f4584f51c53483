import ModelExpr.Proofs.Factory.Names
/-!
Aims: what a call is to make, said of what its operands and functions stand for and not of where they
are. As long as no list is full, a call goes the way its aim says, and so do any two calls of one aim,
whatever their factories.
-/

namespace ModelExpr

structure Outline (M : Type) where
  list : ListView
  kind : Kind
  callee : Option String := none
  declared : Nat
  operands : List M := []

inductive Meaning (M : Type) where
  | handle (view : View) (value : Option M)
  | function (name : Option String)
  | draft (outline : Outline M)
  | termDraft (draft : TermDraft)

inductive Aim (M : Type) where
  | node (view : View) (kind : Kind) (form : Form M)
  | function (name : String)
  | draft (meaning : Meaning M)

inductive Intent (M : Type) where
  | construct (construction : Construction (fun _ => Option M) (Option String))
  | finish (draft : Outline M)
  | finishTerm (draft : TermDraft) (argument : Option M)

/-! ### The aim of a call -/

section Aims

variable {M : Type}

def demand : Option M → Except Rejection M
  | some x => .ok x
  | none => .error (.invalidArgument .argument)

namespace Outline

def ofKind (l : ListView) (k : Kind) (n least : Nat) : Except Rejection (Outline M) := do
  requireCount .argument n least
  return { list := l, kind := k, declared := n }

def call (name : Option String) (n : Nat) : Except Rejection (Outline M) := do
  if name.isNone then throw (.invalidArgument .function)
  requireCount .argument n 0
  return { list := .call, kind := .call, callee := name, declared := n }

def numberOf (n : Nat) (x : Option M) : Except Rejection (Outline M) := do
  let d : Outline M ← ofKind .numberOf .numberOf n 1
  return { d with operands := [← demand x] }

def form (d : Outline M) : Form M :=
  if d.kind = .call then .call d.callee d.operands else .list d.operands

def aim (d : Outline M) : Except Rejection (Aim M) :=
  if d.operands.length < d.declared then .error (.underflow .argument)
  else .ok (.node d.list.view d.kind d.form)

end Outline

def TermDraft.aim (d : TermDraft) (x : Option M) : Except Rejection (Aim M) := do
  d.requireComplete
  let a ← demand x
  return .node .piecewiseLinear .piecewiseLinear
    (.piecewiseLinear d.slopes.toList d.breakpoints.toList a)

def Construction.aim :
    Construction (fun _ => Option M) (Option String) → Except Rejection (Aim M)
  | .constant x => return .node .numericConstant .constant (.number x)
  | .decisionVariable i => return .node .decisionVariable .decisionVariable (.decisionVariable i)
  | .logicalConstant b => return .node .logicalConstant .logicalConstant (.truth b)
  | .addFunction name => return .function name
  | .unary k a => do
    requireKind k Kind.isUnary
    return .node .unary k (.unary (← demand a))
  | .binary k a b => do
    requireKind k Kind.isBinary
    return .node .binary k (.binary (← demand a) (← demand b))
  | .relational k a b => do
    requireKind k Kind.isRelational
    return .node .relational k (.binary (← demand a) (← demand b))
  | .binaryLogical k a b => do
    requireKind k Kind.isBinaryLogical
    return .node .binaryLogical k (.binary (← demand a) (← demand b))
  | .logicalCount k a b => do
    requireKind k Kind.isLogicalCount
    return .node .logicalCount k (.binary (← demand a) (← demand b))
  | .negation a => return .node .negation .not (.unary (← demand a))
  | .conditional c t e =>
    return .node .conditional .conditional (.branching (← demand c) (← demand t) e)
  | .implication c t e =>
    return .node .implication .implication (.branching (← demand c) (← demand t) e)
  | .beginCall name n => return .draft (.draft (← Outline.call name n))
  | .beginVararg k n => do
    requireKind k Kind.isVararg
    return .draft (.draft (← Outline.ofKind .vararg k n 0))
  | .beginSum n => return .draft (.draft (← Outline.ofKind .sum .sum n 0))
  | .beginNumberOf n x => return .draft (.draft (← Outline.numberOf n x))
  | .beginCount n => return .draft (.draft (← Outline.ofKind .count .count n 0))
  | .beginIteratedLogical k n => do
    requireKind k Kind.isIteratedLogical
    return .draft (.draft (← Outline.ofKind .iteratedLogical k n 0))
  | .beginAllDiff n => return .draft (.draft (← Outline.ofKind .allDiff .allDiff n 0))
  | .beginTerm n => return .draft (.termDraft (← TermDraft.ofBreakpoints n))

def Intent.aim : Intent M → Except Rejection (Aim M)
  | .construct c => c.aim
  | .finish d => d.aim
  | .finishTerm d x => d.aim x

end Aims

/-! ### What is given and what comes of it -/

section Meanings

variable {M : Type} (s : Store) (μ : Ref → M)

def Draft.outline {l : ListView} (d : Draft l) : Outline M where
  list := l
  kind := d.kind
  callee := if d.kind = .call then s.name? ⟨d.function⟩ else none
  declared := d.declared
  operands := d.operands.toList.map μ

def Product.meaning : Product → Meaning M
  | @handle v h => .handle v (h.value μ)
  | .function f => .function (s.name? f)
  | .draft d => .draft (d.outline s μ)
  | .termDraft d => .termDraft d

def Construction.meaning (c : Construction Handle FunctionRef) :
    Construction (fun _ => Option M) (Option String) :=
  c.mapM (m := Id) (fun _ h => h.value μ) s.name?

def Call.meaning : Call → Intent M
  | .construct c => .construct (c.meaning s μ)
  | .finish d => .finish (d.outline s μ)
  | .finishTerm d x => .finishTerm d (x.value μ)

inductive Plan.Means : Except Rejection Plan → Except Rejection (Aim M) → Prop where
  | refused (r : Rejection) : Means (.error r) (.error r)
  | node (v : View) (k : Kind) (p : Payload) (n : Plain) (h : s.inline p = .ok n) :
    Means (.ok (.node v k p)) (.ok (.node v k (n.form μ s.name?)))
  | function (name : String) : Means (.ok (.function name)) (.ok (.function name))
  | draft (q : Product) (hq : q.function? = none) :
    Means (.ok (.draft q)) (.ok (.draft (q.meaning s μ)))

inductive Factory.Attains (f g : Factory) :
    Except Rejection (Aim M) → Except Failure Product → Prop where
  | refused (r : Rejection) (h : f.Stays g) : Attains f g (.error r) (.error (.rejected r))
  | laid (v : View) (k : Kind) (n : Plain) (form : Form M) (hform : n.form μ f.store.name? = form)
    (h : f.Lays g k n) :
    Attains f g (.ok (.node v k form)) (.ok (.handle (.ofRef (f.store.next k) : Handle v)))
  | known (name : String) (x : FunctionRef) (hx : f.known? name = some x.id) (hg : g = f) :
    Attains f g (.ok (.function name)) (.ok (.function x))
  | registered (name : String) (x : FunctionRef) (h : f.Registers g name x) :
    Attains f g (.ok (.function name)) (.ok (.function x))
  | drafted (q : Product) (m : Meaning M) (hq : q.function? = none)
    (hm : q.meaning f.store μ = m) (hg : g = f) : Attains f g (.ok (.draft m)) (.ok q)

end Meanings

section Plans

variable {M : Type} {s : Store} {μ : Ref → M}

theorem demand_value {v : View} (h : Handle v) :
    demand (h.value μ) = h.require.map μ := by
  obtain ⟨_ | r⟩ := h <;> rfl

theorem Draft.plain_form {l : ListView} (d : Draft l) :
    d.plain.form μ s.name? = (d.outline s μ).form := by
  unfold plain Outline.form outline
  dsimp only
  split <;> rfl

theorem Draft.means_ofKind {l : ListView} {k : Kind} {n least : Nat} (hk : k ≠ .call) :
    Plan.Means s μ (do return .draft (.draft (← (Draft.ofKind k n least : Except _ (Draft l)))))
      (do return .draft (.draft (← Outline.ofKind l k n least))) := by
  unfold ofKind Outline.ofKind
  cases requireCount .argument n least with
  | error r => exact .refused r
  | ok _ =>
    have hdraft := Plan.Means.draft (s := s) (μ := μ)
      (.draft ({ kind := k, function := .invalid, declared := n } : Draft l)) rfl
    simp only [Product.meaning, outline, if_neg hk] at hdraft
    exact hdraft

theorem Draft.means_category {l : ListView} {category : Kind → Bool} {k : Kind} {n least : Nat}
    (hcall : category .call = false) :
    Plan.Means s μ
      (do
        let d : Draft l ← (do
          requireKind k category
          Draft.ofKind k n least)
        return .draft (.draft d))
      (do
        requireKind k category
        return .draft (.draft (← Outline.ofKind l k n least))) := by
  by_cases hk : category k = true
  · rw [requireKind_eq_ok.2 hk]
    apply means_ofKind
    rintro rfl
    cases hcall.symm.trans hk
  · rw [requireKind, if_neg hk]
    exact .refused _

theorem Draft.means_call {f : FunctionRef} {n : Nat} (hf : f.Known s) :
    Plan.Means s μ (do return .draft (.draft (← Draft.call s.functions.size f n)))
      (do return .draft (.draft (← Outline.call (s.name? f) n))) := by
  unfold call Outline.call requireFunction
  obtain hnull | hregistered := hf
  · rw [if_pos (.inl hnull), Store.name?_null hnull]
    exact .refused _
  · obtain ⟨name, hname⟩ := hregistered.exists_name
    obtain ⟨hvalid, hlt⟩ := hregistered
    have hcallee : ¬(f.isNull = true ∨ s.functions.size ≤ f.id.index) := by
      rw [FunctionRef.isNull, hvalid]
      simpa using hlt
    rw [if_neg hcallee, hname]
    cases requireCount .argument n 0 with
    | error r => exact .refused r
    | ok _ =>
      have hdraft := Plan.Means.draft (s := s) (μ := μ)
        (.draft ({ kind := .call, function := f.id, declared := n } : Draft .call)) rfl
      simp only [Product.meaning, outline, if_pos, hname] at hdraft
      exact hdraft

theorem Draft.means_numberOf {n : Nat} {x : Handle .numeric} :
    Plan.Means s μ (do return .draft (.draft (← Draft.numberOf n x)))
      (do return .draft (.draft (← Outline.numberOf n (x.value μ)))) := by
  unfold numberOf Outline.numberOf ofKind Outline.ofKind
  cases requireCount .argument n 1 with
  | error r => exact .refused r
  | ok _ =>
    obtain ⟨_ | r⟩ := x
    · exact .refused _
    · exact .draft (.draft
        { kind := .numberOf, function := .invalid, declared := n, operands := #[r] }) rfl

theorem Plan.means_unary {v w : View} {category : Kind → Bool} {k : Kind} {x : Handle w} :
    Means s μ
      (do
        requireKind k category
        return .node v k (.unary (← x.require)))
      (do
        requireKind k category
        return .node v k (.unary (← demand (x.value μ)))) := by
  cases requireKind k category with
  | error r => exact .refused r
  | ok _ =>
    obtain ⟨_ | r⟩ := x
    · exact .refused _
    · exact .node _ _ _ (.unary r) rfl

theorem Plan.means_binary {v a b : View} {category : Kind → Bool} {k : Kind} {x : Handle a}
    {y : Handle b} :
    Means s μ
      (do
        requireKind k category
        return .node v k (.binary (← x.require) (← y.require)))
      (do
        requireKind k category
        return .node v k (.binary (← demand (x.value μ)) (← demand (y.value μ)))) := by
  cases requireKind k category with
  | error r => exact .refused r
  | ok _ =>
    obtain ⟨_ | r⟩ := x
    · exact .refused _
    · obtain ⟨_ | t⟩ := y
      · exact .refused _
      · exact .node _ _ _ (.binary r t) rfl

theorem Plan.means_branching {v w : View} {k : Kind} {x : Handle .logical} {y z : Handle w} :
    Means s μ (do return .node v k (.branching (← x.require) (← y.require) z.ref?))
      (do
        return .node v k
          (.branching (← demand (x.value μ)) (← demand (y.value μ)) (z.value μ))) := by
  obtain ⟨_ | r⟩ := x
  · exact .refused _
  · obtain ⟨_ | t⟩ := y
    · exact .refused _
    · exact .node _ _ _ (.branching r t z.ref?) rfl

theorem Construction.means_plan {c : Construction Handle FunctionRef} (hc : c.Known s) :
    Plan.Means s μ (c.plan s.functions.size) (c.meaning s μ).aim := by
  cases c with
  | constant x => exact .node _ _ _ (.number x) rfl
  | decisionVariable i => exact .node _ _ _ (.decisionVariable i) rfl
  | logicalConstant b => exact .node _ _ _ (.truth b) rfl
  | addFunction name => exact .function name
  | unary k a => exact Plan.means_unary
  | negation a =>
    obtain ⟨_ | r⟩ := a
    · exact .refused _
    · exact .node _ _ _ (.unary r) rfl
  | binary | relational | binaryLogical | logicalCount => exact Plan.means_binary
  | conditional | implication => exact Plan.means_branching
  | beginCall f n => exact Draft.means_call hc
  | beginNumberOf n x => exact Draft.means_numberOf
  | beginVararg | beginIteratedLogical => exact Draft.means_category rfl
  | beginSum | beginCount | beginAllDiff => exact Draft.means_ofKind (by decide)
  | beginTerm n =>
    simp only [plan, aim, meaning, mapM, pure, bind]
    cases TermDraft.ofBreakpoints n with
    | error r => exact .refused r
    | ok d => exact .draft (.termDraft d) rfl

end Plans

/-! ### What is given stays what it is -/

section Later

variable {M : Type} {s t : Store} {μ μ' : Ref → M}

theorem Handle.Known.value_eq {v : View} {h : Handle v} (hh : h.Known s)
    (hμ : ∀ r, s.Holds r → μ' r = μ r) : h.value μ' = h.value μ := by
  obtain ⟨_ | r⟩ := h
  · rfl
  · exact congrArg some (hμ r (of_ofRef hh).2)

theorem Draft.Sound.outline_eq {l : ListView} {d : Draft l} (hd : d.Sound s) (hext : s.Extends t)
    (hμ : ∀ r, s.Holds r → μ' r = μ r) : d.outline t μ' = d.outline s μ := by
  have hoperands : d.operands.toList.map μ' = d.operands.toList.map μ := by
    apply List.map_congr_left
    intro r hr
    exact hμ r (Handle.Known.of_ofRef (hd.operands r hr)).2
  have hcallee : (if d.kind = .call then t.name? ⟨d.function⟩ else none) =
      if d.kind = .call then s.name? ⟨d.function⟩ else none := by
    split
    case isTrue h => exact FunctionRef.Known.name?_eq (.inr (hd.callee h)) hext
    case isFalse => rfl
  rw [outline, outline, hoperands, hcallee]

theorem Product.Sound.meaning_eq {p : Product} (hp : p.Sound s) (hext : s.Extends t)
    (hμ : ∀ r, s.Holds r → μ' r = μ r) : p.meaning t μ' = p.meaning s μ := by
  cases p with
  | handle h => exact congrArg (Meaning.handle _) (Handle.Known.value_eq hp.1 hμ)
  | function f => exact congrArg Meaning.function (FunctionRef.Known.name?_eq hp hext)
  | draft d => exact congrArg Meaning.draft (Draft.Sound.outline_eq hp hext hμ)
  | termDraft d => rfl

end Later

/-! ### Calls attain their aims -/

section Calls

variable {M : Type} {μ : Ref → M} {f g : Factory}

theorem Construction.perform_attains {c : Construction Handle FunctionRef}
    {y : Except Failure Product} (hc : c.Known f.store) (hg : g.store.Bounded)
    (h : c.perform.run f = (y, g)) : f.Attains μ g (c.meaning f.store μ).aim y := by
  have hmeans := means_plan (μ := μ) hc
  rw [perform_run] at h
  generalize (c.meaning f.store μ).aim = aim at hmeans ⊢
  cases hp : c.plan f.store.functions.size with
  | error r =>
    rw [hp] at h hmeans
    cases hmeans
    cases h
    exact .refused r (.refl _)
  | ok p =>
    rw [hp] at h hmeans
    cases y with
    | error e => exact absurd hg (Plan.fulfil_overfull h).2
    | ok q =>
      cases hmeans with
      | node v k p n hn =>
        obtain ⟨hroom, rfl, rfl⟩ := Plan.fulfil_node.1 h
        obtain ⟨-, n', hn', hinline⟩ := plan_node hp
        cases hn.symm.trans (hinline f.store).1
        exact .laid v k n _ rfl ⟨(room_node? hn').2 hroom, lay_node? hn' hp, rfl⟩
      | function name =>
        obtain ⟨x, f₁, h₁, h⟩ := FactoryM.run_bind_ok h
        cases h
        obtain ⟨hx, rfl⟩ | hx := Factory.addFunction_registers h₁
        · exact .known name x hx rfl
        · exact .registered name x hx
      | draft q hq =>
        cases h
        exact .drafted q _ hq rfl rfl

theorem Factory.finish_attains {l : ListView} {d : Draft l} {y : Except Failure (Handle l.view)}
    (hg : g.store.Bounded) (h : (finish d).run f = (y, g)) :
    f.Attains μ g (d.outline f.store μ).aim (y.map .handle) := by
  have hsize : (d.outline f.store μ).operands.length = d.operands.size := by simp [Draft.outline]
  have haim : (d.outline f.store μ).aim = d.requireComplete.map fun _ =>
      .node l.view d.kind (d.plain.form μ f.store.name?) := by
    rw [Outline.aim, hsize, Draft.plain_form, Draft.requireComplete]
    change (if d.operands.size < d.declared then _ else _) = _
    split <;> rfl
  cases y with
  | error e =>
    obtain ⟨r, rfl, hr, hstays⟩ | ⟨-, hoverfull⟩ := finish_failed h
    · rw [haim, hr]
      exact .refused r hstays
    · exact absurd hg hoverfull.2
  | ok x =>
    obtain ⟨hcomplete, hroom, rfl, rfl⟩ := finish_eq_ok.1 h
    rw [haim, hcomplete]
    exact .laid l.view d.kind d.plain _ rfl ⟨hroom, rfl, rfl⟩

theorem Factory.finishTerm_attains {d : TermDraft} {x : Handle .decisionVariable}
    {y : Except Failure (Handle .piecewiseLinear)} (hg : g.store.Bounded)
    (h : (finishTerm d x).run f = (y, g)) :
    f.Attains μ g (d.aim (x.value μ)) (y.map .handle) := by
  have haim : d.aim (x.value μ) = (d.requireComplete >>= fun _ => x.require).map fun r =>
      .node .piecewiseLinear .piecewiseLinear ((d.plain r).form μ f.store.name?) := by
    rw [TermDraft.aim, demand_value]
    cases d.requireComplete <;> cases x.require <;> rfl
  cases y with
  | error e =>
    obtain ⟨r, rfl, hr, hstays⟩ | ⟨-, hoverfull⟩ := finishTerm_failed h
    · rw [haim, hr]
      exact .refused r hstays
    · exact absurd hg hoverfull.2
  | ok x =>
    obtain ⟨hcomplete, r, hr, hroom, rfl, rfl⟩ := finishTerm_eq_ok.1 h
    rw [haim, hcomplete, hr]
    exact .laid .piecewiseLinear .piecewiseLinear (d.plain r) _ rfl ⟨hroom, rfl, rfl⟩

theorem Call.perform_attains {c : Call} {y : Except Failure Product} (hc : c.Known f.store)
    (hg : g.store.Bounded) (h : c.perform.run f = (y, g)) :
    f.Attains μ g (c.meaning f.store μ).aim y := by
  cases c with
  | construct c => exact Construction.perform_attains hc hg h
  | finish d =>
    rw [perform, FactoryM.run_map] at h
    cases h
    exact Factory.finish_attains hg rfl
  | finishTerm d x =>
    rw [perform, FactoryM.run_map] at h
    cases h
    exact Factory.finishTerm_attains hg rfl

end Calls

end ModelExpr
