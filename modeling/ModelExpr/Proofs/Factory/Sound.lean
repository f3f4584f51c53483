import ModelExpr.Proofs.Factory.Plan
import ModelExpr.Proofs.Store.Typed

namespace ModelExpr

def Construction.Known (s : Store) : Construction Handle FunctionRef → Prop
  | .unary _ a => a.Known s
  | .binary _ a b | .relational _ a b => a.Known s ∧ b.Known s
  | .binaryLogical _ a b => a.Known s ∧ b.Known s
  | .logicalCount _ a b => a.Known s ∧ b.Known s
  | .negation a => a.Known s
  | .conditional c t e => c.Known s ∧ t.Known s ∧ e.Known s
  | .implication c t e => c.Known s ∧ t.Known s ∧ e.Known s
  | .beginCall f _ => f.Known s
  | .beginNumberOf _ x => x.Known s
  | _ => True

def Construction.node? : Construction Handle FunctionRef → Option PlainNode
  | .constant x => some ⟨.constant, .number x⟩
  | .decisionVariable i => some ⟨.decisionVariable, .decisionVariable i⟩
  | .logicalConstant b => some ⟨.logicalConstant, .truth b⟩
  | .unary k a => a.ref?.map fun r => ⟨k, .unary r⟩
  | .binary k a b | .relational k a b => do return ⟨k, .binary (← a.ref?) (← b.ref?)⟩
  | .binaryLogical k a b => do return ⟨k, .binary (← a.ref?) (← b.ref?)⟩
  | .logicalCount k a b => do return ⟨k, .binary (← a.ref?) (← b.ref?)⟩
  | .negation a => a.ref?.map fun r => ⟨.not, .unary r⟩
  | .conditional c t e => do return ⟨.conditional, .branching (← c.ref?) (← t.ref?) e.ref?⟩
  | .implication c t e => do return ⟨.implication, .branching (← c.ref?) (← t.ref?) e.ref?⟩
  | _ => none

def Product.Sound (s : Store) : Product → Prop
  | .handle h => h.Known s ∧ h.isNull = false
  | .function f => f.Known s
  | .draft d => d.Sound s
  | .termDraft d => d.Sound

structure Factory.Sound (f : Factory) : Prop where
  wellFormed : f.store.WellFormed
  known : ∀ name id, f.known? name = some id → FunctionRef.Known f.store ⟨id⟩

/-! ### Growth -/

section Growth

variable {s t : Store}

theorem Product.Sound.mono {p : Product} (hp : p.Sound s) (h : s.Extends t) : p.Sound t := by
  cases p with
  | handle x => exact ⟨hp.1.mono h, hp.2⟩
  | function f => exact FunctionRef.Known.mono hp h
  | draft d => exact Draft.Sound.mono hp h
  | termDraft d => exact hp

end Growth

/-! ### Nodes of known operands -/

namespace Store

variable {s : Store} {v w a b : View} {k : Kind} {x y c t : Ref}

theorem suits_of_known {n : Plain} (hshape : n.shape = k.shape)
    (hoperands : ∀ j r, n.operands[j]? = some r → (Handle.ofRef r : Handle (k.slot j)).Known s)
    (hterm : n.term? = none) (hlist : n.list? = none) : s.Suits s.kinds.size k n := by
  constructor
  · exact hshape
  · intro j r hj
    obtain ⟨haccepts, hholds⟩ := (hoperands j r hj).of_ofRef
    exact ⟨hholds.lt, hholds, haccepts⟩
  · intro xs ys r he
    rw [he] at hterm
    cases hterm
  · intro hk
    rw [hk] at hshape
    cases n <;> cases hshape
    cases hlist
  · intro f rs he
    rw [he] at hlist
    cases hlist

theorem suits_unary (hw : v.argument? = some w) (hk : v.accepts k = true)
    (hx : (Handle.ofRef x : Handle w).Known s) : s.Suits s.kinds.size k (.unary x) := by
  obtain ⟨hshape, hslot⟩ := View.argument_slot hw hk
  refine suits_of_known hshape.symm ?_ rfl rfl
  intro j r hj
  obtain _ | j := j <;> cases hj
  rw [hslot]
  exact hx

theorem suits_binary (hs : v.sides? = some (a, b)) (hk : v.accepts k = true)
    (hx : (Handle.ofRef x : Handle a).Known s) (hy : (Handle.ofRef y : Handle b).Known s) :
    s.Suits s.kinds.size k (.binary x y) := by
  obtain ⟨hshape, hleft, hright⟩ := View.sides_slot hs hk
  refine suits_of_known hshape.symm ?_ rfl rfl
  intro j r hj
  obtain _ | _ | j := j <;> cases hj
  · rw [hleft]
    exact hx
  · rw [hright]
    exact hy

theorem suits_branching {e : Handle w} (hw : v.branch? = some w) (hk : v.accepts k = true)
    (hc : (Handle.ofRef c : Handle .logical).Known s) (ht : (Handle.ofRef t : Handle w).Known s)
    (he : e.Known s) : s.Suits s.kinds.size k (.branching c t e.ref?) := by
  obtain ⟨hshape, hcondition, hbranch⟩ := View.branch_slot hw hk
  refine suits_of_known hshape.symm ?_ rfl rfl
  intro j r hj
  obtain _ | _ | j := j
  · cases hj
    rw [hcondition]
    exact hc
  · cases hj
    rw [hbranch 0]
    exact ht
  · obtain ⟨_ | z⟩ := e
    · cases hj
    · obtain _ | j := j <;> cases hj
      rw [hbranch 1]
      exact he

end Store

namespace Construction

variable {c : Construction Handle FunctionRef} {m : Nat} {v : View} {k : Kind} {p : Payload}

theorem plan_binary {w a b : View} {x : Handle a} {y : Handle b} {k' : Kind}
    (hw : w.sides? = some (a, b))
    (h : (do
      requireKind k' w.accepts
      return Plan.node w k' (.binary (← x.require) (← y.require))) = Except.ok (.node v k p)) :
    k' = k ∧ v.accepts k = true ∧ ∃ r t, x = .ofRef r ∧ y = .ofRef t ∧
      ∀ s : Store, s.inline p = .ok (.binary r t) ∧
        (x.Known s ∧ y.Known s → s.Suits s.kinds.size k (.binary r t)) := by
  obtain ⟨_, hk, h⟩ := bind_eq_ok.1 h
  obtain ⟨r, hx, h⟩ := bind_eq_ok.1 h
  obtain ⟨t, hy, h⟩ := bind_eq_ok.1 h
  obtain rfl := Handle.require_eq_ok.1 hx
  obtain rfl := Handle.require_eq_ok.1 hy
  cases h
  have haccepts := requireKind_eq_ok.1 hk
  refine ⟨rfl, haccepts, r, t, rfl, rfl, ?_⟩
  intro s
  refine ⟨rfl, ?_⟩
  rintro ⟨hx, hy⟩
  exact Store.suits_binary hw haccepts hx hy

theorem plan_branching {w a : View} {x : Handle .logical} {y z : Handle a} {k' : Kind}
    (hw : w.branch? = some a) (haccepts : w.accepts k' = true)
    (h : (do
      return Plan.node w k' (.branching (← x.require) (← y.require) z.ref?)) =
        Except.ok (.node v k p)) :
    k' = k ∧ v.accepts k = true ∧ ∃ r t, x = .ofRef r ∧ y = .ofRef t ∧
      ∀ s : Store, s.inline p = .ok (.branching r t z.ref?) ∧
        (x.Known s ∧ y.Known s ∧ z.Known s →
          s.Suits s.kinds.size k (.branching r t z.ref?)) := by
  obtain ⟨r, hx, h⟩ := bind_eq_ok.1 h
  obtain ⟨t, hy, h⟩ := bind_eq_ok.1 h
  obtain rfl := Handle.require_eq_ok.1 hx
  obtain rfl := Handle.require_eq_ok.1 hy
  cases h
  refine ⟨rfl, haccepts, r, t, rfl, rfl, ?_⟩
  intro s
  refine ⟨rfl, ?_⟩
  rintro ⟨hx, hy, hz⟩
  exact Store.suits_branching hw haccepts hx hy hz

theorem plan_node (h : c.plan m = .ok (.node v k p)) : v.accepts k = true ∧
    ∃ n, c.node? = some ⟨k, n⟩ ∧ ∀ s : Store, s.inline p = .ok n ∧
      (c.Known s → s.Suits s.kinds.size k n) := by
  cases c with
  | constant | decisionVariable | logicalConstant =>
    cases h
    refine ⟨rfl, _, rfl, ?_⟩
    intro s
    refine ⟨rfl, ?_⟩
    intro _
    apply Store.suits_of_known rfl _ rfl rfl
    intro j r hj
    cases hj
  | unary k a =>
    obtain ⟨_, hk, h⟩ := bind_eq_ok.1 h
    obtain ⟨x, ha, h⟩ := bind_eq_ok.1 h
    obtain rfl := Handle.require_eq_ok.1 ha
    cases h
    have hk := requireKind_eq_ok.1 hk
    refine ⟨hk, _, rfl, ?_⟩
    intro s
    exact ⟨rfl, Store.suits_unary (v := .unary) rfl hk⟩
  | negation a =>
    obtain ⟨x, ha, h⟩ := bind_eq_ok.1 h
    obtain rfl := Handle.require_eq_ok.1 ha
    cases h
    refine ⟨rfl, _, rfl, ?_⟩
    intro s
    exact ⟨rfl, Store.suits_unary (v := .negation) rfl rfl⟩
  | binary k a b =>
    obtain ⟨rfl, hk, r, t, rfl, rfl, hs⟩ := plan_binary (w := .binary) rfl h
    exact ⟨hk, _, rfl, hs⟩
  | relational k a b =>
    obtain ⟨rfl, hk, r, t, rfl, rfl, hs⟩ := plan_binary (w := .relational) rfl h
    exact ⟨hk, _, rfl, hs⟩
  | binaryLogical k a b =>
    obtain ⟨rfl, hk, r, t, rfl, rfl, hs⟩ := plan_binary (w := .binaryLogical) rfl h
    exact ⟨hk, _, rfl, hs⟩
  | logicalCount k a b =>
    obtain ⟨rfl, hk, r, t, rfl, rfl, hs⟩ := plan_binary (w := .logicalCount) rfl h
    exact ⟨hk, _, rfl, hs⟩
  | conditional c t e =>
    obtain ⟨rfl, hk, r, t, rfl, rfl, hs⟩ := plan_branching (w := .conditional) rfl rfl h
    exact ⟨hk, _, rfl, hs⟩
  | implication c t e =>
    obtain ⟨rfl, hk, r, t, rfl, rfl, hs⟩ := plan_branching (w := .implication) rfl rfl h
    exact ⟨hk, _, rfl, hs⟩
  | addFunction => cases h
  | _ =>
    obtain ⟨_, -, h⟩ := bind_eq_ok.1 h
    cases h

theorem plan_draft {s : Store} {q : Product} (h : c.plan s.functions.size = .ok (.draft q))
    (hc : c.Known s) : q.Sound s := by
  cases plan_opens h with
  | call f n hf hn =>
    constructor
    · rfl
    · intro r hr
      cases hr
    · intro he
      cases he
    · intro _
      exact hf
  | numberOf n r hleast hn =>
    constructor
    · rfl
    · intro r' hr'
      obtain rfl := List.mem_singleton.1 hr'
      exact hc
    · intro _ hnil
      cases hnil
    · intro he
      cases he
  | vararg k n hk hn | iteratedLogical k n hk hn =>
    apply Draft.Sound.empty
    · exact hk
    all_goals
      intro he
      subst he
      cases hk
  | sum n hn | count n hn | allDiff n hn => exact Draft.Sound.empty rfl (by decide) (by decide)
  | term n hleast hn => exact ⟨hleast, Nat.zero_le _, Nat.zero_le _⟩

end Construction

/-! ### Steps of a factory -/

namespace Store

variable {s t : Store} {k : Kind} {n : Plain}

theorem next_index (hroom : s.nodes.size < UInt32.size) : (s.next k).id.index = s.nodes.size :=
  Nat.mod_eq_of_lt hroom

theorem Adds.holds_next (h : s.Adds t k n) (hs : s.WellFormed) (hroom : s.nodes.size < UInt32.size) :
    t.Holds (s.next k) := by
  obtain ⟨u, p, hu, -, rfl⟩ := h
  rw [Holds, next_index hroom, ← hs.size_eq, ← hu.kinds_eq]
  exact Array.getElem?_push_size

end Store

namespace Factory

variable {f g : Factory}

structure Steps (f g : Factory) (y : Except Failure Product) : Prop where
  sound : g.Sound
  extends_store : f.store.Extends g.store
  product : ∀ p, y = .ok p → p.Sound g.store

theorem Steps.failed (hg : g.Sound) (h : f.store.Extends g.store) (e : Failure) :
    f.Steps g (.error e) := by
  refine ⟨hg, h, ?_⟩
  intro p hp
  cases hp

theorem Steps.answered {p : Product} (hg : g.Sound) (h : f.store.Extends g.store)
    (hp : p.Sound g.store) : f.Steps g (.ok p) := by
  refine ⟨hg, h, ?_⟩
  intro q hq
  cases hq
  exact hp

namespace Sound

theorem of_names_eq (hf : f.Sound) (hg : g.store.WellFormed) (h : f.store.Extends g.store)
    (hnames : g.names? = f.names?) : g.Sound := by
  refine ⟨hg, ?_⟩
  intro name id hid
  rw [known?, hnames] at hid
  exact (hf.known name id hid).mono h

theorem pads (hf : f.Sound) (h : f.Pads g) : g.Sound :=
  hf.of_names_eq (h.store.wellFormed hf.wellFormed) h.store.toExtends h.names_eq

theorem adds {v : View} {k : Kind} {n : Plain} (hf : f.Sound) (h : f.Adds g k n)
    (hv : v.accepts k = true) (hn : f.store.Suits f.store.kinds.size k n) :
    f.Steps g (.ok (.handle (.ofRef (f.store.next k) : Handle v))) := by
  have hext := h.store.toExtends
  apply Steps.answered
  · exact hf.of_names_eq (h.store.wellFormed hf.wellFormed hn) hext h.names_eq
  · exact hext
  · have hholds := h.store.holds_next hf.wellFormed h.room
    exact ⟨.ofRef hv hholds, rfl⟩

theorem known_pushFunction {s : Store} (name : String) (hroom : s.functions.size < UInt32.size) :
    FunctionRef.Known (s.pushFunction name) ⟨⟨s.functions.size.toUInt32⟩⟩ := by
  have hindex : s.functions.size.toUInt32.toNat = s.functions.size := Nat.mod_eq_of_lt hroom
  cases hvalid : (FunctionId.mk s.functions.size.toUInt32).isValid with
  | false =>
    left
    rw [FunctionRef.isNull, hvalid]
    rfl
  | true =>
    right
    refine ⟨hvalid, ?_⟩
    simp [FunctionId.index, hindex, Store.pushFunction]

theorem addFunction (hf : f.Sound) {name : String} {x : FunctionRef}
    (h : (addFunction name).run f = (.ok x, g)) : f.Steps g (.ok (.function x)) := by
  obtain ⟨hk, rfl⟩ | ⟨hroom, rfl, hstore, hnames⟩ := addFunction_ok h
  · exact .answered hf (.refl _) (hf.known name x.id hk)
  have hpads : f.store.Pads g.store := hstore ▸ Store.pads_pushFunction name
  have hnew := hstore ▸ known_pushFunction name hroom
  refine .answered ⟨hpads.wellFormed hf.wellFormed, ?_⟩ hpads.toExtends hnew
  intro name' id hid
  rw [known?, hnames] at hid
  cases hn : f.names? with
  | none => simp [hn] at hid
  | some names =>
    simp only [hn, Option.map_some, Option.bind_some, Std.HashMap.getElem?_insert] at hid
    split at hid
    · cases hid
      exact hnew
    · have hold : f.known? name' = some id := by
        rw [known?, hn]
        exact hid
      exact (hf.known name' id hold).mono hpads.toExtends

end Sound

theorem Sound.ofOptions {o : Options} (h : ofOptions o = .ok f) : f.Sound := by
  obtain rfl := ofOptions_eq h
  refine ⟨.empty, ?_⟩
  intro name id hid
  cases hr : o.reuseNames <;> simp [known?, hr] at hid

end Factory

theorem Construction.perform_steps {c : Construction Handle FunctionRef} {f g : Factory}
    {y : Except Failure Product} (hf : f.Sound) (hc : c.Known f.store)
    (h : c.perform.run f = (y, g)) : f.Steps g y := by
  cases y with
  | error e =>
    obtain rfl := perform_error h
    exact .failed hf (.refl _) e
  | ok q =>
    obtain ⟨p, hp, hmakes⟩ := perform_ok h
    cases p with
    | node v k p =>
      obtain ⟨rfl, hadds⟩ := hmakes
      obtain ⟨hv, n, -, hn⟩ := plan_node hp
      obtain ⟨hinline, hsuits⟩ := hn f.store
      exact hf.adds (hadds n hinline) hv (hsuits hc)
    | function name =>
      obtain ⟨x, rfl, hrun⟩ := hmakes
      exact hf.addFunction hrun
    | draft d =>
      obtain ⟨rfl, rfl⟩ := hmakes
      exact .answered hf (.refl _) (plan_draft hp hc)

namespace Factory

variable {f g : Factory}

theorem finish_steps {l : ListView} {d : Draft l} {y : Except Failure (Handle l.view)}
    (hf : f.Sound) (hd : d.Sound f.store) (h : (finish d).run f = (y, g)) :
    f.Steps g (y.map .handle) := by
  cases y with
  | error e =>
    have hpads := finish_error h
    exact .failed (hf.pads hpads) hpads.store.toExtends e
  | ok x =>
    obtain ⟨-, rfl, hadds⟩ := finish_ok h
    exact hf.adds hadds hd.kind hd.suits

theorem finishTerm_steps {d : TermDraft} {v : Handle .decisionVariable}
    {y : Except Failure (Handle .piecewiseLinear)} (hf : f.Sound) (hd : d.Sound)
    (hv : v.Known f.store) (h : (finishTerm d v).run f = (y, g)) : f.Steps g (y.map .handle) := by
  cases y with
  | error e =>
    have hpads := finishTerm_error h
    exact .failed (hf.pads hpads) hpads.store.toExtends e
  | ok x =>
    obtain ⟨hfull, rfl, r, hr, hadds⟩ := finishTerm_ok h
    obtain rfl := Handle.require_eq_ok.1 hr
    exact hf.adds hadds rfl (hd.suits hfull hv)

end Factory

def Call.Known (s : Store) : Call → Prop
  | .construct c => c.Known s
  | .finish d => d.Sound s
  | .finishTerm d x => d.Sound ∧ x.Known s

theorem Call.perform_steps {c : Call} {f g : Factory} {y : Except Failure Product} (hf : f.Sound)
    (hc : c.Known f.store) (h : c.perform.run f = (y, g)) : f.Steps g y := by
  cases c with
  | construct c => exact Construction.perform_steps hf hc h
  | finish d =>
    rw [perform, FactoryM.run_map] at h
    cases h
    exact Factory.finish_steps hf hc rfl
  | finishTerm d x =>
    rw [perform, FactoryM.run_map] at h
    cases h
    exact Factory.finishTerm_steps hf hc.1 hc.2 rfl

end ModelExpr
