import ModelExpr.Proofs.Factory.Sound
import ModelExpr.Proofs.Store.Layout
/-!
Exact effects: there are six ways in which a call on a factory can end. It is refused and changes no
list, it runs into a list that is full, it lays a node, it gives a function it knows or registers a
new one, or it gives a draft.
-/

namespace ModelExpr

structure Store.Bounded (s : Store) : Prop where
  nodes : s.nodes.size < UInt32.size - 1
  operands : s.operands.size < UInt32.size - 1
  numbers : s.numbers.size < UInt32.size - 1
  functions : s.functions.size < UInt32.size - 1

theorem Store.Bounded.anti {s t : Store} (ht : t.Bounded) (h : s.Extends t) : s.Bounded := by
  have hnodes := size_le_of_prefix h.nodes
  have hoperands := size_le_of_prefix h.operands
  have hnumbers := size_le_of_prefix h.numbers
  have hfunctions := size_le_of_prefix h.functions
  obtain ⟨h1, h2, h3, h4⟩ := ht
  constructor <;> omega

namespace FactoryM

variable {α β : Type} {m : FactoryM α} {k : α → FactoryM β} {f g : Factory} {y : β}

theorem run_bind_eq_ok : (m >>= k).run f = (.ok y, g) ↔
    ∃ x f', m.run f = (.ok x, f') ∧ (k x).run f' = (.ok y, g) := by
  constructor
  · exact run_bind_ok
  · rintro ⟨x, f', hm, hk⟩
    rw [run_bind, hm]
    exact hk

theorem run_lift_bind_eq_ok {x : Except Rejection α} :
    ((liftM x : FactoryM α) >>= k).run f = (.ok y, g) ↔
      ∃ a, x = .ok a ∧ (k a).run f = (.ok y, g) := by
  constructor
  · exact run_lift_bind_ok
  · rintro ⟨a, rfl, hk⟩
    exact hk

theorem run_lift_bind_failed {x : Except Rejection α} {e : Failure}
    (h : ((liftM x : FactoryM α) >>= k).run f = (.error e, g)) :
    (∃ r, x = .error r ∧ e = .rejected r ∧ g = f) ∨
      ∃ a, x = .ok a ∧ (k a).run f = (.error e, g) := by
  cases x with
  | ok a => exact .inr ⟨a, rfl, h⟩
  | error r =>
    cases h
    exact .inl ⟨r, rfl, rfl, rfl⟩

end FactoryM

namespace Factory

open FactoryM

def noting (f : Factory) (e : Event) : Factory := { f with log := f.log.push e }

def laid (f : Factory) (k : Kind) (n : Plain) : Factory :=
  noting { f with store := f.store.lay k n } (.allocated k (f.store.next k).id)

structure Stays (f g : Factory) : Prop where
  store_eq : g.store = f.store
  names_eq : g.names? = f.names?

structure Lays (f g : Factory) (k : Kind) (n : Plain) : Prop where
  room : f.store.Room n
  store_eq : g.store = f.store.lay k n
  names_eq : g.names? = f.names?

structure Registers (f g : Factory) (name : String) (x : FunctionRef) : Prop where
  unknown : f.known? name = none
  room : f.store.functions.size < UInt32.size
  ref_eq : x = ⟨⟨f.store.functions.size.toUInt32⟩⟩
  store_eq : g.store = f.store.pushFunction name
  names_eq : g.names? = f.names?.map (·.insert name x.id)

variable {f g h : Factory}

@[refl]
theorem Stays.refl (f : Factory) : f.Stays f := ⟨rfl, rfl⟩

theorem Lays.adds {k : Kind} {n : Plain} (h : f.Lays g k n) : f.Adds g k n :=
  ⟨h.store_eq ▸ Store.adds_lay h.room, h.names_eq, h.room.node⟩

theorem Registers.pads {name : String} {x : FunctionRef} (h : f.Registers g name x) :
    f.store.Pads g.store :=
  h.store_eq ▸ Store.pads_pushFunction name

/-! ### Allocation -/

theorem allocate_eq_ok {k : Kind} {p : Payload} {r : Ref} : (allocate k p).run f = (.ok r, g) ↔
    f.store.nodes.size < UInt32.size ∧ r = f.store.next k ∧
      g = noting { f with store := f.store.pushNode k p } (.allocated k (f.store.next k).id) := by
  rw [allocate_run]
  constructor
  · intro h
    split at h <;> cases h
    exact ⟨‹_›, rfl, rfl⟩
  · rintro ⟨hroom, rfl, rfl⟩
    rw [if_pos hroom]
    rfl

theorem allocateOperands_eq_ok {xs : Array Ref} {r : Span} :
    (allocateOperands xs).run f = (.ok r, g) ↔
      (xs.toList ≠ [] → f.store.operands.size < UInt32.size ∧ xs.size < UInt32.size) ∧
        r = f.store.operandSpan xs.toList ∧
          g = { f with store := f.store.appendOperands xs } := by
  rw [allocateOperands_run]
  by_cases hx : xs.isEmpty = true
  · obtain rfl := Array.isEmpty_iff.1 hx
    have hstore : f.store.appendOperands #[] = f.store := by simp [Store.appendOperands]
    rw [if_pos hx, hstore]
    constructor
    · intro h
      cases h
      exact ⟨fun hne => absurd rfl hne, rfl, rfl⟩
    · rintro ⟨-, rfl, rfl⟩
      rfl
  · have hspan : f.store.operandSpan xs.toList = .following f.store.operands.size xs.size := by
      rw [Store.operandSpan, Array.isEmpty_toList, if_neg hx, Array.length_toList]
    have hne : xs.toList ≠ [] := by
      intro h
      exact hx (Array.isEmpty_iff.2 (Array.toList_eq_nil_iff.1 h))
    rw [if_neg hx, hspan]
    constructor
    · intro h
      split at h
      case isTrue hm =>
        split at h <;> cases h
        exact ⟨fun _ => ⟨hm, ‹_›⟩, rfl, rfl⟩
      case isFalse => cases h
    · rintro ⟨hroom, rfl, rfl⟩
      obtain ⟨hm, hn⟩ := hroom hne
      rw [if_pos hm, if_pos hn]
      rfl

theorem allocateNumbers_eq_ok {xs : Array Binary64} {r : Span} :
    (allocateNumbers xs).run f = (.ok r, g) ↔
      (f.store.numbers.size < UInt32.size ∧ xs.size < UInt32.size) ∧
        r = .following f.store.numbers.size xs.size ∧
          g = { f with store := f.store.appendNumbers xs } := by
  rw [allocateNumbers_run]
  constructor
  · intro h
    split at h
    case isTrue hm =>
      split at h <;> cases h
      exact ⟨⟨hm, ‹_›⟩, rfl, rfl⟩
    case isFalse => cases h
  · rintro ⟨⟨hm, hn⟩, rfl, rfl⟩
    rw [if_pos hm, if_pos hn]
    rfl

/-! ### Ends of drafts -/

theorem lay_draft {s : Store} {l : ListView} (d : Draft l) :
    (s.appendOperands d.operands).pushNode d.kind
      (listPayload d (s.operandSpan d.operands.toList)) = s.lay d.kind d.plain := by
  unfold listPayload Draft.plain
  split <;> simp [Store.lay, Store.layout, Store.pushNode, Store.appendOperands, Plain.listed,
    Plain.list?, Plain.numbers]

theorem listed_plain {l : ListView} (d : Draft l) :
    d.plain.listed = d.operands.toList ∧ d.plain.numbers = [] := by
  unfold Draft.plain
  split <;> exact ⟨rfl, rfl⟩

theorem room_draft {s : Store} {l : ListView} {d : Draft l} : s.Room d.plain ↔
    s.nodes.size < UInt32.size ∧ (d.operands.toList ≠ [] →
      s.operands.size < UInt32.size ∧ d.operands.size < UInt32.size) := by
  have hlisted := (listed_plain d).1
  have hterm : ∀ xs ys r, d.plain ≠ .piecewiseLinear xs ys r := by
    intro xs ys r h
    unfold Draft.plain at h
    split at h <;> cases h
  constructor
  · intro h
    refine ⟨h.node, ?_⟩
    simpa only [hlisted, Array.length_toList] using h.operands
  · rintro ⟨hnode, hoperands⟩
    refine ⟨hnode, ?_, fun xs ys r h => absurd h (hterm xs ys r)⟩
    simpa only [hlisted, Array.length_toList] using hoperands

theorem finish_eq_ok {l : ListView} {d : Draft l} {x : Handle l.view} :
    (finish d).run f = (.ok x, g) ↔
      d.requireComplete = .ok () ∧ f.store.Room d.plain ∧ x = .ofRef (f.store.next d.kind) ∧
        g = (f.laid d.kind d.plain).noting
          (.finishedList d.kind (f.store.next d.kind).id d.added) := by
  rw [room_draft, finish]
  cases hd : d.requireComplete with
  | error e =>
    constructor
    · intro h
      cases h
    · rintro ⟨h, -⟩
      cases h
  | ok _ =>
    constructor
    · intro h
      obtain ⟨r, f₁, h₁, h⟩ := run_bind_ok h
      obtain ⟨hoperands, rfl, rfl⟩ := allocateOperands_eq_ok.1 h₁
      obtain ⟨a, f₂, h₂, h⟩ := run_bind_ok h
      obtain ⟨hnode, rfl, rfl⟩ := allocate_eq_ok.1 h₂
      cases h
      refine ⟨rfl, ⟨hnode, hoperands⟩, rfl, ?_⟩
      rw [laid, ← lay_draft]
      rfl
    · rintro ⟨-, ⟨hnode, hoperands⟩, rfl, rfl⟩
      refine run_bind_eq_ok.2 ⟨_, _, allocateOperands_eq_ok.2 ⟨hoperands, rfl, rfl⟩, ?_⟩
      refine run_bind_eq_ok.2 ⟨_, _, allocate_eq_ok.2 ⟨hnode, rfl, rfl⟩, ?_⟩
      rw [laid, ← lay_draft]
      rfl

theorem lay_term {s : Store} (d : TermDraft) (r : Ref) :
    ((s.appendNumbers d.slopes).appendNumbers d.breakpoints).pushNode .piecewiseLinear
      (.piecewiseLinear (.following s.numbers.size d.slopes.size)
        (.following (s.appendNumbers d.slopes).numbers.size d.breakpoints.size) r) =
      s.lay .piecewiseLinear (d.plain r) := by
  have hlists : (d.slopes.toList ++ d.breakpoints.toList).toArray = d.slopes ++ d.breakpoints := by
    simp [← Array.toList_append]
  simp [Store.lay, Store.layout, Store.pushNode, Store.appendNumbers, TermDraft.plain,
    Plain.listed, Plain.list?, Plain.numbers, hlists]

theorem room_term {s : Store} {d : TermDraft} {r : Ref} : s.Room (d.plain r) ↔
    s.nodes.size < UInt32.size ∧
      s.numbers.size + d.slopes.size < UInt32.size ∧ d.breakpoints.size < UInt32.size := by
  constructor
  · intro h
    exact ⟨h.node, h.numbers _ _ _ rfl⟩
  · rintro ⟨hnode, hnumbers⟩
    refine ⟨hnode, fun h => absurd rfl h, ?_⟩
    intro xs ys r' h
    cases h
    exact hnumbers

theorem finishTerm_eq_ok {d : TermDraft} {v : Handle .decisionVariable}
    {x : Handle .piecewiseLinear} : (finishTerm d v).run f = (.ok x, g) ↔
      d.requireComplete = .ok () ∧ ∃ r, v.require = .ok r ∧ f.store.Room (d.plain r) ∧
        x = .ofRef (f.store.next .piecewiseLinear) ∧
          g = (f.laid .piecewiseLinear (d.plain r)).noting
            (.finishedTerm (f.store.next .piecewiseLinear).id d.declared) := by
  have hsize : (f.store.appendNumbers d.slopes).numbers.size =
      f.store.numbers.size + d.slopes.size := Array.size_append
  simp only [room_term]
  constructor
  · intro h
    unfold finishTerm at h
    obtain ⟨_, hd, h⟩ := run_lift_bind_ok h
    obtain ⟨r, hr, h⟩ := run_lift_bind_ok h
    obtain ⟨slopes, f₁, h₁, h⟩ := run_bind_ok h
    obtain ⟨-, rfl, rfl⟩ := allocateNumbers_eq_ok.1 h₁
    obtain ⟨breakpoints, f₂, h₂, h⟩ := run_bind_ok h
    obtain ⟨hnumbers, rfl, rfl⟩ := allocateNumbers_eq_ok.1 h₂
    obtain ⟨a, f₃, h₃, h⟩ := run_bind_ok h
    obtain ⟨hnode, rfl, rfl⟩ := allocate_eq_ok.1 h₃
    cases h
    rw [hsize] at hnumbers
    refine ⟨hd, r, hr, ⟨hnode, hnumbers⟩, rfl, ?_⟩
    rw [laid, ← lay_term]
    rfl
  · rintro ⟨hd, r, hr, ⟨hnode, hslopes, hbreakpoints⟩, rfl, rfl⟩
    have hfirst : f.store.numbers.size < UInt32.size ∧ d.slopes.size < UInt32.size := by omega
    rw [← hsize] at hslopes
    refine run_lift_bind_eq_ok.2 ⟨_, hd, run_lift_bind_eq_ok.2 ⟨_, hr, ?_⟩⟩
    refine run_bind_eq_ok.2 ⟨_, _, allocateNumbers_eq_ok.2 ⟨hfirst, rfl, rfl⟩, ?_⟩
    refine run_bind_eq_ok.2 ⟨_, _, allocateNumbers_eq_ok.2 ⟨⟨hslopes, hbreakpoints⟩, rfl, rfl⟩, ?_⟩
    refine run_bind_eq_ok.2 ⟨_, _, allocate_eq_ok.2 ⟨hnode, rfl, rfl⟩, ?_⟩
    rw [laid, ← lay_term]
    rfl

/-! ### Refusals and faults -/

def Overfull (g : Factory) (e : Failure) : Prop := (∃ t, e = .faulty t) ∧ ¬g.store.Bounded

theorem allocate_overfull {k : Kind} {p : Payload} {e : Failure}
    (h : (allocate k p).run f = (.error e, g)) : g.Overfull e := by
  rw [allocate_run] at h
  split at h <;> cases h
  refine ⟨⟨_, rfl⟩, ?_⟩
  intro hbounded
  have hnodes := hbounded.nodes
  omega

theorem allocateOperands_overfull {xs : Array Ref} {e : Failure}
    (h : (allocateOperands xs).run f = (.error e, g)) : g.Overfull e := by
  rw [allocateOperands_run] at h
  split at h
  · cases h
  · split at h
    · split at h <;> cases h
      refine ⟨⟨_, rfl⟩, ?_⟩
      intro hbounded
      have hoperands := hbounded.operands
      simp only [Store.appendOperands, Array.size_append] at hoperands
      omega
    · cases h
      refine ⟨⟨_, rfl⟩, ?_⟩
      intro hbounded
      have hoperands := hbounded.operands
      omega

theorem allocateNumbers_overfull {xs : Array Binary64} {e : Failure}
    (h : (allocateNumbers xs).run f = (.error e, g)) : g.Overfull e := by
  rw [allocateNumbers_run] at h
  split at h
  · split at h <;> cases h
    refine ⟨⟨_, rfl⟩, ?_⟩
    intro hbounded
    have hnumbers := hbounded.numbers
    simp only [Store.appendNumbers, Array.size_append] at hnumbers
    omega
  · cases h
    refine ⟨⟨_, rfl⟩, ?_⟩
    intro hbounded
    have hnumbers := hbounded.numbers
    omega

theorem register_overfull {name : String} {e : Failure}
    (h : (register name).run f = (.error e, g)) : g.Overfull e := by
  rw [register_run] at h
  split at h <;> cases h
  refine ⟨⟨_, rfl⟩, ?_⟩
  intro hbounded
  have hfunctions := hbounded.functions
  omega

theorem finish_failed {l : ListView} {d : Draft l} {e : Failure}
    (h : (finish d).run f = (.error e, g)) :
    (∃ r, e = .rejected r ∧ d.requireComplete = .error r ∧ f.Stays g) ∨
      d.requireComplete = .ok () ∧ g.Overfull e := by
  unfold finish at h
  cases hd : d.requireComplete with
  | error r =>
    rw [hd] at h
    cases h
    left
    exact ⟨r, rfl, rfl, rfl, rfl⟩
  | ok _ =>
    rw [hd] at h
    right
    refine ⟨rfl, ?_⟩
    obtain h | ⟨span, f₁, -, h⟩ := run_bind_error h
    · exact allocateOperands_overfull h
    obtain h | ⟨a, f₂, -, h⟩ := run_bind_error h
    · exact allocate_overfull h
    · cases h

theorem finishTerm_failed {d : TermDraft} {v : Handle .decisionVariable} {e : Failure}
    (h : (finishTerm d v).run f = (.error e, g)) :
    (∃ r, e = .rejected r ∧ (d.requireComplete >>= fun _ => v.require) = .error r ∧ f.Stays g) ∨
      (∃ r, (d.requireComplete >>= fun _ => v.require) = .ok r) ∧ g.Overfull e := by
  unfold finishTerm at h
  obtain ⟨r, hd, rfl, rfl⟩ | ⟨_, hd, h⟩ := run_lift_bind_failed h
  · left
    exact ⟨r, rfl, by rw [hd]; rfl, .refl _⟩
  obtain ⟨r, hv, rfl, rfl⟩ | ⟨r, hv, h⟩ := run_lift_bind_failed h
  · left
    exact ⟨r, rfl, by rw [hd, hv]; rfl, .refl _⟩
  right
  refine ⟨⟨r, by rw [hd, hv]; rfl⟩, ?_⟩
  obtain h | ⟨slopes, f₁, -, h⟩ := run_bind_error h
  · exact allocateNumbers_overfull h
  obtain h | ⟨breakpoints, f₂, -, h⟩ := run_bind_error h
  · exact allocateNumbers_overfull h
  obtain h | ⟨a, f₃, -, h⟩ := run_bind_error h
  · exact allocate_overfull h
  · cases h

theorem addFunction_registers {name : String} {x : FunctionRef}
    (h : (addFunction name).run f = (.ok x, g)) :
    (f.known? name = some x.id ∧ g = f) ∨ f.Registers g name x := by
  rw [addFunction_run] at h
  split at h
  · cases h
    left
    exact ⟨‹_›, rfl⟩
  · rw [register_run] at h
    split at h <;> cases h
    right
    exact ⟨‹_›, ‹_›, rfl, rfl, rfl⟩

theorem addFunction_overfull {name : String} {e : Failure}
    (h : (addFunction name).run f = (.error e, g)) : g.Overfull e := by
  rw [addFunction_run] at h
  split at h
  · cases h
  · exact register_overfull h

end Factory

/-! ### Constructions -/

namespace Plan

open Factory

variable {f g : Factory}

theorem fulfil_node {v : View} {k : Kind} {p : Payload} {y : Product} :
    (node v k p).fulfil.run f = (.ok y, g) ↔ f.store.nodes.size < UInt32.size ∧
      y = .handle (.ofRef (f.store.next k) : Handle v) ∧
        g = noting { f with store := f.store.pushNode k p } (.allocated k (f.store.next k).id) := by
  constructor
  · intro h
    obtain ⟨x, f₁, h₁, h⟩ := FactoryM.run_bind_ok h
    obtain ⟨r, f₂, h₂, h₁⟩ := FactoryM.run_bind_ok h₁
    cases h₁
    cases h
    obtain ⟨hroom, rfl, rfl⟩ := allocate_eq_ok.1 h₂
    exact ⟨hroom, rfl, rfl⟩
  · rintro ⟨hroom, rfl, rfl⟩
    refine FactoryM.run_bind_eq_ok.2 ⟨_, _, ?_, rfl⟩
    exact FactoryM.run_bind_eq_ok.2 ⟨_, _, allocate_eq_ok.2 ⟨hroom, rfl, rfl⟩, rfl⟩

theorem fulfil_overfull {p : Plan} {e : Failure} (h : p.fulfil.run f = (.error e, g)) :
    g.Overfull e := by
  cases p with
  | node v k p =>
    obtain h | ⟨x, f₁, -, h⟩ := FactoryM.run_bind_error h
    · obtain h | ⟨r, f₂, -, h⟩ := FactoryM.run_bind_error h
      · exact allocate_overfull h
      · cases h
    · cases h
  | function name =>
    obtain h | ⟨x, f₁, -, h⟩ := FactoryM.run_bind_error h
    · exact addFunction_overfull h
    · cases h
  | draft d => cases h

end Plan

namespace Construction

open Factory

variable {c : Construction Handle FunctionRef} {f g : Factory} {m : Nat}

theorem node?_flat {n : PlainNode} (h : c.node? = some n) :
    n.content.list? = none ∧ n.content.term? = none := by
  cases c with
  | unary | negation =>
    obtain ⟨r, -, rfl⟩ := Option.map_eq_some_iff.1 h
    exact ⟨rfl, rfl⟩
  | binary | relational | binaryLogical | logicalCount | conditional | implication =>
    obtain ⟨a, -, h⟩ := Option.bind_eq_some_iff.1 h
    obtain ⟨b, -, h⟩ := Option.bind_eq_some_iff.1 h
    cases h
    exact ⟨rfl, rfl⟩
  | _ => cases h <;> exact ⟨rfl, rfl⟩

theorem lay_node? {s : Store} {v : View} {k : Kind} {p : Payload} {n : Plain}
    (h : c.node? = some ⟨k, n⟩) (hp : c.plan m = .ok (.node v k p)) :
    s.pushNode k p = s.lay k n := by
  obtain ⟨hlist, hterm⟩ := node?_flat h
  obtain ⟨-, n', hn', hinline⟩ := plan_node hp
  cases h.symm.trans hn'
  rw [Store.lay_eq_pushNode hlist hterm, Store.layout_of_inline (hinline s).1 hlist hterm]

theorem room_node? {s : Store} {n : PlainNode} (h : c.node? = some n) :
    s.Room n.content ↔ s.nodes.size < UInt32.size := by
  obtain ⟨hlist, hterm⟩ := node?_flat h
  constructor
  · intro hroom
    exact hroom.node
  · intro hroom
    refine ⟨hroom, fun hne => absurd (Plain.listed_eq_nil hlist) hne, ?_⟩
    intro xs ys r hn
    rw [hn] at hterm
    cases hterm

theorem plan_function {name : String} (h : c.plan m = .ok (.function name)) :
    c = .addFunction name := by
  cases c with
  | addFunction =>
    cases h
    rfl
  | _ => simp [plan, bind_eq_ok, pure, Except.pure] at h

end Construction

def Call.node? : Call → Option PlainNode
  | .construct c => c.node?
  | .finish d => some ⟨d.kind, d.plain⟩
  | .finishTerm d x => x.ref?.map fun r => ⟨.piecewiseLinear, d.plain r⟩

/-- The ways in which a call can end. -/
inductive Call.Ends (c : Call) (f g : Factory) : Except Failure Product → Prop where
  | refused (r : Rejection) (h : f.Stays g) : Ends c f g (.error (.rejected r))
  | overfull (e : Failure) (h : g.Overfull e) (hpads : f.Pads g) : Ends c f g (.error e)
  | laid (v : View) (k : Kind) (n : Plain) (hn : c.node? = some ⟨k, n⟩) (h : f.Lays g k n) :
    Ends c f g (.ok (.handle (.ofRef (f.store.next k) : Handle v)))
  | known (name : String) (x : FunctionRef) (hc : c = .construct (.addFunction name))
    (hx : f.known? name = some x.id) (hg : g = f) : Ends c f g (.ok (.function x))
  | registered (name : String) (x : FunctionRef) (hc : c = .construct (.addFunction name))
    (h : f.Registers g name x) : Ends c f g (.ok (.function x))
  | drafted (b : Construction Handle FunctionRef) (q : Product) (hc : c = .construct b)
    (hq : b.plan f.store.functions.size = .ok (.draft q)) (hg : g = f) : Ends c f g (.ok q)

theorem Construction.perform_ends {c : Construction Handle FunctionRef} {f g : Factory}
    {y : Except Failure Product} (h : c.perform.run f = (y, g)) :
    (Call.construct c).Ends f g y := by
  rw [perform_run] at h
  split at h
  case h_2 r _ =>
    cases h
    exact .refused r (.refl _)
  case h_1 p hp =>
    cases y with
    | error e =>
      have hpads : f.Pads g := Plan.fulfil_error h ▸ .refl f
      exact .overfull e (Plan.fulfil_overfull h) hpads
    | ok q =>
      cases p with
      | node v k p =>
        obtain ⟨hroom, rfl, rfl⟩ := Plan.fulfil_node.1 h
        obtain ⟨-, n, hn, -⟩ := plan_node hp
        exact .laid v k n hn ⟨(room_node? hn).2 hroom, lay_node? hn hp, rfl⟩
      | function name =>
        obtain ⟨x, f₁, h₁, h⟩ := FactoryM.run_bind_ok h
        cases h
        obtain rfl := plan_function hp
        obtain ⟨hx, rfl⟩ | hx := Factory.addFunction_registers h₁
        · exact .known name x rfl hx rfl
        · exact .registered name x rfl hx
      | draft q =>
        cases h
        exact .drafted c q rfl hp rfl

theorem Call.perform_ends {c : Call} {f g : Factory} {y : Except Failure Product}
    (h : c.perform.run f = (y, g)) : c.Ends f g y := by
  cases c with
  | construct c => exact Construction.perform_ends h
  | finish d =>
    rw [perform, FactoryM.run_map] at h
    cases hrun : (Factory.finish d).run f with
    | mk z g' =>
      rw [hrun] at h
      cases h
      cases z with
      | error e =>
        obtain ⟨r, rfl, -, hstays⟩ | ⟨-, hoverfull⟩ := Factory.finish_failed hrun
        · exact .refused r hstays
        · exact .overfull e hoverfull (Factory.finish_error hrun)
      | ok x =>
        obtain ⟨-, hroom, rfl, rfl⟩ := Factory.finish_eq_ok.1 hrun
        exact .laid _ d.kind d.plain rfl ⟨hroom, rfl, rfl⟩
  | finishTerm d v =>
    rw [perform, FactoryM.run_map] at h
    cases hrun : (Factory.finishTerm d v).run f with
    | mk z g' =>
      rw [hrun] at h
      cases h
      cases z with
      | error e =>
        obtain ⟨r, rfl, -, hstays⟩ | ⟨-, hoverfull⟩ := Factory.finishTerm_failed hrun
        · exact .refused r hstays
        · exact .overfull e hoverfull (Factory.finishTerm_error hrun)
      | ok x =>
        obtain ⟨-, r, hr, hroom, rfl, rfl⟩ := Factory.finishTerm_eq_ok.1 hrun
        obtain rfl := Handle.require_eq_ok.1 hr
        exact .laid _ .piecewiseLinear (d.plain r) rfl ⟨hroom, rfl, rfl⟩

theorem Call.Ends.extends_store {c : Call} {f g : Factory} {y : Except Failure Product}
    (h : c.Ends f g y) : f.store.Extends g.store := by
  cases h with
  | refused r h => exact h.store_eq ▸ .refl _
  | overfull e h hpads => exact hpads.store.toExtends
  | laid v k n hn h => exact h.adds.store.toExtends
  | known name x hc hx hg => exact hg ▸ .refl _
  | registered name x hc h => exact h.pads.toExtends
  | drafted b q hc hq hg => exact hg ▸ .refl _

end ModelExpr
