import ModelExpr.Proofs.Client.Steps
/-!
Requirements: what each operation asks of its arguments, in the order in which it asks. The first
requirement that is not met is the one that is reported, and an operation that meets all of them is
accepted where there is room.
-/

namespace ModelExpr

inductive Requirement where
  | kind (kind : Kind) (category : Kind → Bool)
  | operand {view : View} (handle : Handle view)
  | count (operand : Operand) (count least : Nat)
  | function (function : FunctionRef) (functions : Nat)
  | room (operand : Operand) (added declared : Nat)
  | full (operand : Operand) (added declared : Nat)

namespace Requirement

def Met : Requirement → Prop
  | .kind k category => category k = true
  | .operand h => h.isNull = false
  | .count _ n least => least ≤ n ∧ n < UInt32.size - 1
  | .function f functions => f.isNull = false ∧ f.id.index < functions
  | .room _ added declared => added < declared
  | .full _ added declared => declared ≤ added

instance : DecidablePred Met
  | .kind k category => inferInstanceAs (Decidable (category k = true))
  | .operand h => inferInstanceAs (Decidable (h.isNull = false))
  | .count _ n least => inferInstanceAs (Decidable (least ≤ n ∧ n < UInt32.size - 1))
  | .function f functions => inferInstanceAs (Decidable (f.isNull = false ∧ f.id.index < functions))
  | .room _ added declared => inferInstanceAs (Decidable (added < declared))
  | .full _ added declared => inferInstanceAs (Decidable (declared ≤ added))

def rejection : Requirement → Rejection
  | .kind k _ => .invalidKind k
  | .operand _ => .invalidArgument .argument
  | .count o n _ => .invalidCount o n
  | .function _ _ => .invalidArgument .function
  | .room o _ _ => .overflow o
  | .full o _ _ => .underflow o

def first? (qs : List Requirement) : Option Requirement := qs.find? fun q => ¬q.Met

/-- The outcome is the rejection of the first requirement that is not met, or else a success. -/
structure Governs {α : Type} (qs : List Requirement) (x : Except Rejection α) : Prop where
  rejected : ∀ q, first? qs = some q → x = .error q.rejection
  accepted : first? qs = none → ∃ a, x = .ok a

end Requirement

open Requirement

/-! ### What the operations ask -/

def Construction.requirements (functions : Nat) :
    Construction Handle FunctionRef → List Requirement
  | .constant _ | .decisionVariable _ | .logicalConstant _ | .addFunction _ => []
  | .unary k a => [.kind k Kind.isUnary, .operand a]
  | .binary k a b => [.kind k Kind.isBinary, .operand a, .operand b]
  | .relational k a b => [.kind k Kind.isRelational, .operand a, .operand b]
  | .binaryLogical k a b => [.kind k Kind.isBinaryLogical, .operand a, .operand b]
  | .logicalCount k a b => [.kind k Kind.isLogicalCount, .operand a, .operand b]
  | .negation a => [.operand a]
  | .conditional c t _ => [.operand c, .operand t]
  | .implication c t _ => [.operand c, .operand t]
  | .beginCall f n => [.function f functions, .count .argument n 0]
  | .beginVararg k n => [.kind k Kind.isVararg, .count .argument n 0]
  | .beginSum n | .beginCount n | .beginAllDiff n => [.count .argument n 0]
  | .beginNumberOf n x => [.count .argument n 1, .operand x]
  | .beginIteratedLogical k n => [.kind k Kind.isIteratedLogical, .count .argument n 0]
  | .beginTerm n => [.count .breakpoint n 1]

def Call.requirements (functions : Nat) : Call → List Requirement
  | .construct c => c.requirements functions
  | .finish d => [.full .argument d.operands.size d.declared]
  | .finishTerm d x =>
    [.full .breakpoint d.breakpoints.size d.declared, .full .slope d.slopes.size d.declaredSlopes,
      .operand x]

def Action.requirements? (p : Product) : Action Handle FunctionRef → Option (List Requirement)
  | @Action.add _ _ l _ x =>
    (p.draftOf? l).map fun d => [.operand x, .room .argument d.operands.size d.declared]
  | .addSlope _ _ =>
    match p with
    | .termDraft d => some [.room .slope d.slopes.size d.declaredSlopes]
    | _ => none
  | .addBreakpoint _ _ =>
    match p with
    | .termDraft d => some [.room .breakpoint d.breakpoints.size d.declared]
    | _ => none
  | _ => none

structure Call.HasRoom (c : Call) (s : Store) : Prop where
  node : ∀ n, c.node? = some n → s.Room n.content
  function : ∀ name, c = .construct (.addFunction name) → s.functions.size < UInt32.size

/-! ### Checks -/

namespace Requirement

variable {α β : Type} {q : Requirement} {qs rs : List Requirement}

theorem first?_eq_none : first? qs = none ↔ ∀ q ∈ qs, q.Met := by
  simp [first?]

theorem first?_append : first? (qs ++ rs) = (first? qs).or (first? rs) := List.find?_append

namespace Governs

variable {x : Except Rejection α} {k : α → Except Rejection β}

theorem nil (a : α) : Governs [] (pure a : Except Rejection α) := by
  constructor
  · intro q h
    cases h
  · intro _
    exact ⟨a, rfl⟩

theorem single (hmet : q.Met → ∃ a, x = .ok a) (hunmet : ¬q.Met → x = .error q.rejection) :
    Governs [q] x := by
  constructor
  · intro q' h
    have hq : ¬q.Met ∧ q = q' := by simpa [first?] using h
    obtain ⟨hq, rfl⟩ := hq
    exact hunmet hq
  · intro h
    exact hmet (first?_eq_none.1 h q (List.mem_singleton_self q))

theorem bind (hx : Governs qs x) (hk : ∀ a, x = .ok a → Governs rs (k a)) :
    Governs (qs ++ rs) (x >>= k) := by
  constructor
  · intro q h
    rw [first?_append] at h
    -- If one of `qs` is not met, `k` is never asked.
    cases hq : first? qs with
    | some q' =>
      rw [hq] at h
      obtain rfl := Option.some.inj h
      rw [hx.rejected q' hq]
      rfl
    | none =>
      rw [hq] at h
      obtain ⟨a, ha⟩ := hx.accepted hq
      rw [ha]
      exact (hk a ha).rejected q h
  · intro h
    rw [first?_append, Option.or_eq_none_iff] at h
    obtain ⟨a, ha⟩ := hx.accepted h.1
    rw [ha]
    exact (hk a ha).accepted h.2

theorem mem_of_error {r : Rejection} (hx : Governs qs x) (h : x = .error r) :
    ∃ q ∈ qs, r = q.rejection := by
  cases hq : first? qs with
  | none =>
    obtain ⟨a, ha⟩ := hx.accepted hq
    cases ha.symm.trans h
  | some q => exact ⟨q, List.mem_of_find?_eq_some hq, Except.error.inj (h.symm.trans (hx.rejected q hq))⟩

theorem last (hx : Governs qs x) (k : α → β) : Governs qs (do return k (← x)) := by
  have h := hx.bind fun a _ => nil (k a)
  rwa [List.append_nil] at h

end Governs

theorem governs_kind (k : Kind) (category : Kind → Bool) :
    Governs [.kind k category] (requireKind k category) := by
  apply Governs.single
  · intro h
    exact ⟨(), requireKind_eq_ok.2 h⟩
  · intro h
    exact if_neg h

theorem governs_operand {v : View} (h : Handle v) : Governs [.operand h] h.require := by
  obtain ⟨_ | r⟩ := h
  · exact Governs.single (fun h => by cases h) fun _ => rfl
  · exact Governs.single (fun _ => ⟨r, rfl⟩) fun h => absurd rfl h

theorem governs_count (o : Operand) (n least : Nat) :
    Governs [.count o n least] (requireCount o n least) := by
  apply Governs.single
  · intro h
    exact ⟨(), requireCount_eq_ok.2 h⟩
  · intro h
    apply if_pos
    simp only [Met] at h
    omega

theorem governs_function (f : FunctionRef) (functions : Nat) :
    Governs [.function f functions] (Draft.requireFunction functions f) := by
  unfold Draft.requireFunction
  apply Governs.single
  · rintro ⟨hnull, hlt⟩
    refine ⟨(), if_neg ?_⟩
    simp [hnull, hlt]
  · intro h
    apply if_pos
    simp only [Met, not_and, Nat.not_lt] at h
    cases hnull : f.isNull with
    | true => exact .inl rfl
    | false => exact .inr (h hnull)

end Requirement

/-! ### Constructions -/

theorem Draft.governs_ofKind {l : ListView} (k : Kind) (n least : Nat) :
    Governs [.count .argument n least] (ofKind k n least : Except Rejection (Draft l)) :=
  (governs_count .argument n least).last _

theorem Construction.governs_binary {a b : View} (v : View) (k : Kind) (category : Kind → Bool)
    (x : Handle a) (y : Handle b) :
    Governs [.kind k category, .operand x, .operand y] (do
      requireKind k category
      return Plan.node v k (.binary (← x.require) (← y.require))) :=
  (governs_kind k category).bind fun _ _ =>
    (governs_operand x).bind fun _ _ => (governs_operand y).last _

theorem Construction.governs_branching {a : View} (v : View) (k : Kind) (x : Handle .logical)
    (y z : Handle a) : Governs [.operand x, .operand y] (do
      return Plan.node v k (.branching (← x.require) (← y.require) z.ref?)) :=
  (governs_operand x).bind fun _ _ => (governs_operand y).last _

theorem Construction.plan_governed (c : Construction Handle FunctionRef) (m : Nat) :
    Governs (c.requirements m) (c.plan m) := by
  cases c with
  | constant | decisionVariable | logicalConstant | addFunction => exact .nil _
  | unary k a =>
    exact (governs_kind k _).bind fun _ _ => (governs_operand a).last _
  | binary k a b => exact governs_binary .binary k _ a b
  | relational k a b => exact governs_binary .relational k _ a b
  | binaryLogical k a b => exact governs_binary .binaryLogical k _ a b
  | logicalCount k a b => exact governs_binary .logicalCount k _ a b
  | negation a => exact (governs_operand a).last _
  | conditional c t e => exact governs_branching .conditional .conditional c t e
  | implication c t e => exact governs_branching .implication .implication c t e
  | beginCall f n =>
    exact ((governs_function f m).bind fun _ _ => (governs_count .argument n 0).last _).last _
  | beginVararg k n =>
    exact ((governs_kind k _).bind fun _ _ => Draft.governs_ofKind k n 0).last _
  | beginIteratedLogical k n =>
    exact ((governs_kind k _).bind fun _ _ => Draft.governs_ofKind k n 0).last _
  | beginSum n => exact (Draft.governs_ofKind .sum n 0).last _
  | beginCount n => exact (Draft.governs_ofKind .count n 0).last _
  | beginAllDiff n => exact (Draft.governs_ofKind .allDiff n 0).last _
  | beginNumberOf n x =>
    exact ((Draft.governs_ofKind .numberOf n 1).bind fun _ _ => (governs_operand x).last _).last _
  | beginTerm n => exact ((governs_count .breakpoint n 1).last _).last _

theorem Plan.fulfil_accepted {p : Plan} {c : Construction Handle FunctionRef} {f : Factory}
    (hp : c.plan f.store.functions.size = .ok p) (hroom : (Call.construct c).HasRoom f.store) :
    ∃ y g, p.fulfil.run f = (.ok y, g) := by
  cases p with
  | node v k p =>
    obtain ⟨-, n, hn, -⟩ := Construction.plan_node hp
    exact ⟨_, _, fulfil_node.2 ⟨(hroom.node _ hn).node, rfl, rfl⟩⟩
  | function name =>
    have hsize := hroom.function name (congrArg Call.construct (Construction.plan_function hp))
    have hadds : ∃ x g, (Factory.addFunction name).run f = (.ok x, g) := by
      rw [Factory.addFunction_run]
      split
      · exact ⟨_, _, rfl⟩
      · rw [Factory.register_run, if_pos hsize]
        exact ⟨_, _, rfl⟩
    obtain ⟨x, g, hx⟩ := hadds
    exact ⟨_, _, FactoryM.run_bind_eq_ok.2 ⟨x, g, hx, rfl⟩⟩
  | draft q => exact ⟨q, f, rfl⟩

/-! ### Ends of drafts -/

theorem Requirement.governs_full (o : Operand) (added declared : Nat) :
    Governs [.full o added declared]
      (if added < declared then .error (.underflow o) else .ok () : Except Rejection Unit) := by
  apply Governs.single
  · intro h
    exact ⟨(), if_neg (Nat.not_lt_of_le h)⟩
  · intro h
    exact if_pos (Nat.lt_of_not_le h)

theorem TermDraft.requireComplete_governed (d : TermDraft) :
    Governs [.full .breakpoint d.breakpoints.size d.declared,
      .full .slope d.slopes.size d.declaredSlopes] d.requireComplete := by
  have hsplit : d.requireComplete =
      (if d.breakpoints.size < d.declared then .error (.underflow .breakpoint) else .ok ()) >>=
        fun _ => if d.slopes.size < d.declaredSlopes then .error (.underflow .slope) else .ok () := by
    unfold requireComplete
    split <;> rfl
  rw [hsplit]
  exact (governs_full .breakpoint _ _).bind fun _ _ => governs_full .slope _ _

section Calls

variable {f : Factory} {r : Rejection}

theorem Factory.finish_refused {l : ListView} {d : Draft l} (h : d.requireComplete = .error r) :
    ∃ g, (finish d).run f = (.error (.rejected r), g) := by
  unfold finish
  rw [h]
  exact ⟨_, rfl⟩

theorem Factory.finishTerm_refused {d : TermDraft} {x : Handle .decisionVariable}
    (h : (d.requireComplete >>= fun _ => x.require) = .error r) :
    (finishTerm d x).run f = (.error (.rejected r), f) := by
  unfold finishTerm
  cases hd : d.requireComplete with
  | error e =>
    rw [hd] at h
    cases h
    rfl
  | ok _ =>
    rw [hd] at h
    change x.require = .error r at h
    rw [h]
    rfl

theorem Call.finishTerm_governed (d : TermDraft) (x : Handle .decisionVariable) (m : Nat) :
    Governs ((finishTerm d x).requirements m) (d.requireComplete >>= fun _ => x.require) :=
  d.requireComplete_governed.bind fun _ _ => governs_operand x

theorem Call.perform_governed (c : Call) (f : Factory) :
    (∀ q, first? (c.requirements f.store.functions.size) = some q →
      ∃ g, c.perform.run f = (.error (.rejected q.rejection), g)) ∧
        (first? (c.requirements f.store.functions.size) = none → c.HasRoom f.store →
          ∃ p g, c.perform.run f = (.ok p, g)) := by
  cases c with
  | construct c =>
    have hplan := c.plan_governed f.store.functions.size
    constructor
    · intro q hq
      refine ⟨f, (c.perform_run f).trans ?_⟩
      rw [hplan.rejected q hq]
    · intro hnone hroom
      obtain ⟨p, hp⟩ := hplan.accepted hnone
      obtain ⟨y, g, hy⟩ := Plan.fulfil_accepted hp hroom
      refine ⟨y, g, (c.perform_run f).trans ?_⟩
      rw [hp]
      exact hy
  | finish d =>
    have hcomplete : Governs ((Call.finish d).requirements f.store.functions.size)
        d.requireComplete :=
      governs_full .argument _ _
    constructor
    · intro q hq
      obtain ⟨g, hg⟩ := Factory.finish_refused (f := f) (hcomplete.rejected q hq)
      refine ⟨g, ?_⟩
      rw [perform, FactoryM.run_map, hg]
      rfl
    · intro hnone hroom
      obtain ⟨_, hd⟩ := hcomplete.accepted hnone
      have hrun := Factory.finish_eq_ok.2 ⟨hd, hroom.node _ rfl, rfl, rfl⟩
      exact ⟨_, _, FactoryM.run_bind_eq_ok.2 ⟨_, _, hrun, rfl⟩⟩
  | finishTerm d x =>
    have hcomplete := finishTerm_governed d x f.store.functions.size
    constructor
    · intro q hq
      refine ⟨f, ?_⟩
      rw [perform, FactoryM.run_map, Factory.finishTerm_refused (hcomplete.rejected q hq)]
      rfl
    · intro hnone hroom
      obtain ⟨r, hr⟩ := hcomplete.accepted hnone
      obtain ⟨_, hd, hx⟩ := bind_eq_ok.1 hr
      obtain rfl := Handle.require_eq_ok.1 hx
      have hrun := Factory.finishTerm_eq_ok.2 ⟨hd, r, hx, hroom.node _ rfl, rfl, rfl⟩
      exact ⟨_, _, FactoryM.run_bind_eq_ok.2 ⟨_, _, hrun, rfl⟩⟩

end Calls

/-! ### Additions -/

theorem Requirement.governs_room (o : Operand) {added declared : Nat} (h : added ≤ declared) :
    Governs [.room o added declared]
      (if added = declared then .error (.overflow o) else .ok () : Except Rejection Unit) := by
  apply Governs.single
  · intro hlt
    exact ⟨(), if_neg (Nat.ne_of_lt hlt)⟩
  · intro hfull
    exact if_pos (Nat.le_antisymm h (Nat.le_of_not_lt hfull))

theorem Draft.add_answer {l : ListView} (x : Handle l.element) (d : Draft l) :
    ((add x).run d).1 = (x.require >>= fun _ =>
      if d.operands.size = d.declared then .error (.overflow .argument) else .ok ()) := by
  rw [add_run]
  cases x.require with
  | error e => rfl
  | ok r =>
    change (if _ then _ else _ : Except Rejection Unit × Draft l).1 = if _ then _ else _
    split <;> rfl

theorem Action.isSome_requirements? (a : Action Handle FunctionRef) (p : Product) :
    (a.requirements? p).isSome = (a.change? p).isSome := by
  cases a with
  | add => simp [requirements?, change?]
  | addSlope | addBreakpoint => cases p <;> rfl
  | _ => rfl

theorem Action.change_governed {a : Action Handle FunctionRef} {p q : Product}
    {y : Except Rejection Unit} {qs : List Requirement} (hp : p.Within)
    (h : a.change? p = some (y, q)) (hqs : a.requirements? p = some qs) : Governs qs y := by
  cases changes_of_change? h with
  | @add l i x d d' y hrun =>
    obtain ⟨e, he, rfl⟩ := Option.map_eq_some_iff.1 hqs
    cases Product.draftOf?_eq_some he
    obtain ⟨rfl, -⟩ := Prod.ext_iff.1 hrun
    rw [Draft.add_answer]
    exact (governs_operand x).bind fun _ _ => governs_room .argument (Draft.Within.added hp)
  | addSlope hrun =>
    cases hqs
    obtain ⟨rfl, -⟩ := Prod.ext_iff.1 hrun
    rw [TermDraft.addSlope_run, apply_ite Prod.fst]
    exact governs_room .slope (TermDraft.Within.slopes hp)
  | addBreakpoint hrun =>
    cases hqs
    obtain ⟨rfl, -⟩ := Prod.ext_iff.1 hrun
    rw [TermDraft.addBreakpoint_run, apply_ite Prod.fst]
    exact governs_room .breakpoint (TermDraft.Within.breakpoints hp)

end ModelExpr
