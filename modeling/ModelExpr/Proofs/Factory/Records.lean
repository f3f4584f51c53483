import ModelExpr.Proofs.Factory.Reports
import ModelExpr.Proofs.Factory.Requirement
import ModelExpr.Proofs.Factory.Shape
/-!
Records: the log of a factory says what its store holds. It has one allocation for each node and one
registration for each function, in order, and the end of a draft right after its allocation.
-/

namespace ModelExpr

namespace Event

def allocation? : Event → Option Ref
  | .allocated k i => some ⟨i, k⟩
  | _ => none

def registration? : Event → Option (String × FunctionId)
  | .registered name i => some (name, i)
  | _ => none

def finishes : Event → Bool
  | .finishedList _ _ _ | .finishedTerm _ _ => true
  | _ => false

def rejects : Event → Bool
  | .rejectedList _ _ _ => true
  | _ => false

def Follow (next? : Event → Option Event) (due? : Option Event) : List Event → Prop
  | [] => due? = none
  | e :: es => (if e.finishes then some e else none) = due? ∧ Follow next? (next? e) es

variable {next? : Event → Option Event} {due? : Option Event} {es ts : List Event}

theorem Follow.append (h : Follow next? due? es) (ht : Follow next? none ts) :
    Follow next? due? (es ++ ts) := by
  induction es generalizing due? with
  | nil =>
    have hnone : due? = none := h
    rw [hnone]
    exact ht
  | cons e es ih => exact ⟨h.1, ih h.2⟩

theorem Follow.congr {other? : Event → Option Event} (h : Follow next? due? es)
    (hsame : ∀ e ∈ es, other? e = next? e) : Follow other? due? es := by
  induction es generalizing due? with
  | nil => exact h
  | cons e es ih =>
    refine ⟨h.1, ?_⟩
    rw [hsame e (List.mem_cons_self ..)]
    exact ih h.2 fun e' he' => hsame e' (List.mem_cons_of_mem e he')

end Event

namespace Store

def registrations (s : Store) : List (String × FunctionId) :=
  s.functions.toList.zipIdx.map fun (name, i) => (name, ⟨i.toUInt32⟩)

def ending? (s : Store) (e : Event) : Option Event := do
  let r ← e.allocation?
  (← s.plain? r.id.index).ending? r

structure Records (s : Store) (log : List Event) : Prop where
  allocations : log.filterMap Event.allocation? = s.refs
  registrations : log.filterMap Event.registration? = s.registrations
  endings : Event.Follow s.ending? none log

structure Numbered (s : Store) : Prop where
  nodes : s.refs.map (·.id.index) = List.range s.kinds.size
  functions : s.registrations.map (·.2.index) = List.range s.functions.size

def Legible (s : Store) : Prop :=
  ∀ r ∈ s.refs, ∃ n, s.plain? r.id.index = some n ∧ n.shape = r.kind.shape

structure Tells (s : Store) (r : Ref) : Prop where
  list : r.kind.isIterated = true → ∃ n, s.argumentCount r = .ok n ∧
    s.ending? (.allocated r.kind r.id) = some (.finishedList r.kind r.id n)
  term : ∀ h : View.specific r.kind = .piecewiseLinear, ∃ n : Nat,
    s.read (.ofRef r) (.breakpointCount h) = .ok n ∧
      s.ending? (.allocated r.kind r.id) = some (.finishedTerm r.id n)
  other : r.kind.isIterated = false → r.kind ≠ .piecewiseLinear →
    s.ending? (.allocated r.kind r.id) = none

variable {s t : Store} {log es : List Event} {k : Kind} {n : Plain}

theorem ending?_extends (h : s.Extends t) (hs : s.Legible) (hlog : s.Records log) {e : Event}
    (he : e ∈ log) : t.ending? e = s.ending? e := by
  unfold ending?
  cases hr : e.allocation? with
  | none => rfl
  | some r =>
    have hmem : r ∈ s.refs := by
      rw [← hlog.allocations]
      exact List.mem_filterMap.2 ⟨e, he, hr⟩
    obtain ⟨n, hn, -⟩ := hs r hmem
    simp only [Option.bind_eq_bind, Option.bind_some, hn, h.plain?_eq hn]

theorem Records.append (hlog : s.Records log) (h : s.Extends t) (hs : s.Legible)
    (hrefs : t.refs = s.refs ++ es.filterMap Event.allocation?)
    (hregistrations : t.registrations = s.registrations ++ es.filterMap Event.registration?)
    (hends : Event.Follow t.ending? none es) : t.Records (log ++ es) := by
  constructor
  · rw [List.filterMap_append, hlog.allocations, hrefs]
  · rw [List.filterMap_append, hlog.registrations, hregistrations]
  · apply Event.Follow.append _ hends
    exact hlog.endings.congr fun e he => ending?_extends h hs hlog he

theorem refs_lay : (s.lay k n).refs = s.refs ++ [⟨⟨s.kinds.size.toUInt32⟩, k⟩] := by
  simp [refs, lay, List.zipIdx_append]

theorem registrations_push (s : Store) (name : String) : (s.pushFunction name).registrations =
    s.registrations ++ [(name, ⟨s.functions.size.toUInt32⟩)] := by
  simp [registrations, pushFunction, List.zipIdx_append]

theorem registrations_index (h : s.functions.size ≤ UInt32.size) :
    s.registrations.map (·.2.index) = List.range s.functions.size := by
  rw [registrations, List.map_map]
  exact zipIdx_index h

theorem Numbered.congr (hs : s.Numbered) (hkinds : t.kinds = s.kinds)
    (hfunctions : t.functions = s.functions) : t.Numbered := by
  constructor
  · rw [refs, hkinds]
    exact hs.nodes
  · rw [registrations, hfunctions]
    exact hs.functions

theorem Numbered.lay (hs : s.Numbered) (h : s.kinds.size < UInt32.size) : (s.lay k n).Numbered := by
  constructor
  · apply refs_index
    rw [Store.lay, Array.size_push]
    exact h
  · exact hs.functions

theorem Numbered.push (hs : s.Numbered) (h : s.functions.size < UInt32.size) (name : String) :
    (s.pushFunction name).Numbered := by
  constructor
  · exact hs.nodes
  · apply registrations_index
    rw [pushFunction, Array.size_push]
    exact h

theorem Legible.pads (hs : s.Legible) (h : s.Pads t) : t.Legible := by
  intro r hr
  rw [refs, h.kinds_eq] at hr
  obtain ⟨n, hn, hshape⟩ := hs r hr
  exact ⟨n, h.toExtends.plain?_eq hn, hshape⟩

theorem ending?_of_plain {r : Ref} (hn : s.plain? r.id.index = some n) :
    s.ending? (.allocated r.kind r.id) = n.ending? r := by
  simp only [ending?, Event.allocation?, Option.bind_eq_bind, Option.bind_some, hn]

theorem Legible.tells (hs : s.Legible) {r : Ref} (hr : r ∈ s.refs) : s.Tells r := by
  obtain ⟨n, hn, hshape⟩ := hs r hr
  have hend := ending?_of_plain hn
  constructor
  · intro hk
    refine ⟨_, argumentCount_of_plain hn hshape, hend.trans ?_⟩
    have hlists : ∀ k : Kind, k.isIterated = true → k.shape = .list ∨ k.shape = .call := by decide
    obtain hlist | hcall := hlists r.kind hk
    · cases n <;> cases hshape.trans hlist
      rfl
    · cases n <;> cases hshape.trans hcall
      rfl
  · intro h
    have hterms : ∀ k : Kind, View.specific k = .piecewiseLinear → k.shape = .piecewiseLinear := by
      decide +kernel
    cases n <;> cases hshape.trans (hterms r.kind h)
    exact ⟨_, read_of_plain hn (f := .breakpointCount h) rfl, hend⟩
  · intro hk hterm
    have hothers : ∀ k : Kind, k.isIterated = false → k ≠ .piecewiseLinear →
        k.shape ≠ .list ∧ k.shape ≠ .call ∧ k.shape ≠ .piecewiseLinear := by
      decide
    obtain ⟨hlist, hcall, hpiecewise⟩ := hothers r.kind hk hterm
    rw [← hshape] at hlist hcall hpiecewise
    rw [hend]
    cases n <;> first | rfl | contradiction

end Store

/-! ### Rejections -/

section Rejections

variable {es : List Event}

theorem Event.filterMap_rejections (h : ∀ e ∈ es, e.rejects = true) :
    es.filterMap Event.allocation? = [] ∧ es.filterMap Event.registration? = [] := by
  constructor
  all_goals
    apply List.filterMap_eq_nil_iff.2
    intro e he
    have hrejects := h e he
    cases e <;> first | rfl | cases hrejects

theorem Store.follow_rejections {s : Store} (h : ∀ e ∈ es, e.rejects = true) :
    Event.Follow s.ending? none es := by
  induction es with
  | nil => rfl
  | cons e es ih =>
    have hrejects := h e (List.mem_cons_self ..)
    cases e with
    | rejectedList => exact ⟨rfl, ih fun e he => h e (List.mem_cons_of_mem _ he)⟩
    | _ => cases hrejects

end Rejections

def underflow? {α : Type} : Except Failure α → Option Operand
  | .error (.rejected (.underflow o)) => some o
  | _ => none

theorem underflow?_map {α β : Type} (y : Except Failure α) (k : α → β) :
    underflow? (y.map k) = underflow? y := by
  obtain (r | t) | a := y
  · cases r <;> rfl
  · rfl
  · rfl

/-- What the events of a call tell of the operands that are missing: a list that is ended too early is
reported once, and of a term that is ended too early nothing is reported. -/
structure Rejects (c? : Option Call) (missing? : Option Operand) (es : List Event) : Prop where
  list : missing? = some .argument → ∃ l, ∃ d : Draft l, c? = some (.finish d) ∧
    es = [.rejectedList d.kind d.declared d.added]
  term : ∀ o, missing? = some o → o ≠ .argument → es = []
  others : missing? = none → ∀ e ∈ es, e.rejects = false

namespace Rejects

variable {c? : Option Call} {missing? : Option Operand} {es : List Event}

theorem nil (h : missing? ≠ some .argument) : Rejects c? missing? [] := by
  constructor
  · exact fun hlist => absurd hlist h
  · exact fun _ _ _ => rfl
  · rintro - e ⟨⟩

theorem single {l : ListView} (d : Draft l) : Rejects (some (.finish d)) (some .argument)
    [.rejectedList d.kind d.declared d.added] := by
  constructor
  · exact fun _ => ⟨l, d, rfl, rfl⟩
  · rintro o ⟨⟩ hne
    exact absurd rfl hne
  · rintro ⟨⟩

theorem countP_eq (h : Rejects c? missing? es) :
    es.countP Event.rejects = if missing? = some .argument then 1 else 0 := by
  split
  case isTrue hlist =>
    obtain ⟨l, d, -, rfl⟩ := h.list hlist
    rfl
  case isFalse hother =>
    apply List.countP_eq_zero.2
    intro e he
    cases hmissing : missing? with
    | none => simp [h.others hmissing e he]
    | some o =>
      have hne : o ≠ .argument := by
        rintro rfl
        exact hother hmissing
      rw [h.term o hmissing hne] at he
      cases he

end Rejects

/-! ### Steps -/

structure Factory.Logged (f : Factory) : Prop where
  shaped : f.store.Shaped
  numbered : f.store.Numbered
  legible : f.store.Legible
  records : f.store.Records f.log.toList

namespace Factory.Logged

variable {f g : Factory} {es : List Event}

theorem ofOptions {o : Options} (h : ofOptions o = .ok f) : f.Logged := by
  obtain rfl := ofOptions_eq h
  refine ⟨rfl, ⟨rfl, rfl⟩, ?_, ⟨rfl, rfl, rfl⟩⟩
  intro r hr
  cases hr

theorem pads (hf : f.Logged) (h : f.store.Pads g.store)
    (hfunctions : g.store.functions = f.store.functions)
    (hlog : g.log.toList = f.log.toList ++ es) (hes : ∀ e ∈ es, e.rejects = true) : g.Logged := by
  obtain ⟨hallocations, hregistrations⟩ := Event.filterMap_rejections hes
  refine ⟨hf.shaped.pads h, hf.numbered.congr h.kinds_eq hfunctions, hf.legible.pads h, ?_⟩
  rw [hlog]
  apply hf.records.append h.toExtends hf.legible
  · rw [hallocations, List.append_nil, Store.refs, h.kinds_eq]
    rfl
  · rw [hregistrations, List.append_nil, Store.registrations, hfunctions]
    rfl
  · exact Store.follow_rejections hes

theorem lays {k : Kind} {n : Plain} (hf : f.Logged) (hg : g.store.Shaped) (h : f.Lays g k n)
    (hlog : g.log.toList = f.log.toList ++
      .allocated k (f.store.next k).id :: (n.ending? (f.store.next k)).toList) : g.Logged := by
  have hadds := h.adds.store
  have hext := hadds.toExtends
  have hsize := hf.shaped.size_eq
  have hshape : n.shape = k.shape := Store.Shaped.of_lay (s := f.store) (h.store_eq ▸ hg)
  have hrefs : g.store.refs = f.store.refs ++ [f.store.next k] := by
    rw [h.store_eq, Store.refs_lay, hsize]
    rfl
  have hlast : g.store.plain? (f.store.next k).id.index = some n := by
    rw [Store.next_index h.room.node]
    exact (hadds.plain?_last hsize).1
  have hnumbered : g.store.Numbered := by
    rw [h.store_eq]
    exact hf.numbered.lay (hsize ▸ h.room.node)
  refine ⟨hg, hnumbered, ?_, ?_⟩
  · intro r hr
    rw [hrefs] at hr
    obtain hr | hr := List.mem_append.1 hr
    · obtain ⟨m, hm, hm_shape⟩ := hf.legible r hr
      exact ⟨m, hext.plain?_eq hm, hm_shape⟩
    · obtain rfl := List.mem_singleton.1 hr
      exact ⟨n, hlast, hshape⟩
  · rw [hlog]
    apply hf.records.append hext hf.legible
    · rw [hrefs]
      cases n <;> rfl
    · have hnew : (n.ending? (f.store.next k)).toList.filterMap Event.registration? = [] := by
        cases n <;> rfl
      rw [h.store_eq, List.filterMap_cons_none rfl, hnew, List.append_nil]
      rfl
    · -- The end is read from the node itself, which is the last one of the store.
      have hend : g.store.ending? (.allocated k (f.store.next k).id) =
          n.ending? (f.store.next k) := Store.ending?_of_plain hlast
      refine ⟨rfl, ?_⟩
      rw [hend]
      cases n <;> first | exact ⟨rfl, rfl⟩ | rfl

theorem registers {name : String} {x : FunctionRef} (hf : f.Logged) (h : f.Registers g name x)
    (hlog : g.log.toList = f.log.toList ++
      [.registered name ⟨f.store.functions.size.toUInt32⟩]) : g.Logged := by
  have hnumbered : g.store.Numbered := by
    rw [h.store_eq]
    exact hf.numbered.push h.room name
  refine ⟨hf.shaped.pads h.pads, hnumbered, hf.legible.pads h.pads, ?_⟩
  rw [hlog]
  apply hf.records.append h.pads.toExtends hf.legible
  · rw [h.store_eq]
    exact (List.append_nil _).symm
  · rw [h.store_eq]
    exact Store.registrations_push f.store name
  · exact ⟨rfl, rfl⟩

end Factory.Logged

section Calls

variable {c : Call} {f g : Factory} {y : Except Failure Product}

theorem Call.reports_failed (e : Failure) : ∀ x ∈ c.reports f (.error e), x.rejects = true := by
  intro x hx
  cases c with
  | finish d =>
    cases e with
    | rejected r =>
      obtain rfl := List.mem_singleton.1 hx
      rfl
    | faulty t => cases hx
  | _ => cases hx

theorem Call.perform_logged (hc : c.Within) (hformed : c.Formed) (hf : f.Logged)
    (h : c.perform.run f = (y, g)) : g.Logged := by
  have hlog := perform_log h
  cases y with
  | error e =>
    have hpads : f.store.Pads g.store := by
      cases perform_ends h with
      | refused r hstays => exact hstays.store_eq ▸ .refl _
      | overfull e hoverfull hpads => exact hpads.store
    exact hf.pads hpads (functions_failed h) hlog (reports_failed e)
  | ok q =>
    cases perform_ends h with
    | laid v k n hn hlays =>
      rw [reports_node (filled hc h) hn] at hlog
      exact hf.lays (perform_shaped hformed hf.shaped h) hlays hlog
    | known name x hname hx hg =>
      subst hg
      exact hf
    | registered name x hname hregisters =>
      subst hname
      rw [reports, Construction.reports, hregisters.unknown] at hlog
      exact hf.registers hregisters hlog
    | drafted b q hb hq hg =>
      subst hg
      exact hf

theorem Call.lasting (h : c.perform.run f = (y, g)) {e : Event} (he : e ∈ c.reports f y)
    (hlasting : e.rejects = false) : ∃ p, y = .ok p ∧ (p.handle?.isSome = true ∨
      ∃ name, c = .construct (.addFunction name) ∧ f.known? name = none) := by
  cases y with
  | error x => cases hlasting.symm.trans (reports_failed x e he)
  | ok q =>
    refine ⟨q, rfl, ?_⟩
    cases perform_ends h with
    | laid v k n hn hlays => exact .inl rfl
    | known name x hname hx hg =>
      subst hname
      rw [reports, Construction.reports, hx] at he
      cases he
    | registered name x hname hregisters => exact .inr ⟨name, hname, hregisters.unknown⟩
    | drafted b q hb hq hg =>
      subst hb
      rw [reports, Construction.reports_draft hq] at he
      cases he

/-! ### Lists that were ended too early -/

theorem Call.reports_accepted (q : Product) : ∀ e ∈ c.reports f (.ok q), e.rejects = false := by
  intro e he
  cases c with
  | construct b =>
    cases b with
    | addFunction name =>
      simp only [reports, Construction.reports] at he
      split at he
      · cases he
      · obtain rfl := List.mem_singleton.1 he
        rfl
    | _ =>
      obtain ⟨n, -, rfl⟩ := List.mem_map.1 he
      rfl
  | finish d | finishTerm d x =>
    obtain rfl | he := List.mem_cons.1 he
    · rfl
    · obtain rfl := List.mem_singleton.1 he
      rfl

theorem Construction.rejected_ne {b : Construction Handle FunctionRef} {r : Rejection}
    (h : b.perform.run f = (.error (.rejected r), g)) : r ≠ .underflow .argument := by
  have hother (m : Nat) : ∀ q ∈ b.requirements m, q.rejection ≠ .underflow .argument := by
    cases b <;> simp [requirements, Requirement.rejection]
  rw [perform_run] at h
  split at h
  case h_1 p hp =>
    obtain ⟨⟨t, ht⟩, -⟩ := Plan.fulfil_overfull h
    cases ht
  case h_2 r' hr =>
    cases h
    obtain ⟨q, hq, rfl⟩ := (b.plan_governed f.store.functions.size).mem_of_error hr
    exact hother _ q hq

theorem Factory.finishTerm_rejected_ne {d : TermDraft} {x : Handle .decisionVariable}
    {r : Rejection} (h : (finishTerm d x).run f = (.error (.rejected r), g)) :
    r ≠ .underflow .argument := by
  have hother : ∀ q ∈ (Call.finishTerm d x).requirements 0, q.rejection ≠ .underflow .argument := by
    simp [Call.requirements, Requirement.rejection]
  obtain ⟨r', hr, hrejected, -⟩ | ⟨-, ⟨t, ht⟩, -⟩ := finishTerm_failed h
  · cases hr
    obtain ⟨q, hq, rfl⟩ := (Call.finishTerm_governed d x 0).mem_of_error hrejected
    exact hother q hq
  · cases ht

theorem Action.rejected_ne {a : Action Handle FunctionRef} {p q : Product} {r : Rejection}
    (h : a.change? p = some (.error r, q)) : r ≠ .underflow .argument := by
  rintro rfl
  cases a with
  | @add l i x =>
    obtain ⟨d, -, hy⟩ := Option.map_eq_some_iff.1 h
    have hanswer := (Prod.ext_iff.1 hy).1
    simp only [Prod.map_fst, id_eq, Draft.add_answer] at hanswer
    obtain ⟨_ | r⟩ := x
    · cases hanswer
    · change (if _ then _ else _) = _ at hanswer
      split at hanswer <;> cases hanswer
  | addSlope i x | addBreakpoint i x =>
    cases p with
    | termDraft d =>
      have hanswer := (Prod.ext_iff.1 (Option.some.inj h)).1
      simp only [TermDraft.addSlope_run, TermDraft.addBreakpoint_run] at hanswer
      split at hanswer <;> cases hanswer
    | _ => cases h
  | _ => cases h

theorem Draft.eq_underflow {l : ListView} {d : Draft l} {r : Rejection}
    (h : d.requireComplete = .error r) : r = .underflow .argument := by
  unfold requireComplete at h
  split at h <;> cases h
  rfl

theorem underflow?_ne {r : Rejection} (h : r ≠ .underflow .argument) {α : Type} :
    underflow? (.error (.rejected r) : Except Failure α) ≠ some .argument := by
  intro hr
  cases r <;> cases hr
  exact h rfl

theorem Call.rejections (h : c.perform.run f = (y, g)) :
    Rejects (some c) (underflow? y) (c.reports f y) := by
  cases y with
  | ok q =>
    constructor
    · rintro ⟨⟩
    · rintro o ⟨⟩
    · exact fun _ => reports_accepted q
  | error e =>
    cases e with
    | faulty t =>
      have hnone : c.reports f (.error (.faulty t)) = [] := by cases c <;> rfl
      rw [hnone]
      exact .nil (by rintro ⟨⟩)
    | rejected r =>
      cases c with
      | construct b => exact .nil (underflow?_ne (Construction.rejected_ne h))
      | finish d =>
        obtain h | ⟨x, f₁, -, h⟩ := FactoryM.run_bind_error h
        · obtain rfl := Draft.eq_underflow (Factory.finish_rejected h).1
          exact .single d
        · cases h
      | finishTerm d x =>
        obtain h | ⟨x, f₁, -, h⟩ := FactoryM.run_bind_error h
        · exact .nil (underflow?_ne (Factory.finishTerm_rejected_ne h))
        · cases h

end Calls

end ModelExpr
