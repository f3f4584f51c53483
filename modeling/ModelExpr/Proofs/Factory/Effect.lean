import ModelExpr.Factory.Call
import ModelExpr.Proofs.Draft

namespace ModelExpr

def Store.next (s : Store) (k : Kind) : Ref := ⟨⟨s.nodes.size.toUInt32⟩, k⟩

namespace FactoryM

variable {α β : Type} (f : Factory)

theorem run_bind (m : FactoryM α) (g : α → FactoryM β) : (m >>= g).run f =
    match m.run f with
    | (.ok a, f') => (g a).run f'
    | (.error e, f') => (.error e, f') := by
  simp only [ExceptT.run, bind, ExceptT.bind, ExceptT.mk, StateT.bind, ExceptT.bindCont]
  cases m f with
  | mk result next => cases result <;> rfl

theorem run_get : (get : FactoryM Factory).run f = (.ok f, f) := rfl

theorem run_modify (g : Factory → Factory) : (modify g : FactoryM Unit).run f = (.ok (), g f) := rfl

theorem run_map (φ : α → β) (m : FactoryM α) :
    (φ <$> m).run f = ((m.run f).1.map φ, (m.run f).2) := by
  simp only [ExceptT.run, Functor.map, ExceptT.map, ExceptT.mk, StateT.bind, bind]
  cases m f with
  | mk result next => cases result <;> rfl

theorem run_bind_ok {m : FactoryM α} {k : α → FactoryM β} {f g : Factory} {y : β}
    (h : (m >>= k).run f = (.ok y, g)) :
    ∃ x f', m.run f = (.ok x, f') ∧ (k x).run f' = (.ok y, g) := by
  rw [run_bind] at h
  split at h
  · exact ⟨_, _, ‹_›, h⟩
  · cases h

theorem run_bind_error {m : FactoryM α} {k : α → FactoryM β} {f g : Factory} {e : Failure}
    (h : (m >>= k).run f = (.error e, g)) : m.run f = (.error e, g) ∨
      ∃ x f', m.run f = (.ok x, f') ∧ (k x).run f' = (.error e, g) := by
  rw [run_bind] at h
  split at h
  · right
    exact ⟨_, _, ‹_›, h⟩
  · cases h
    left
    assumption

theorem run_lift_bind_ok {x : Except Rejection α} {k : α → FactoryM β} {f g : Factory} {y : β}
    (h : ((liftM x : FactoryM α) >>= k).run f = (.ok y, g)) :
    ∃ a, x = .ok a ∧ (k a).run f = (.ok y, g) := by
  cases x with
  | ok a => exact ⟨a, rfl, h⟩
  | error r => cases h

theorem run_lift_bind_error {x : Except Rejection α} {k : α → FactoryM β} {f g : Factory}
    {e : Failure} (h : ((liftM x : FactoryM α) >>= k).run f = (.error e, g)) :
    g = f ∨ ∃ a, x = .ok a ∧ (k a).run f = (.error e, g) := by
  cases x with
  | ok a => exact .inr ⟨a, rfl, h⟩
  | error r =>
    cases h
    exact .inl rfl

end FactoryM

namespace Factory

open FactoryM

structure Pads (f g : Factory) : Prop where
  store : f.store.Pads g.store
  names_eq : g.names? = f.names?

structure Adds (f g : Factory) (k : Kind) (n : Plain) : Prop where
  store : f.store.Adds g.store k n
  names_eq : g.names? = f.names?
  room : f.store.nodes.size < UInt32.size

variable {f g h : Factory}

@[refl]
theorem Pads.refl (f : Factory) : f.Pads f := ⟨.refl _, rfl⟩

theorem Pads.trans (hf : f.Pads g) (hg : g.Pads h) : f.Pads h :=
  ⟨hf.store.trans hg.store, hg.names_eq.trans hf.names_eq⟩

theorem Pads.next_eq (hf : f.Pads g) (k : Kind) : g.store.next k = f.store.next k := by
  rw [Store.next, Store.next, hf.store.nodes_eq]

theorem Adds.of_pads {k : Kind} {n : Plain} (hf : f.Pads g) (hg : g.Adds h k n) : f.Adds h k n := by
  obtain ⟨u, p, hu, hp, ht⟩ := hg.store
  exact ⟨⟨u, p, hf.store.trans hu, hp, ht⟩, hg.names_eq.trans hf.names_eq,
    hf.store.nodes_eq ▸ hg.room⟩

theorem ofOptions_eq {o : Options} (h : ofOptions o = .ok f) :
    f = { names? := if o.reuseNames then some ∅ else none } := by
  obtain ⟨s, hs, h⟩ := bind_eq_ok.1 h
  cases h
  unfold Store.withRoom at hs
  split at hs <;> cases hs
  rfl

theorem number_run (t : Table) (n : Nat) : (number t n).run f =
    (if n < UInt32.size then .ok n.toUInt32 else .error (.faulty (.full t n)), f) := by
  unfold number
  split <;> rfl

theorem allocate_run (k : Kind) (p : Payload) : (allocate k p).run f =
    if f.store.nodes.size < UInt32.size then
      (.ok (f.store.next k), { f with
        store := f.store.pushNode k p
        log := f.log.push (.allocated k (f.store.next k).id) })
    else (.error (.faulty (.full .expressions f.store.nodes.size)), f) := by
  simp only [allocate, run_bind, run_get, number_run]
  by_cases h : f.store.nodes.size < UInt32.size
  · simp only [if_pos h]
    rfl
  · simp only [if_neg h]

theorem allocate_ok {k : Kind} {p : Payload} {r : Ref} (h : (allocate k p).run f = (.ok r, g)) :
    r = f.store.next k ∧ ∀ n, f.store.inline p = .ok n → f.Adds g k n := by
  rw [allocate_run] at h
  split at h
  case isTrue hroom =>
    cases h
    refine ⟨rfl, ?_⟩
    intro n hn
    exact ⟨⟨f.store, p, .refl _, hn, rfl⟩, rfl, hroom⟩
  case isFalse => cases h

theorem allocate_error {k : Kind} {p : Payload} {e : Failure}
    (h : (allocate k p).run f = (.error e, g)) : g = f := by
  rw [allocate_run] at h
  split at h <;> cases h
  rfl

theorem allocateOperands_run (xs : Array Ref) : (allocateOperands xs).run f =
    if xs.isEmpty then (.ok .empty, f)
    else if f.store.operands.size < UInt32.size then
      (if xs.size < UInt32.size then .ok ⟨f.store.operands.size.toUInt32, xs.size.toUInt32⟩
        else .error (.faulty (.full .operands xs.size)),
      { f with store := f.store.appendOperands xs })
    else (.error (.faulty (.full .operands f.store.operands.size)), f) := by
  unfold allocateOperands
  split
  · rfl
  · simp only [run_bind, run_get, number_run]
    by_cases h : f.store.operands.size < UInt32.size
    · simp only [if_pos h, run_modify]
      by_cases hx : xs.size < UInt32.size
      · simp only [if_pos hx]
        rfl
      · simp only [if_neg hx]
    · simp only [if_neg h]

theorem allocateNumbers_run (xs : Array Binary64) : (allocateNumbers xs).run f =
    if f.store.numbers.size < UInt32.size then
      (if xs.size < UInt32.size then .ok ⟨f.store.numbers.size.toUInt32, xs.size.toUInt32⟩
        else .error (.faulty (.full .numbers xs.size)),
      { f with store := f.store.appendNumbers xs })
    else (.error (.faulty (.full .numbers f.store.numbers.size)), f) := by
  simp only [allocateNumbers, run_bind, run_get, number_run]
  by_cases h : f.store.numbers.size < UInt32.size
  · simp only [if_pos h, run_modify]
    by_cases hx : xs.size < UInt32.size
    · simp only [if_pos hx]
      rfl
    · simp only [if_neg hx]
  · simp only [if_neg h]

theorem stop_appended {m n : Nat} (hm : m < UInt32.size) (hn : n < UInt32.size) :
    m.toUInt32.toNat = m ∧ (Span.mk m.toUInt32 n.toUInt32).stop = m + n := by
  have toNat {k : Nat} (hk : k < UInt32.size) : k.toUInt32.toNat = k := Nat.mod_eq_of_lt hk
  constructor
  · exact toNat hm
  · rw [Span.stop, toNat hm, toNat hn]

theorem allocateOperands_pads {xs : Array Ref} {y : Except Failure Span}
    (h : (allocateOperands xs).run f = (y, g)) : f.Pads g := by
  rw [allocateOperands_run] at h
  split at h
  · cases h
    rfl
  · split at h <;> cases h
    · exact ⟨Store.pads_appendOperands xs, rfl⟩
    · rfl

theorem allocateOperands_ok {xs : Array Ref} {r : Span}
    (h : (allocateOperands xs).run f = (.ok r, g)) : g.store.operandsIn r = .ok xs := by
  rw [allocateOperands_run] at h
  split at h
  case isTrue hx =>
    cases h
    obtain rfl := Array.isEmpty_iff.1 hx
    simp [Store.operandsIn, Span.empty, Span.stop]
  case isFalse =>
    split at h
    case isTrue hm =>
      split at h
      case isTrue hn =>
        cases h
        obtain ⟨hstart, hstop⟩ := stop_appended hm hn
        simp [Store.operandsIn, Store.appendOperands, hstart, hstop]
      case isFalse => cases h
    case isFalse => cases h

theorem allocateNumbers_pads {xs : Array Binary64} {y : Except Failure Span}
    (h : (allocateNumbers xs).run f = (y, g)) : f.Pads g := by
  rw [allocateNumbers_run] at h
  split at h <;> cases h
  · exact ⟨Store.pads_appendNumbers xs, rfl⟩
  · rfl

theorem allocateNumbers_ok {xs : Array Binary64} {r : Span}
    (h : (allocateNumbers xs).run f = (.ok r, g)) : g.store.numbersIn r = .ok xs := by
  rw [allocateNumbers_run] at h
  split at h
  case isTrue hm =>
    split at h
    case isTrue hn =>
      cases h
      obtain ⟨hstart, hstop⟩ := stop_appended hm hn
      simp [Store.numbersIn, Store.appendNumbers, hstart, hstop]
    case isFalse => cases h
  case isFalse => cases h

theorem register_run (name : String) : (register name).run f =
    if f.store.functions.size < UInt32.size then
      (.ok ⟨⟨f.store.functions.size.toUInt32⟩⟩, { f with
        store := f.store.pushFunction name
        names? := f.names?.map (·.insert name ⟨f.store.functions.size.toUInt32⟩)
        log := f.log.push (.registered name ⟨f.store.functions.size.toUInt32⟩) })
    else (.error (.faulty (.full .functions f.store.functions.size)), f) := by
  simp only [register, run_bind, run_get, number_run]
  by_cases h : f.store.functions.size < UInt32.size
  · simp only [if_pos h]
    rfl
  · simp only [if_neg h]

theorem addFunction_run (name : String) : (addFunction name).run f =
    match f.known? name with
    | some id => (.ok ⟨id⟩, f)
    | none => (register name).run f := by
  simp only [addFunction, run_bind, run_get]
  cases f.known? name <;> rfl

theorem addFunction_ok {name : String} {x : FunctionRef}
    (h : (addFunction name).run f = (.ok x, g)) :
    (f.known? name = some x.id ∧ g = f) ∨
      f.store.functions.size < UInt32.size ∧ x = ⟨⟨f.store.functions.size.toUInt32⟩⟩ ∧
        g.store = f.store.pushFunction name ∧ g.names? = f.names?.map (·.insert name x.id) := by
  rw [addFunction_run] at h
  split at h
  · cases h
    left
    exact ⟨‹_›, rfl⟩
  · rw [register_run] at h
    split at h <;> cases h
    right
    exact ⟨‹_›, rfl, rfl, rfl⟩

theorem addFunction_error {name : String} {e : Failure}
    (h : (addFunction name).run f = (.error e, g)) : g = f := by
  rw [addFunction_run] at h
  split at h
  · cases h
  · rw [register_run] at h
    split at h <;> cases h
    rfl

theorem inline_listPayload {s : Store} {l : ListView} {d : Draft l} {r : Span}
    (h : s.operandsIn r = .ok d.operands) : s.inline (listPayload d r) = .ok d.plain := by
  unfold listPayload Draft.plain
  split
  · exact Store.inline_eq_ok_call.2 ⟨_, h, rfl⟩
  · exact Store.inline_eq_ok_list.2 ⟨_, h, rfl⟩

theorem finish_ok {l : ListView} {d : Draft l} {x : Handle l.view}
    (h : (finish d).run f = (.ok x, g)) :
    d.requireComplete = .ok () ∧ x = .ofRef (f.store.next d.kind) ∧ f.Adds g d.kind d.plain := by
  unfold finish at h
  split at h
  case h_1 =>
    obtain ⟨_, _, -, h⟩ := run_bind_ok h
    cases h
  case h_2 hd =>
    obtain ⟨r, f₁, h₁, h⟩ := run_bind_ok h
    obtain ⟨a, f₂, h₂, h⟩ := run_bind_ok h
    cases h
    have hpads := allocateOperands_pads h₁
    obtain ⟨rfl, hadds⟩ := allocate_ok h₂
    have hall := (hadds _ (inline_listPayload (allocateOperands_ok h₁))).of_pads hpads
    exact ⟨hd, by rw [hpads.next_eq], hall.store, hall.names_eq, hall.room⟩

theorem finish_error {l : ListView} {d : Draft l} {e : Failure}
    (h : (finish d).run f = (.error e, g)) : f.Pads g := by
  unfold finish at h
  split at h
  case h_1 =>
    cases h
    exact ⟨.refl _, rfl⟩
  case h_2 =>
    obtain h₁ | ⟨r, f₁, h₁, h⟩ := run_bind_error h
    · exact allocateOperands_pads h₁
    · obtain h₂ | ⟨a, f₂, -, h⟩ := run_bind_error h
      · rw [allocate_error h₂]
        exact allocateOperands_pads h₁
      · cases h

theorem finishTerm_ok {d : TermDraft} {v : Handle .decisionVariable}
    {x : Handle .piecewiseLinear} (h : (finishTerm d v).run f = (.ok x, g)) :
    d.requireComplete = .ok () ∧ x = .ofRef (f.store.next .piecewiseLinear) ∧
      ∃ r, v.require = .ok r ∧ f.Adds g .piecewiseLinear (d.plain r) := by
  unfold finishTerm at h
  obtain ⟨_, hd, h⟩ := run_lift_bind_ok h
  obtain ⟨r, hr, h⟩ := run_lift_bind_ok h
  obtain ⟨slopes, f₁, h₁, h⟩ := run_bind_ok h
  obtain ⟨breakpoints, f₂, h₂, h⟩ := run_bind_ok h
  obtain ⟨a, f₃, h₃, h⟩ := run_bind_ok h
  cases h
  have hpads := (allocateNumbers_pads h₁).trans (allocateNumbers_pads h₂)
  have hslopes := (allocateNumbers_pads h₂).store.toExtends.numbersIn (allocateNumbers_ok h₁)
  have hinline : f₂.store.inline (.piecewiseLinear slopes breakpoints r) = .ok (d.plain r) :=
    Store.inline_eq_ok_term.2 ⟨_, _, hslopes, allocateNumbers_ok h₂, rfl⟩
  obtain ⟨rfl, hadds⟩ := allocate_ok h₃
  have hall := (hadds _ hinline).of_pads hpads
  exact ⟨hd, by rw [hpads.next_eq], r, hr, hall.store, hall.names_eq, hall.room⟩

theorem finishTerm_error {d : TermDraft} {v : Handle .decisionVariable} {e : Failure}
    (h : (finishTerm d v).run f = (.error e, g)) : f.Pads g := by
  unfold finishTerm at h
  obtain rfl | ⟨_, -, h⟩ := run_lift_bind_error h
  · rfl
  obtain rfl | ⟨r, -, h⟩ := run_lift_bind_error h
  · rfl
  obtain h₁ | ⟨slopes, f₁, h₁, h⟩ := run_bind_error h
  · exact allocateNumbers_pads h₁
  obtain h₂ | ⟨breakpoints, f₂, h₂, h⟩ := run_bind_error h
  · exact (allocateNumbers_pads h₁).trans (allocateNumbers_pads h₂)
  obtain h₃ | ⟨a, f₃, -, h⟩ := run_bind_error h
  · rw [allocate_error h₃]
    exact (allocateNumbers_pads h₁).trans (allocateNumbers_pads h₂)
  · cases h

end Factory

end ModelExpr
