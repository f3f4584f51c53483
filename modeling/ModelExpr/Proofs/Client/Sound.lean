import ModelExpr.Proofs.Client.Basic
import ModelExpr.Proofs.Factory.Sound

namespace ModelExpr

namespace Cursor

variable {v : View} {c : Cursor v}

theorem take_operands (t : Take) : (c.take t).2.operands = c.operands := by
  cases t <;> simp only [take, nth, nthBack] <;> split <;> rfl

theorem takeAll_operands (ts : List Take) : (c.takeAll ts).operands = c.operands := by
  induction ts generalizing c with
  | nil => rfl
  | cons t ts ih =>
    rw [takeAll, List.foldl_cons]
    exact ih.trans (take_operands t)

theorem take_mem {t : Take} {h : Handle v} (ht : (c.take t).1 = some h) :
    ∃ r ∈ c.operands.toList, h = .ofRef r := by
  cases t with
  | front k =>
    simp only [take, nth] at ht
    split at ht <;> cases ht
    exact ⟨_, Array.getElem_mem_toList _, rfl⟩
  | back k =>
    simp only [take, nthBack] at ht
    split at ht <;> cases ht
    exact ⟨_, Array.getElem_mem_toList _, rfl⟩

end Cursor

structure Client.Sound (C : Client) : Prop where
  factory : C.factory.Sound
  product : ∀ i p, C.product? i = some p → p.Sound C.store

namespace Product

variable {p : Product}

theorem handleOf?_eq_some {v : View} {h : Handle v} (hp : p.handleOf? v = some h) :
    p = .handle h := by
  unfold handleOf? at hp
  split at hp
  case h_1 w x =>
    split at hp
    case isTrue e =>
      subst e
      cases hp
      rfl
    case isFalse => cases hp
  case h_2 => cases hp

theorem draftOf?_eq_some {l : ListView} {d : Draft l} (hp : p.draftOf? l = some d) :
    p = .draft d := by
  unfold draftOf? at hp
  split at hp
  case h_1 m x =>
    split at hp
    case isTrue e =>
      subst e
      cases hp
      rfl
    case isFalse => cases hp
  case h_2 => cases hp

end Product

theorem toOption_eq_some {ε α : Type} {x : Except ε α} {a : α} :
    x.toOption = some a ↔ x = .ok a := by
  cases x <;> simp [Except.toOption]

namespace Client.Sound

variable {C : Client}

theorem access_known (hC : C.Sound) {v : View} (a : Access v) {h : Handle v}
    (ha : a.eval C = some h) : h.Known C.store := by
  induction a with
  | null v =>
    cases ha
    exact .null
  | made v i =>
    obtain ⟨p, hp, hh⟩ := Option.bind_eq_some_iff.1 ha
    obtain rfl := Product.handleOf?_eq_some hh
    exact (hC.product i _ hp).1
  | lookup i =>
    obtain ⟨k, hk, rfl⟩ := Option.map_eq_some_iff.1 ha
    exact .ofRef rfl hk
  | cast a w ih =>
    obtain ⟨x, hx, hh⟩ := Option.bind_eq_some_iff.1 ha
    exact (ih hx).recast (toOption_eq_some.1 hh)
  | field a f ih =>
    obtain ⟨x, hx, hh⟩ := Option.bind_eq_some_iff.1 ha
    exact hC.factory.wellFormed.read_ok (ih hx) (toOption_eq_some.1 hh)
  | operand a earlier last ih =>
    obtain ⟨x, hx, ha⟩ := Option.bind_eq_some_iff.1 ha
    obtain ⟨c, hc, hh⟩ := Option.bind_eq_some_iff.1 ha
    obtain ⟨r, hr, rfl⟩ := Cursor.take_mem hh
    rw [Cursor.takeAll_operands] at hr
    exact hC.factory.wellFormed.cursor_ok (ih hx) (toOption_eq_some.1 hc) r hr

theorem callee_known (hC : C.Sound) (a : Callee) {f : FunctionRef} (ha : a.eval C = some f) :
    f.Known C.store := by
  cases a with
  | null =>
    cases ha
    exact .inl rfl
  | made i =>
    obtain ⟨p, hp, hf⟩ := Option.bind_eq_some_iff.1 ha
    cases p <;> cases hf
    exact hC.product i _ hp
  | lookup i => exact FunctionRef.known_of_function? ha
  | field a =>
    obtain ⟨x, hx, hf⟩ := Option.bind_eq_some_iff.1 ha
    exact .inr (hC.factory.wellFormed.read_ok (hC.access_known a hx) (toOption_eq_some.1 hf))

end Client.Sound

def Action.Known (s : Store) : Action Handle FunctionRef → Prop
  | .construct c => c.Known s
  | .add _ x => x.Known s
  | .finishTerm _ x => x.Known s
  | _ => True

section Reached

variable {s : Store} {H : View → Type} {F : Type} {h : (v : View) → H v → Option (Handle v)}
  {f : F → Option FunctionRef}
  (hh : ∀ v a x, h v a = some x → x.Known s) (hf : ∀ a g, f a = some g → g.Known s)

include hh hf

theorem Construction.mapM_known {c : Construction H F} {c' : Construction Handle FunctionRef}
    (hc : c.mapM h f = some c') : c'.Known s := by
  cases c with
  | unary | negation | beginNumberOf =>
    obtain ⟨x, hx, hc⟩ := Option.bind_eq_some_iff.1 hc
    cases hc
    exact hh _ _ _ hx
  | binary | relational | binaryLogical | logicalCount =>
    obtain ⟨x, hx, hc⟩ := Option.bind_eq_some_iff.1 hc
    obtain ⟨y, hy, hc⟩ := Option.bind_eq_some_iff.1 hc
    cases hc
    exact ⟨hh _ _ _ hx, hh _ _ _ hy⟩
  | conditional | implication =>
    obtain ⟨x, hx, hc⟩ := Option.bind_eq_some_iff.1 hc
    obtain ⟨y, hy, hc⟩ := Option.bind_eq_some_iff.1 hc
    obtain ⟨z, hz, hc⟩ := Option.bind_eq_some_iff.1 hc
    cases hc
    exact ⟨hh _ _ _ hx, hh _ _ _ hy, hh _ _ _ hz⟩
  | beginCall =>
    obtain ⟨g, hg, hc⟩ := Option.bind_eq_some_iff.1 hc
    cases hc
    exact hf _ _ hg
  | _ =>
    cases hc
    trivial

theorem Action.mapM_known {a : Action H F} {a' : Action Handle FunctionRef}
    (ha : a.mapM h f = some a') : a'.Known s := by
  cases a with
  | construct c =>
    obtain ⟨c', hc, ha⟩ := Option.bind_eq_some_iff.1 ha
    cases ha
    exact Construction.mapM_known hh hf hc
  | add | finishTerm =>
    obtain ⟨x, hx, ha⟩ := Option.bind_eq_some_iff.1 ha
    cases ha
    exact hh _ _ _ hx
  | _ =>
    cases ha
    trivial

end Reached

namespace Client

variable {C : Client} {a : Action Handle FunctionRef} {i j : Nat} {p q : Product}

theorem product?_keep {y : Except Failure Product} {f : Factory}
    (h : (C.keep a (y, f)).product? i = some p) : C.product? i = some p ∨ y = .ok p := by
  simp only [product?, keep, Option.join_eq_some_iff] at h ⊢
  rw [List.getElem?_append] at h
  split at h
  · left
    exact h
  · right
    obtain ⟨q, hq, hqp⟩ := List.mem_map.1 (List.mem_of_getElem? h)
    cases hqp
    exact toOption_eq_some.1 (Option.mem_toList.1 hq)

theorem product?_update {y : Except Rejection Unit}
    (h : (C.update a i (y, q)).product? j = some p) : C.product? j = some p ∨ p = q := by
  simp only [product?, update, Option.join_eq_some_iff] at h ⊢
  rw [List.getElem?_set] at h
  split at h
  · split at h <;> cases h
    right
    rfl
  · left
    exact h

theorem product?_release (h : (C.release i).product? j = some p) : C.product? j = some p := by
  simp only [product?, release, Option.join_eq_some_iff] at h ⊢
  rw [List.getElem?_set] at h
  split at h
  · split at h <;> cases h
  · exact h

structure Steps (C D : Client) : Prop where
  sound : D.Sound
  extends_store : C.store.Extends D.store

namespace Sound

theorem keep {f : Factory} {y : Except Failure Product} (hC : C.Sound) (h : C.factory.Steps f y) :
    C.Steps (C.keep a (y, f)) := by
  refine ⟨⟨h.sound, ?_⟩, h.extends_store⟩
  intro i p hp
  obtain hp | hp := product?_keep hp
  · exact (hC.product i p hp).mono h.extends_store
  · exact h.product p hp

theorem update {y : Except Rejection Unit} (hC : C.Sound) (hq : q.Sound C.store) :
    C.Steps (C.update a i (y, q)) := by
  refine ⟨⟨hC.factory, ?_⟩, .refl _⟩
  intro j p hp
  obtain hp | rfl := product?_update hp
  · exact hC.product j p hp
  · exact hq

theorem release (hC : C.Sound) (i : Nat) : (C.release i).Sound := by
  refine ⟨hC.factory, ?_⟩
  intro j p hp
  exact hC.product j p (product?_release hp)

theorem stay (hC : C.Sound) : C.Steps C := ⟨hC, .refl _⟩

theorem perform (hC : C.Sound) (ha : a.Known C.store) : C.Steps (C.perform a) := by
  cases a with
  | construct c => exact hC.keep (Call.perform_steps (c := .construct c) hC.factory ha rfl)
  | @add l i x =>
    simp only [Client.perform]
    split
    case h_1 d hd =>
      obtain ⟨p, hp, hd⟩ := Option.bind_eq_some_iff.1 hd
      obtain rfl := Product.draftOf?_eq_some hd
      exact hC.update (Draft.Sound.add (hC.product i _ hp) ha rfl)
    case h_2 => exact hC.stay
  | addSlope i x =>
    simp only [Client.perform]
    split
    case h_1 d hd => exact hC.update (TermDraft.Sound.addSlope (hC.product i _ hd) rfl)
    case h_2 => exact hC.stay
  | addBreakpoint i x =>
    simp only [Client.perform]
    split
    case h_1 d hd => exact hC.update (TermDraft.Sound.addBreakpoint (hC.product i _ hd) rfl)
    case h_2 => exact hC.stay
  | finish i =>
    simp only [Client.perform]
    split
    case h_1 l d hd =>
      have hsteps := Call.perform_steps (c := .finish d) hC.factory (hC.product i _ hd) rfl
      obtain ⟨hsound, hext⟩ := (hC.release i).keep (a := .finish i) hsteps
      exact ⟨hsound, hext⟩
    case h_2 => exact hC.stay
  | finishTerm i x =>
    simp only [Client.perform]
    split
    case h_1 d hd =>
      have hsteps :=
        Call.perform_steps (c := .finishTerm d x) hC.factory ⟨hC.product i _ hd, ha⟩ rfl
      obtain ⟨hsound, hext⟩ := (hC.release i).keep (a := .finishTerm i x) hsteps
      exact ⟨hsound, hext⟩
    case h_2 => exact hC.stay

theorem step (hC : C.Sound) (a : Action Access Callee) : C.Steps (C.step a) := by
  unfold Client.step
  split
  case h_1 a' ha =>
    apply hC.perform
    apply Action.mapM_known _ _ ha
    · intro v x h
      exact hC.access_known x
    · intro x g
      exact hC.callee_known x
  case h_2 => exact hC.stay

theorem run (hC : C.Sound) (as : List (Action Access Callee)) : C.Steps (C.run as) := by
  induction as generalizing C with
  | nil => exact hC.stay
  | cons a as ih =>
    have hstep := hC.step a
    have hrun := ih hstep.sound
    exact ⟨hrun.sound, hstep.extends_store.trans hrun.extends_store⟩

theorem start {o : Options} (h : start o = .ok C) : C.Sound := by
  obtain ⟨f, hf, h⟩ := bind_eq_ok.1 h
  cases h
  refine ⟨.ofOptions hf, ?_⟩
  intro i p hp
  simp [product?] at hp

end Sound

theorem run_wellFormed {o : Options} (h : start o = .ok C) (as : List (Action Access Callee)) :
    (C.run as).store.WellFormed :=
  ((Sound.start h).run as).sound.factory.wellFormed

theorem run_wellFormed_sample : ∃ C, start {} = .ok C ∧ (C.run sample).store.kinds =
    #[.decisionVariable, .logicalConstant, .numberOf, .conditional] ∧
      (C.run sample).store.WellFormed :=
  ⟨_, rfl, rfl, run_wellFormed (o := {}) rfl sample⟩

end Client

end ModelExpr
