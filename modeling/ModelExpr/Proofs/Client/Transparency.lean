import Mathlib
import ModelExpr.Proofs.Client.Result
import ModelExpr.Proofs.Factory.Twins
/-!
Transparency of reused names: a client that reuses the names of its functions and one that does not
make the same steps with the same outcomes, and their stores are twins all the way.
-/

namespace ModelExpr

def Deed.outcome (d : Deed) : Except Failure (Option (Option AnyHandle)) :=
  d.answer.map fun p? => p?.map Product.handle?

theorem Product.handle?_eq {s t : Store} {p q : Product}
    (h : p.meaning s (fun r => r) = q.meaning t fun r => r) : p.handle? = q.handle? := by
  cases p with
  | @handle v x =>
    cases q with
    | @handle w z =>
      obtain ⟨hview, hvalue⟩ := Meaning.handle.inj h
      subst hview
      obtain ⟨x⟩ := x
      obtain ⟨z⟩ := z
      simp only [Handle.value, Option.map_id'] at hvalue
      rw [hvalue]
    | _ => cases h
  | _ => cases q <;> first | rfl | cases h

section Answers

variable {g g' : Factory} {y y' : Except Failure Product}

theorem Factory.Alike.products_eq (h : g.Alike g' y y') :
    ((y.toOption.toList.map some).map fun p? => p?.map (·.meaning g.store fun r => r)) =
      (y'.toOption.toList.map some).map fun p? => p?.map (·.meaning g'.store fun r => r) := by
  have hmeaning := h.meaning_eq
  cases y with
  | error e =>
    cases y' <;> cases hmeaning
    rfl
  | ok p =>
    cases y' with
    | error e => cases hmeaning
    | ok q => exact congrArg (fun m => [some m]) (Except.ok.inj hmeaning)

theorem Factory.Alike.outcome_eq (h : g.Alike g' y y') :
    (y.map some).map (fun p? => p?.map Product.handle?) =
      (y'.map some).map fun p? => p?.map Product.handle? := by
  have hmeaning := h.meaning_eq
  cases y with
  | error e =>
    cases y' <;> cases hmeaning
    rfl
  | ok p =>
    cases y' with
    | error e => cases hmeaning
    | ok q =>
      have hhandle := Product.handle?_eq (Except.ok.inj hmeaning)
      exact congrArg (fun x => Except.ok (some x)) hhandle

end Answers

theorem Product.function?_of_change {a : Action Handle FunctionRef} {p q : Product}
    {y : Except Rejection Unit} (h : a.change? p = some (y, q)) : q.function? = none := by
  cases a with
  | add =>
    obtain ⟨d, -, hd⟩ := Option.map_eq_some_iff.1 h
    cases hd
    rfl
  | addSlope | addBreakpoint =>
    cases p <;> cases h
    rfl
  | _ => cases h

theorem Action.numbers_meaning {s : Store} {μ : Ref → Ref} (a : Action Handle FunctionRef) :
    (a.meaning s μ).adds? = a.adds? ∧ (a.meaning s μ).spends? = a.spends? := by
  cases a <;> exact ⟨rfl, rfl⟩

namespace Client

variable {C D : Client}

def meanings (C : Client) : List (Option (Meaning Ref)) :=
  C.products.map fun p? => p?.map (·.meaning C.store fun r => r)

def outlook (C : Client) : Outlook Ref where
  kind := Ref.kind
  form? := C.store.form? fun r => r
  lookup? i := (C.store.kind? i).map fun k => ⟨i, k⟩
  meaning? i := C.meanings[i]?.join

theorem join_meanings (C : Client) (i : Nat) :
    C.meanings[i]?.join = (C.product? i).map (·.meaning C.store fun r => r) := by
  rw [meanings, List.getElem?_map, product?]
  cases C.products[i]? with
  | none => rfl
  | some p? => cases p? <;> rfl

theorem seen_outlook (C : Client) : C.Seen (fun r => r) C.outlook := by
  refine ⟨fun _ => rfl, fun _ _ => rfl, ?_⟩
  intro i
  exact C.join_meanings i

theorem meanings_later (hC : C.Sound) {t : Store} (h : C.store.Extends t) :
    (C.products.map fun p? => p?.map (·.meaning t fun r => r)) = C.meanings := by
  apply List.map_congr_left
  rintro (_ | p) hp
  · rfl
  · obtain ⟨i, hi⟩ := List.mem_iff_getElem?.1 hp
    have hproduct : C.product? i = some p := by
      rw [product?, hi]
      rfl
    exact congrArg some ((hC.product i p hproduct).meaning_eq h fun _ _ => rfl)

theorem meanings_kept (hC : C.Sound) {t : Store} (h : C.store.Extends t)
    (a : Action Handle FunctionRef) :
    ((C.kept a).map fun p? => p?.map (·.meaning t fun r => r)) =
      a.spends?.elim C.meanings fun i => C.meanings.set i none := by
  rw [kept, ← meanings_later hC h]
  cases a.spends? with
  | none => rfl
  | some i => exact List.map_set

theorem mem_products_of_kept {a : Action Handle FunctionRef} {p : Product}
    (h : some p ∈ C.kept a) : some p ∈ C.products := by
  unfold kept at h
  split at h
  · exact (List.mem_or_eq_of_mem_set h).resolve_right (Option.some_ne_none p)
  · exact h

structure Twins (C D : Client) : Prop where
  sound : C.Sound
  sound' : D.Sound
  factories : C.factory.Twins D.factory
  named : ∀ f, some (.function f) ∈ D.products → D.store.name? f ≠ none
  meanings_eq : C.meanings = D.meanings
  outcomes_eq : C.history.map Deed.outcome = D.history.map Deed.outcome

namespace Twins

variable (h : C.Twins D)

include h

theorem seen : D.Seen (fun r => r) C.outlook := by
  refine ⟨fun _ => rfl, fun r _ => h.factories.stores.form_eq r, ?_⟩
  intro i
  rw [← D.join_meanings, ← h.meanings_eq]
  rfl

theorem shows {r : Root} (hr : ∀ i, r ≠ .function i) :
    C.Shows (fun r => r) C.outlook r ∧ D.Shows (fun r => r) C.outlook r := by
  cases r with
  | null | made i => exact ⟨trivial, trivial⟩
  | expr i =>
    refine ⟨rfl, ?_⟩
    have hkinds : C.store.kinds = D.store.kinds := h.factories.stores.kinds_eq
    simp only [Shows, outlook, Store.kind?, hkinds]
  | function i => exact absurd rfl (hr i)

theorem sameName {i : Nat} {f g : FunctionRef} (hf : C.product? i = some (.function f))
    (hg : D.product? i = some (.function g)) : C.store.SameName D.store f g := by
  have hmeaning := C.join_meanings i
  rw [h.meanings_eq, D.join_meanings, hf, hg] at hmeaning
  apply h.factories.stores.sameName
  · exact (Meaning.function.inj (Option.some.inj hmeaning)).symm
  · exact h.named g (List.mem_of_getElem? (Option.join_eq_some_iff.1 hg))

variable {a b : Action Handle FunctionRef}

theorem update {i : Nat} {p' q q' : Product} {y : Except Rejection Unit}
    (hC : (C.update a i (y, q)).Sound) (hD : (D.update b i (y, q')).Sound)
    (hq : b.change? p' = some (y, q'))
    (hm : q.meaning C.store (fun r => r) = q'.meaning D.store fun r => r) :
    (C.update a i (y, q)).Twins (D.update b i (y, q')) := by
  refine ⟨hC, hD, h.factories, ?_, ?_, ?_⟩
  · intro f hf
    obtain hf | hf := List.mem_or_eq_of_mem_set hf
    · exact h.named f hf
    · cases hf
      cases Product.function?_of_change hq
  · change (C.products.set i (some q)).map _ = (D.products.set i (some q')).map _
    rw [List.map_set, List.map_set]
    exact congrArg₂ (fun ms m => ms.set i (some m)) h.meanings_eq hm
  · change (C.history ++ [_]).map _ = (D.history ++ [_]).map _
    rw [List.map_append, List.map_append, h.outcomes_eq]
    rfl

theorem called {y y' : Except Failure Product} {g g' : Factory} (hspends : a.spends? = b.spends?)
    (hC : C.Steps
      ⟨g, C.kept a ++ y.toOption.toList.map some, C.history ++ [⟨a, y.map some⟩]⟩)
    (hD : D.Steps
      ⟨g', D.kept b ++ y'.toOption.toList.map some, D.history ++ [⟨b, y'.map some⟩]⟩)
    (hg : g.Twins g') (hy : g.Alike g' y y') :
    Twins ⟨g, C.kept a ++ y.toOption.toList.map some, C.history ++ [⟨a, y.map some⟩]⟩
      ⟨g', D.kept b ++ y'.toOption.toList.map some, D.history ++ [⟨b, y'.map some⟩]⟩ := by
  refine ⟨hC.sound, hD.sound, hg, ?_, ?_, ?_⟩
  · intro f hf
    obtain hf | hf := List.mem_append.1 hf
    · have hmem := mem_products_of_kept hf
      obtain ⟨i, hi⟩ := List.mem_iff_getElem?.1 hmem
      have hknown : f.Known D.store := h.sound'.product i _ (Option.join_eq_some_iff.2 hi)
      have hname : g'.store.name? f = D.store.name? f := hknown.name?_eq hD.extends_store
      change g'.store.name? f ≠ none
      rw [hname]
      exact h.named f hmem
    · obtain ⟨p, hp, hpf⟩ := List.mem_map.1 hf
      cases hpf
      exact hy.named f (toOption_eq_some.1 (Option.mem_toList.1 hp))
  · have hkept := meanings_kept h.sound hC.extends_store a
    have hkept' := meanings_kept h.sound' hD.extends_store b
    rw [← hspends, ← h.meanings_eq] at hkept'
    change (C.kept a ++ _).map (fun p? : Option Product => p?.map (·.meaning g.store fun r => r)) =
      (D.kept b ++ _).map (fun p? : Option Product => p?.map (·.meaning g'.store fun r => r))
    rw [List.map_append, List.map_append]
    exact congrArg₂ (· ++ ·) (hkept.trans hkept'.symm) hy.products_eq
  · change (C.history ++ [_]).map _ = (D.history ++ [_]).map _
    rw [List.map_append, List.map_append, h.outcomes_eq]
    exact congrArg (fun x => D.history.map Deed.outcome ++ [x]) hy.outcome_eq

theorem step {a : Action Access Callee} (ha : ∀ i, Root.function i ∉ a.roots)
    (hb : (C.step a).store.Bounded) (hb' : (D.step a).store.Bounded) :
    (C.step a).Twins (D.step a) := by
  have hroots (r : Root) (hr : r ∈ a.roots) (i : Nat) : r ≠ .function i := by
    rintro rfl
    exact ha i hr
  have hstep := h.sound.step a
  have hstep' := h.sound'.step a
  have hrealises := step_realises h.sound C.seen_outlook (fun r hr => (h.shows (hroots r hr)).1) hb
  have hrealises' := step_realises h.sound' h.seen (fun r hr => (h.shows (hroots r hr)).2) hb'
  obtain ⟨hnone, hC⟩ | ⟨b, -, -, hvalue, hC⟩ := hrealises
  · obtain ⟨-, hD⟩ | ⟨b', -, -, hvalue', -⟩ := hrealises'
    · rw [hC, hD]
      exact h
    · cases hnone.symm.trans hvalue'
  · obtain ⟨hnone', -⟩ | ⟨b', -, -, hvalue', hD⟩ := hrealises'
    · cases hvalue.symm.trans hnone'
    -- the two actions mean the same, so they are about drafts of one number
    have hmeaning := Option.some.inj (hvalue.symm.trans hvalue')
    have hadds : b.adds? = b'.adds? := by
      rw [← b.numbers_meaning.1, hmeaning, b'.numbers_meaning.1]
    have hspends : b.spends? = b'.spends? := by
      rw [← b.numbers_meaning.2, hmeaning, b'.numbers_meaning.2]
    generalize C.outlook.result a = result at hC hD
    generalize C.step a = C' at *
    generalize D.step a = D' at *
    cases hC with
    | idle =>
      cases hD
      exact h
    | changed i p q y m hi hp hq hm =>
      cases hD with
      | changed i' p' q' _ _ hi' hp' hq' hm' =>
        cases hi.symm.trans (hadds.trans hi')
        exact h.update hstep.sound hstep'.sound hq' (hm.trans hm'.symm)
    | called aim c y g hc hrun hattains =>
      cases hD with
      | called _ c' y' g' hc' hrun' hattains' =>
        have hindexed : g.Indexed := h.factories.indexed.ends (Call.perform_ends hrun) hb
        obtain ⟨hg, hy⟩ := h.factories.attains hattains hattains' hstep.sound.factory
          hstep'.sound.factory hindexed hb hb'
        exact h.called hspends hstep hstep' hg hy

theorem run {as : List (Action Access Callee)} (has : ∀ a ∈ as, ∀ i, Root.function i ∉ a.roots)
    (hb : (C.run as).store.Bounded) (hb' : (D.run as).store.Bounded) :
    (C.run as).Twins (D.run as) := by
  induction as generalizing C D with
  | nil => exact h
  | cons a as ih =>
    have hrest := ((h.sound.step a).sound.run as).extends_store
    have hrest' := ((h.sound'.step a).sound.run as).extends_store
    have hstep := h.step (has a List.mem_cons_self) (hb.anti hrest) (hb'.anti hrest')
    apply ih hstep _ hb hb'
    intro x hx
    exact has x (List.mem_cons_of_mem a hx)

omit h in
theorem start {o : Options} (hC : start { o with reuseNames := true } = .ok C)
    (hD : start { o with reuseNames := false } = .ok D) : C.Twins D := by
  have hsound := Sound.start hC
  have hsound' := Sound.start hD
  obtain rfl := start_eq hC
  obtain rfl := start_eq hD
  have hindexed : Factory.Indexed { names? := some ∅ } := .ofOptions (o := { reuseNames := true }) rfl
  refine ⟨hsound, hsound', ?_, ?_, rfl, rfl⟩
  · exact ⟨hsound.factory, hsound'.factory, hindexed, Option.some_ne_none _, rfl, .empty⟩
  · intro f hf
    cases hf

end Twins

/-- Reusing names is transparent. Two clients, of which one reuses the names of functions, make the
same steps, taking functions only from what they made. At every point both have had the same outcomes,
their products mean the same, and their stores differ in the functions alone: the first has the names
of the second in the order of their first occurrences, and every function stands at the rank of the
name that the other one has. -/
theorem run_transparent {o : Options} (hC : start { o with reuseNames := true } = .ok C)
    (hD : start { o with reuseNames := false } = .ok D) {as bs : List (Action Access Callee)}
    (has : ∀ a ∈ as, ∀ i, Root.function i ∉ a.roots) (hb : (C.run as).store.Bounded)
    (hb' : (D.run as).store.Bounded) (hbs : bs <+: as) :
    let s := (C.run bs).store
    let t := (D.run bs).store
    (C.run bs).history.map Deed.outcome = (D.run bs).history.map Deed.outcome ∧
      (C.run bs).meanings = (D.run bs).meanings ∧
      (s.kinds = t.kinds ∧ s.operands = t.operands ∧ s.numbers = t.numbers ∧
        s.nodes.map Payload.anonymous = t.nodes.map Payload.anonymous) ∧
      s.functions.toList = t.functions.toList.eraseDups ∧
      (∀ (i : Nat) f g q r, s.nodes[i]? = some (.call f q) → t.nodes[i]? = some (.call g r) →
        s.SameName t ⟨f⟩ ⟨g⟩) ∧
      ∀ i f g, (C.run bs).product? i = some (.function f) →
        (D.run bs).product? i = some (.function g) → s.SameName t f g := by
  intro s t
  have hstart := Twins.start hC hD
  obtain ⟨cs, rfl⟩ := hbs
  have hrun (X : Client) : X.run (bs ++ cs) = (X.run bs).run cs := List.foldl_append
  rw [hrun] at hb hb'
  have hext := ((hstart.sound.run bs).sound.run cs).extends_store
  have hext' := ((hstart.sound'.run bs).sound.run cs).extends_store
  have hprefix : ∀ a ∈ bs, ∀ i, Root.function i ∉ a.roots := by
    intro a ha
    exact has a (List.mem_append_left cs ha)
  have h := hstart.run hprefix (hb.anti hext) (hb'.anti hext')
  have hstores : s.Twins t := h.factories.stores
  refine ⟨h.outcomes_eq, h.meanings_eq,
    ⟨hstores.kinds_eq, hstores.operands_eq, hstores.numbers_eq, hstores.anonymous_eq⟩,
    hstores.functions_eq, ?_, ?_⟩
  · intro i f g q r hf hg
    exact hstores.callee_sameName h.sound'.factory.wellFormed hf hg
  · intro i f g hf hg
    exact h.sameName hf hg

def callSample : List (Action Access Callee) :=
  [.construct (.addFunction "f"), .construct (.addFunction "g"), .construct (.addFunction "f"),
    .construct (.beginCall (.made 2) 0), .finish 3]

theorem run_transparent_sample : ∃ C D, start { reuseNames := true } = .ok C ∧ start {} = .ok D ∧
    (C.run callSample).store.nodes = #[.call ⟨0⟩ .empty] ∧
    (D.run callSample).store.nodes = #[.call ⟨2⟩ .empty] ∧
    (C.run callSample).history.map Deed.outcome = (D.run callSample).history.map Deed.outcome := by
  let C : Client := { factory := { names? := some ∅ } }
  let D : Client := { factory := {} }
  have hC : (C.run callSample).store =
      { kinds := #[.call], nodes := #[.call ⟨0⟩ .empty], functions := #["f", "g"] } := by cbv
  have hD : (D.run callSample).store =
      { kinds := #[.call], nodes := #[.call ⟨2⟩ .empty], functions := #["f", "g", "f"] } := by cbv
  have hbounded : (C.run callSample).store.Bounded ∧ (D.run callSample).store.Bounded := by
    rw [hC, hD]
    exact ⟨by constructor <;> decide, by constructor <;> decide⟩
  have hroots : ∀ a ∈ callSample, ∀ i, Root.function i ∉ a.roots := by
    intro a ha i
    simp only [callSample, List.mem_cons, List.not_mem_nil, or_false] at ha
    obtain rfl | rfl | rfl | rfl | rfl := ha <;>
      simp [Action.roots, Construction.roots, Callee.root]
  have h := run_transparent (C := C) (D := D) (o := {}) rfl rfl hroots hbounded.1 hbounded.2
    List.prefix_rfl
  exact ⟨C, D, rfl, rfl, congrArg Store.nodes hC, congrArg Store.nodes hD, h.1⟩

end Client

end ModelExpr
