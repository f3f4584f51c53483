import ModelExpr.Proofs.Client.Renaming
import ModelExpr.Proofs.Script.Picture

namespace ModelExpr

theorem Factory.Attains.meaning_eq {f g : Factory} {aim : Except Rejection (Aim Tree)}
    {y : Except Failure Product} (h : f.Attains f.store.tree g aim y) (hf : f.Sound) (hg : g.Sound)
    (hindexed : f.Indexed) (hb : g.store.Bounded) :
    y.map (·.meaning g.store g.store.tree) = (aim.map Aim.meaning).mapError .rejected := by
  have hfunction {name : String} {x : FunctionRef} (hx : g.store.name? x = some name) :
      (Except.ok (.function x) : Except Failure Product).map (·.meaning g.store g.store.tree) =
        .ok (.function (some name)) := by
    simp only [Except.map, Product.meaning, hx]
  cases h with
  | refused r hstays => rfl
  | laid v k n form hform hlays =>
    have htree : g.store.tree (f.store.next k) = .node k form := by
      have hwf := hg.wellFormed
      rw [hlays.store_eq] at hwf ⊢
      rw [hf.wellFormed.tree_lay hlays.room hwf, hform]
    simp only [Except.map, Except.mapError, Product.meaning, Handle.value, Handle.ofRef,
      Option.map_some, htree, Aim.meaning]
  | known name x hx hgf =>
    apply hfunction
    rw [hgf]
    exact hindexed.name_eq name x.id hx
  | registered name x hx => exact hfunction (hx.name?_eq hb)
  | drafted q m hq hm hgf =>
    subst hgf
    exact congrArg Except.ok hm

theorem Result.called_eq {s : Store} {aim : Except Rejection (Aim Tree)} {y : Except Failure Product}
    (h : y.map (·.meaning s s.tree) = (aim.map Aim.meaning).mapError .rejected) :
    y.toOption.map (·.meaning s s.tree) = (called aim).made? ∧
      some ((y.map some).map fun p? => p?.map (·.meaning s s.tree)) = (called aim).answer? := by
  cases y with
  | error e =>
    cases aim <;> cases h
    exact ⟨rfl, rfl⟩
  | ok p =>
    cases aim with
    | error e => cases h
    | ok m =>
      have hm : p.meaning s s.tree = m.meaning := Except.ok.inj h
      refine ⟨congrArg some hm, ?_⟩
      exact congrArg (fun m => some (Except.ok (some m))) hm

namespace Client

variable {C D : Client} {a : Action Handle FunctionRef} {i : Nat}

def trees (C : Client) : Outlook Tree where
  kind := Tree.kind
  form? t := some t.form
  lookup? _ := none
  meaning? i := (C.product? i).map (·.meaning C.store C.store.tree)

theorem Sound.seen_trees (hC : C.Sound) : C.Seen C.store.tree C.trees := by
  have hs : C.store.WellFormed := hC.factory.wellFormed
  refine ⟨C.store.kind_tree, ?_, fun _ => rfl⟩
  intro r hr
  exact hs.form_tree hr

theorem shows_trees {r : Root} (hr : r.own) : C.Shows C.store.tree C.trees r := by
  cases r with
  | null | made => trivial
  | expr | function => cases hr

theorem Sound.tree_later (hC : C.Sound) {t : Store} (ht : t.WellFormed) (h : C.store.Extends t)
    {p : Product} (hp : p.Sound C.store) :
    p.meaning t t.tree = p.meaning C.store C.store.tree := by
  have hs : C.store.WellFormed := hC.factory.wellFormed
  exact hp.meaning_eq h fun r hr => hs.tree_later ht h hr

/-- A step to `D` yields the result: what it makes comes after the other products, and it leaves of
its draft what the result says. -/
structure Yields (C : Client) (draft? : Option Nat) (result : Result Tree) (D : Client) : Prop where
  length_le : C.products.length ≤ D.products.length
  made : D.trees.meaning? C.products.length = result.made?
  left : ∀ i < C.products.length, D.trees.meaning? i =
    if draft? = some i then result.left? (C.trees.meaning? i) else C.trees.meaning? i
  answer : (D.history[C.history.length]?.map fun d =>
    d.answer.map fun p? => p?.map (·.meaning D.store D.store.tree)) = result.answer?

theorem trees_length (C : Client) : C.trees.meaning? C.products.length = none := by
  have hnone : C.product? C.products.length = none := by
    rw [product?, List.getElem?_eq_none (Nat.le_refl _)]
    rfl
  exact congrArg (Option.map _) hnone

namespace Yields

theorem idle (C : Client) (draft? : Option Nat) : C.Yields draft? .idle C := by
  refine ⟨Nat.le_refl _, C.trees_length, ?_, ?_⟩
  · intro i hi
    split <;> rfl
  · rw [List.getElem?_eq_none (Nat.le_refl _)]
    rfl

theorem changed {p q : Product} {y : Except Rejection Unit} (ha : a.adds? = some i)
    (hp : C.product? i = some p) :
    C.Yields a.draft? (.changed y (q.meaning C.store C.store.tree)) (C.update a i (y, q)) := by
  have hlength : (C.update a i (y, q)).products.length = C.products.length := List.length_set
  have hlt : i < C.products.length :=
    (List.getElem?_eq_some_iff.1 (Option.join_eq_some_iff.1 hp)).1
  rw [Action.draft?_of_adds? ha]
  refine ⟨Nat.le_of_eq hlength.symm, ?_, ?_, ?_⟩
  · rw [← hlength]
    exact trees_length _
  · intro j hj
    change ((C.products.set i (some q))[j]?.join).map _ = _
    by_cases h : i = j
    · subst h
      rw [List.getElem?_set_self hlt, if_pos rfl]
      rfl
    · rw [List.getElem?_set_ne h, if_neg fun he => h (Option.some.inj he)]
      rfl
  · change ((C.history ++ [_])[C.history.length]?).map _ = _
    rw [List.getElem?_concat_length]
    cases y <;> rfl

theorem called (hC : C.Sound) (hindexed : C.factory.Indexed) {c : Call} {g : Factory}
    {aim : Except Rejection (Aim Tree)} {y : Except Failure Product} (ha : C.call? a = some c)
    (h : C.factory.Attains C.store.tree g aim y) (hg : g.Sound) (hext : C.store.Extends g.store)
    (hb : g.store.Bounded) :
    C.Yields a.draft? (.called aim)
      ⟨g, C.kept a ++ y.toOption.toList.map some, C.history ++ [⟨a, y.map some⟩]⟩ := by
  obtain ⟨hmade, hanswer⟩ := Result.called_eq (h.meaning_eq hC.factory hg hindexed hb)
  have hlength := C.length_kept a
  rw [Action.draft?_of_call? ha]
  refine ⟨?_, ?_, ?_, ?_⟩
  · rw [List.length_append, hlength]
    exact Nat.le_add_right _ _
  · change ((C.kept a ++ _)[C.products.length]?.join).map _ = _
    rw [product?_new]
    exact hmade
  · intro i hi
    change ((C.kept a ++ _)[i]?.join).map (·.meaning g.store g.store.tree) = _
    rw [List.getElem?_append_left (hlength.symm ▸ hi), join_kept]
    -- a draft that was finished is gone, and every other product keeps its meaning
    split
    · rfl
    · cases hp : C.product? i with
      | none => simp only [trees, hp, Option.map_none]
      | some p =>
        have hlater := hC.tree_later hg.wellFormed hext (hC.product i p hp)
        simp only [trees, hp, Option.map_some, hlater]
  · change ((C.history ++ [_])[C.history.length]?).map _ = _
    rw [List.getElem?_concat_length]
    exact hanswer

end Yields

theorem step_yields (hC : C.Sound) (hindexed : C.factory.Indexed) {a : Action Access Callee}
    (ha : ∀ r ∈ a.roots, r.own) (hb : (C.step a).store.Bounded) :
    C.Yields a.draft? (C.trees.result a) (C.step a) ∧ (C.step a).factory.Indexed ∧
      ∀ d p, (C.step a).history[C.history.length]? = some d → d.answer = .ok (some p) →
        p.Sound (C.step a).store := by
  have hstep := hC.step a
  have hrealises := step_realises hC hC.seen_trees (fun r hr => shows_trees (ha r hr)) hb
  obtain ⟨hnone, hD⟩ | ⟨b, -, hdraft, -, hrealises⟩ := hrealises
  · have hresult : C.trees.result a = .idle := by rw [Outlook.result, hnone]
    rw [hD, hresult]
    refine ⟨.idle C _, hindexed, ?_⟩
    rw [List.getElem?_eq_none (Nat.le_refl _)]
    rintro d p ⟨⟩
  · refine ⟨?_, hrealises.indexed hindexed hb, fun d p => hrealises.sound_answer hstep.sound⟩
    rw [← hdraft]
    generalize C.trees.result a = result at hrealises
    generalize C.step a = D at hrealises hstep hb
    cases hrealises with
    | idle => exact .idle C _
    | changed i p q y m hi hp hq hm =>
      subst hm
      exact .changed hi hp
    | called aim c y g hc hrun h =>
      exact .called hC hindexed hc h hstep.sound.factory hstep.extends_store hb

end Client

theorem Outlook.left?_result {E : Outlook Tree} {a : Action Access Callee} {k : Nat}
    (ha : a.draft? = some k) (hk : E.meaning? k = none) : (E.result a).left? none = none := by
  rw [result]
  split
  case h_1 b hb =>
    have hdraft := Action.draft?_mapM hb
    rw [ha, Option.bind_some, hk]
    cases b with
    | construct c => cases hdraft.trans ha
    | _ => rfl
  case h_2 => rfl

end ModelExpr
