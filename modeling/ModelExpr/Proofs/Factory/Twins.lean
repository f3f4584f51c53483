import ModelExpr.Proofs.Factory.Aim
import ModelExpr.Proofs.Store.Twins

namespace ModelExpr.Factory

structure Twins (f f' : Factory) : Prop where
  sound : f.Sound
  sound' : f'.Sound
  indexed : f.Indexed
  reuses : f.names? ≠ none
  repeats : f'.names? = none
  stores : f.store.Twins f'.store

structure Alike (g g' : Factory) (y y' : Except Failure Product) : Prop where
  meaning_eq : y.map (·.meaning g.store fun r => r) = y'.map (·.meaning g'.store fun r => r)
  named : ∀ x, y' = .ok (.function x) → g'.store.name? x ≠ none

variable {f f' g g' : Factory} {aim : Except Rejection (Aim Ref)} {y y' : Except Failure Product}

theorem Alike.failed (g g' : Factory) (e : Failure) : g.Alike g' (.error e) (.error e) := by
  refine ⟨rfl, ?_⟩
  intro x hx
  cases hx

theorem Alike.function {name : String} {x x' : FunctionRef} (hx : g.store.name? x = some name)
    (hx' : g'.store.name? x' = some name) :
    g.Alike g' (.ok (.function x)) (.ok (.function x')) := by
  constructor
  · simp only [Except.map, Product.meaning, hx, hx']
  · intro z hz
    cases hz
    rw [hx']
    exact Option.some_ne_none name

namespace Twins

theorem next_eq (h : f.Twins f') (k : Kind) : f.store.next k = f'.store.next k := by
  rw [Store.next, Store.next, h.stores.size_eq]

theorem unknown (h : f.Twins f') (name : String) : f'.known? name = none := by
  rw [known?, h.repeats]
  rfl

theorem not_mem (h : f.Twins f') {name : String} (hname : f.known? name = none) :
    name ∉ f.store.functions.toList := by
  intro hmem
  exact h.indexed.known h.reuses name hmem hname

theorem mem (h : f.Twins f') {name : String} {x : FunctionRef} (hx : f.known? name = some x.id) :
    name ∈ f.store.functions.toList := by
  obtain ⟨-, hfunction⟩ := Store.name?_eq_some.1 (h.indexed.name_eq name x.id hx)
  rw [← Array.getElem?_toList] at hfunction
  exact List.mem_of_getElem? hfunction

theorem of_stores (h : f.Twins f') (hg : g.Sound) (hg' : g'.Sound) (hindexed : g.Indexed)
    (hnames : g.names? = f.names?) (hnames' : g'.names? = f'.names?)
    (hstores : g.store.Twins g'.store) : g.Twins g' := by
  refine ⟨hg, hg', hindexed, ?_, ?_, hstores⟩
  · rw [hnames]
    exact h.reuses
  · rw [hnames']
    exact h.repeats

theorem attains (h : f.Twins f') (ha : f.Attains (fun r => r) g aim y)
    (ha' : f'.Attains (fun r => r) g' aim y') (hg : g.Sound) (hg' : g'.Sound)
    (hindexed : g.Indexed) (hb : g.store.Bounded) (hb' : g'.store.Bounded) :
    g.Twins g' ∧ g.Alike g' y y' := by
  cases ha with
  | refused r hstays =>
    cases ha' with
    | refused r hstays' =>
      have hstores : g.store.Twins g'.store := by
        rw [hstays.store_eq, hstays'.store_eq]
        exact h.stores
      exact ⟨h.of_stores hg hg' hindexed hstays.names_eq hstays'.names_eq hstores, .failed g g' _⟩
  | laid v k n form hform hlays =>
    cases ha' with
    | laid v k n' form hform' hlays' =>
      have hstores : g.store.Twins g'.store := by
        rw [hlays.store_eq, hlays'.store_eq]
        exact h.stores.lay (hform.trans hform'.symm)
      refine ⟨h.of_stores hg hg' hindexed hlays.names_eq hlays'.names_eq hstores, ?_, ?_⟩
      · rw [h.next_eq]
        rfl
      · intro x hx
        cases hx
  | known name x hx hgf =>
    cases ha' with
    | known name x' hx' => cases (h.unknown name).symm.trans hx'
    | registered name x' hx' =>
      -- the second factory repeats a name that both have, and first occurrences stay
      have hstores : g.store.Twins g'.store := by
        rw [hgf, hx'.store_eq]
        exact h.stores.pushKnown h.sound'.wellFormed (h.mem hx)
      have hname : g.store.name? x = some name := by
        rw [hgf]
        exact h.indexed.name_eq name x.id hx
      have hrepeats : g'.names? = none := by
        rw [hx'.names_eq, h.repeats]
        rfl
      refine ⟨⟨hg, hg', hindexed, ?_, hrepeats, hstores⟩, .function hname (hx'.name?_eq hb')⟩
      rw [hgf]
      exact h.reuses
  | registered name x hx =>
    cases ha' with
    | known name x' hx' => cases (h.unknown name).symm.trans hx'
    | registered name x' hx' =>
      have hstores : g.store.Twins g'.store := by
        rw [hx.store_eq, hx'.store_eq]
        exact h.stores.pushNew h.sound.wellFormed h.sound'.wellFormed (h.not_mem hx.unknown)
      have hreuses : g.names? ≠ none := by
        rw [hx.names_eq, ne_eq, Option.map_eq_none_iff]
        exact h.reuses
      have hrepeats : g'.names? = none := by
        rw [hx'.names_eq, h.repeats]
        rfl
      exact ⟨⟨hg, hg', hindexed, hreuses, hrepeats, hstores⟩,
        .function (hx.name?_eq hb) (hx'.name?_eq hb')⟩
  | drafted q m hq hm hgf =>
    cases ha' with
    | drafted q' m hq' hm' hgf' =>
      subst hgf hgf'
      refine ⟨h, ?_, ?_⟩
      · exact congrArg Except.ok (hm.trans hm'.symm)
      · intro x hx
        cases hx
        cases hq'

end Twins

end ModelExpr.Factory
