import ModelExpr.Proofs.Client.Steps
import ModelExpr.Proofs.Factory.Issued
import ModelExpr.Proofs.Store.Twins

namespace ModelExpr

section Distinct

variable {α β γ : Type} [DecidableEq β] [DecidableEq γ] {f : α → β} {g : α → γ}

theorem length_eraseDups_map (xs : List α)
    (h : ∀ x ∈ xs, ∀ y ∈ xs, f x = f y ↔ g x = g y) :
    (xs.map f).eraseDups.length = (xs.map g).eraseDups.length := by
  induction xs using List.reverseRecOn with
  | nil => rfl
  | append_singleton xs x ih =>
    have hold := ih fun y hy z hz => h y (List.mem_append_left _ hy) z (List.mem_append_left _ hz)
    have hmem : f x ∈ xs.map f ↔ g x ∈ xs.map g := by
      simp only [List.mem_map]
      apply exists_congr
      intro y
      apply and_congr_right
      intro hy
      exact h y (List.mem_append_left _ hy) x (List.mem_append_right _ (List.mem_singleton_self x))
    simp only [List.map_append, List.map_cons, List.map_nil, eraseDups_concat]
    by_cases hx : f x ∈ xs.map f
    · rw [if_pos hx, if_pos (hmem.1 hx), hold]
    · rw [if_neg hx, if_neg (mt hmem.2 hx), List.length_append, List.length_append, hold]
      rfl

end Distinct

namespace Handle

variable {s : Store} {v w : View} {x : Handle v} {y : Handle w}

theorem recast_expr (x : Handle v) : x.recast .expr = .ok x.upcast := by
  unfold recast
  split
  · rfl
  · obtain ⟨_ | r⟩ := x <;> rfl

theorem cast_congr (h : y.ref? = x.ref?) (u : View) : y.cast u = x.cast u := by
  rw [cast, cast, h]

theorem Known.recast_eq_cast (hx : x.Known s) (w : View) : x.recast w = x.cast w := by
  unfold Handle.recast
  split
  case isTrue hw =>
    obtain ⟨_ | r⟩ := x
    · rfl
    · obtain ⟨hv, -⟩ := hx.of_ofRef
      exact (if_pos (View.accepts_of_widensTo hw hv)).symm
  case isFalse => rfl

theorem Known.cast_self (hx : x.Known s) : x.cast v = .ok x := by
  obtain ⟨_ | r⟩ := x
  · rfl
  · exact if_pos hx.of_ofRef.1

theorem Known.recast_recast (hx : x.Known s) (hy : x.recast w = .ok y) :
    y.upcast = x.upcast ∧ y.recast v = .ok x ∧ ∀ u, y.recast u = x.recast u := by
  have hknown := hx.recast hy
  obtain ⟨href, -⟩ := recast_eq_ok hy
  refine ⟨congrArg Handle.mk href, ?_, ?_⟩
  · rw [hknown.recast_eq_cast, cast_congr href, hx.cast_self]
  · intro u
    rw [hknown.recast_eq_cast, hx.recast_eq_cast, cast_congr href]

theorem Known.id_ne_invalid {r : Ref} (hx : (Handle.ofRef r : Handle v).Known s)
    (hroom : s.kinds.size < UInt32.size) : r.id ≠ .invalid := by
  intro hinvalid
  obtain ⟨-, hholds⟩ := hx.of_ofRef
  have hlt : r.id.index < s.kinds.size := (Array.getElem?_eq_some_iff.1 hholds).1
  have hlast : r.id.index = UInt32.size - 1 := by
    rw [hinvalid]
    rfl
  omega

theorem id_of_isNull (h : x.isNull = true) : x.id = .invalid := by
  rw [id, Option.isNone_iff_eq_none.1 h]

theorem Known.upcast_eq_iff (hx : x.Known s) (hy : y.Known s)
    (hroom : s.kinds.size < UInt32.size) : x.upcast = y.upcast ↔ x.id = y.id := by
  constructor
  · exact congrArg (@Handle.id .expr)
  · intro h
    obtain ⟨_ | r⟩ := x <;> obtain ⟨_ | t⟩ := y
    · rfl
    · exact absurd h.symm (hy.id_ne_invalid hroom)
    · exact absurd h (hx.id_ne_invalid hroom)
    · obtain ⟨i, k⟩ := r
      obtain ⟨j, l⟩ := t
      obtain rfl : i = j := h
      have hk : s.kind? i = some k := hx.of_ofRef.2
      have hl : s.kind? i = some l := hy.of_ofRef.2
      rw [Option.some.inj (hk.symm.trans hl)]
      rfl

end Handle

namespace Client

variable {C : Client} {as : List (Action Access Callee)}

def handles (C : Client) : List AnyHandle := issued (C.history.map (·.answer))

def Obtains (C : Client) (as : List (Action Access Callee)) {v : View} (x : Handle v) : Prop :=
  ∃ bs, bs <+: as ∧ ∃ a : Access v, a.eval (C.run bs) = some x

theorem Obtains.of_eval {v : View} {a : Access v} {x : Handle v}
    (ha : a.eval (C.run as) = some x) : C.Obtains as x :=
  ⟨as, List.prefix_rfl, a, ha⟩

theorem Sound.obtains_known (hC : C.Sound) {v : View} {x : Handle v} (hx : C.Obtains as x) :
    x.Known (C.run as).store := by
  obtain ⟨bs, ⟨cs, rfl⟩, a, ha⟩ := hx
  have hbs := (hC.run bs).sound
  have hlater : (C.run bs).store.Extends (C.run (bs ++ cs)).store := by
    have happend : C.run (bs ++ cs) = (C.run bs).run cs := List.foldl_append
    exact happend ▸ (hbs.run cs).extends_store
  exact (hbs.access_known a ha).mono hlater

def Issues (C : Client) : Prop := C.factory.Issued (C.history.map (·.answer))

theorem Issues.perform (hC : C.Issues) (a : Action Handle FunctionRef) : (C.perform a).Issues := by
  have hgoes := perform_goes C a
  generalize C.perform a = D at hgoes
  cases hgoes with
  | idle => exact hC
  | changed i p q y hi hp hq =>
    unfold Issues
    rw [update, List.map_append]
    exact Factory.Issued.change hC y
  | called c y g hc hrun =>
    unfold Issues
    rw [List.map_append]
    exact Factory.Issued.call hC (Call.perform_ends hrun)

theorem Issues.run (hC : C.Issues) (as : List (Action Access Callee)) : (C.run as).Issues := by
  induction as generalizing C with
  | nil => exact hC
  | cons a as ih =>
    apply ih
    unfold step
    split
    · exact hC.perform _
    · exact hC

theorem Issues.start {o : Options} (h : start o = .ok C) : C.Issues := by
  obtain ⟨f, hf, h⟩ := bind_eq_ok.1 h
  cases h
  exact .ofOptions hf

/-- Calls return different handles, numbered from 0, and looking a position up gives the handle that
was returned for it. Whatever other handles the client comes by, and by whatever casts, they are equal
exactly when their positions are. -/
theorem run_identity {o : Options} (h : start o = .ok C) (as : List (Action Access Callee))
    (hroom : (C.run as).store.nodes.size < UInt32.size) :
    let D := C.run as
    (D.handles.length = D.store.nodes.size ∧ (D.handles.map fun x => x.2.upcast).Nodup ∧
        (∀ (i : Nat) (x : AnyHandle), D.handles[i]? = some x → x.2.isNull = false ∧ x.2.id.index = i) ∧
          ∀ i, D.store.expr? i = D.handles[i.index]?.map (·.2.upcast)) ∧
      (∀ {v w : View} (x : Handle v) (y : Handle w), C.Obtains as x → C.Obtains as y →
        (x.upcast = y.upcast ↔ x.isNull = true ∧ y.isNull = true ∨ x.id = y.id)) ∧
      (∀ {v : View} (x : Handle v), C.Obtains as x → x.recast .expr = .ok x.upcast ∧
        ∀ (w : View) y, x.recast w = .ok y →
          y.upcast = x.upcast ∧ y.recast v = .ok x ∧ ∀ u, y.recast u = x.recast u) ∧
      ∀ xs : List AnyHandle, (∀ x ∈ xs, C.Obtains as x.2) →
        (xs.map fun x => x.2.upcast).eraseDups.length = (xs.map fun x => x.2.id).eraseDups.length := by
  intro D
  have hissues : D.factory.Issued _ := (Issues.start h).run as
  have hknown {v : View} {x : Handle v} (hx : C.Obtains as x) : x.Known D.store :=
    (Sound.start h).obtains_known hx
  have hkinds : D.store.kinds.size < UInt32.size := hissues.size_eq ▸ hroom
  refine ⟨⟨hissues.length_eq, hissues.nodup, ?_, hissues.lookup⟩, ?_, ?_, ?_⟩
  · intro i x hx
    exact hissues.index_eq hx
  · intro v w x y hx hy
    rw [(hknown hx).upcast_eq_iff (hknown hy) hkinds]
    constructor
    · exact .inr
    · rintro (⟨hnull, hnull'⟩ | hid)
      · rw [Handle.id_of_isNull hnull, Handle.id_of_isNull hnull']
      · exact hid
  · intro v x hx
    refine ⟨x.recast_expr, ?_⟩
    intro w y hy
    exact (hknown hx).recast_recast hy
  · intro xs hxs
    apply length_eraseDups_map
    intro x hx y hy
    exact (hknown (hxs x hx)).upcast_eq_iff (hknown (hxs y hy)) hkinds

theorem run_identity_sample : ∃ C, start {} = .ok C ∧
    let x : Handle .decisionVariable := .ofRef ⟨⟨0⟩, .decisionVariable⟩
    let y : Handle .numeric := .ofRef ⟨⟨0⟩, .decisionVariable⟩
    let z : Handle .numberOf := .ofRef ⟨⟨2⟩, .numberOf⟩
    let set : List AnyHandle := [⟨_, x⟩, ⟨_, y⟩, ⟨_, z⟩, ⟨.expr, .null⟩]
    (C.run sample).handles.length = 4 ∧ (C.run sample).store.expr? ⟨2⟩ = some z.upcast ∧
      C.Obtains sample y ∧ x.upcast = y.upcast ∧ y.recast .decisionVariable = .ok x ∧
        (set.map fun h => h.2.upcast).eraseDups.length = 3 := by
  let C : Client := { factory := {} }
  refine ⟨C, rfl, ?_⟩
  intro x y z set
  obtain ⟨⟨hlength, -, -, hlookup⟩, hequal, hcast, hdistinct⟩ :=
    run_identity (o := {}) (C := C) rfl sample (by decide)
  have hx : C.Obtains sample x := .of_eval (a := .made _ 0) (by decide +kernel)
  have hy : C.Obtains sample y :=
    .of_eval (a := .operand (l := .numberOf) (.made _ 3) [] (.front 1)) (by decide +kernel)
  have hz : C.Obtains sample z := .of_eval (a := .made _ 3) (by decide +kernel)
  have hnull : C.Obtains sample (.null : Handle .expr) := .of_eval (a := .null _) rfl
  obtain ⟨-, hback, -⟩ := (hcast x hx).2 .numeric y rfl
  refine ⟨?_, ?_, hy, (hequal x y hx hy).2 (.inr rfl), hback, ?_⟩
  · rw [hlength]
    decide +kernel
  · rw [hlookup]
    decide +kernel
  · rw [hdistinct set (by simp [set, hx, hy, hz, hnull])]
    rfl

end Client

end ModelExpr
