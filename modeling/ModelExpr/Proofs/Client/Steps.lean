import ModelExpr.Proofs.Client.Sound
import ModelExpr.Proofs.Factory.Gain

namespace ModelExpr

namespace Action

section Drafts

variable {H : View → Type} {F : Type}

def adds? : Action H F → Option Nat
  | .add i _ | .addSlope i _ | .addBreakpoint i _ => some i
  | _ => none

def spends? : Action H F → Option Nat
  | .finish i | .finishTerm i _ => some i
  | _ => none

theorem spends?_of_adds? {a : Action H F} {i : Nat} (h : a.adds? = some i) : a.spends? = none := by
  cases a <;> first | rfl | cases h

end Drafts

def change? (p : Product) : Action Handle FunctionRef → Option (Except Rejection Unit × Product)
  | @Action.add _ _ l _ x => (p.draftOf? l).map fun d => ((Draft.add x).run d).map id .draft
  | .addSlope _ x =>
    match p with
    | .termDraft d => some (((TermDraft.addSlope x).run d).map id .termDraft)
    | _ => none
  | .addBreakpoint _ x =>
    match p with
    | .termDraft d => some (((TermDraft.addBreakpoint x).run d).map id .termDraft)
    | _ => none
  | _ => none

inductive Changes : Action Handle FunctionRef → Product → Except Rejection Unit → Product → Prop where
  | add {l : ListView} {i : Nat} {x : Handle l.element} {d d' : Draft l} {y : Except Rejection Unit}
    (h : (Draft.add x).run d = (y, d')) : Changes (.add i x) (.draft d) y (.draft d')
  | addSlope {i : Nat} {x : Binary64} {d d' : TermDraft} {y : Except Rejection Unit}
    (h : (TermDraft.addSlope x).run d = (y, d')) :
    Changes (.addSlope i x) (.termDraft d) y (.termDraft d')
  | addBreakpoint {i : Nat} {x : Binary64} {d d' : TermDraft} {y : Except Rejection Unit}
    (h : (TermDraft.addBreakpoint x).run d = (y, d')) :
    Changes (.addBreakpoint i x) (.termDraft d) y (.termDraft d')

theorem changes_of_change? {a : Action Handle FunctionRef} {p q : Product}
    {y : Except Rejection Unit} (h : a.change? p = some (y, q)) : a.Changes p y q := by
  cases a with
  | add i x =>
    obtain ⟨d, hd, hy⟩ := Option.map_eq_some_iff.1 h
    obtain rfl := Product.draftOf?_eq_some hd
    cases hy
    exact .add rfl
  | addSlope i x =>
    cases p <;> cases h
    exact .addSlope rfl
  | addBreakpoint i x =>
    cases p <;> cases h
    exact .addBreakpoint rfl
  | _ => cases h

end Action

namespace Client

def call? (C : Client) : Action Handle FunctionRef → Option Call
  | .construct c => some (.construct c)
  | .finish i =>
    match C.product? i with
    | some (.draft d) => some (.finish d)
    | _ => none
  | .finishTerm i x =>
    match C.product? i with
    | some (.termDraft d) => some (.finishTerm d x)
    | _ => none
  | _ => none

theorem call?_of_adds? {C : Client} {a : Action Handle FunctionRef} {i : Nat}
    (h : a.adds? = some i) : C.call? a = none := by
  cases a <;> first | rfl | cases h

def kept (C : Client) (a : Action Handle FunctionRef) : List (Option Product) :=
  match a.spends? with
  | some i => C.products.set i none
  | none => C.products

inductive Goes (C : Client) (a : Action Handle FunctionRef) : Client → Prop where
  | idle (hcall : C.call? a = none)
    (hchange : ∀ i, a.adds? = some i → ((C.product? i).bind fun p => a.change? p) = none) : Goes C a C
  | changed (i : Nat) (p q : Product) (y : Except Rejection Unit) (hi : a.adds? = some i)
    (hp : C.product? i = some p) (hq : a.change? p = some (y, q)) : Goes C a (C.update a i (y, q))
  | called (c : Call) (y : Except Failure Product) (g : Factory) (hc : C.call? a = some c)
    (hrun : c.perform.run C.factory = (y, g)) :
    Goes C a
      { factory := g
        products := C.kept a ++ y.toOption.toList.map some
        history := C.history ++ [⟨a, y.map some⟩] }

variable {C : Client} {a : Action Handle FunctionRef} {i : Nat} {p q : Product}

theorem perform_goes (C : Client) (a : Action Handle FunctionRef) : C.Goes a (C.perform a) := by
  cases a with
  | construct c => exact .called (.construct c) _ _ rfl rfl
  | @add l i x =>
    simp only [perform]
    split
    case h_1 d hd =>
      obtain ⟨p, hp, hd⟩ := Option.bind_eq_some_iff.1 hd
      exact .changed i p _ _ rfl hp (Option.map_eq_some_iff.2 ⟨d, hd, rfl⟩)
    case h_2 hnone =>
      refine .idle rfl ?_
      rintro j ⟨⟩
      cases hp : C.product? i with
      | none => rfl
      | some p =>
        rw [hp] at hnone
        exact congrArg (Option.map _) hnone
  | addSlope i x | addBreakpoint i x =>
    simp only [perform]
    split
    case h_1 d hd => exact .changed i _ _ _ rfl hd rfl
    case h_2 hother =>
      refine .idle rfl ?_
      rintro j ⟨⟩
      cases hp : C.product? i with
      | none => rfl
      | some p =>
        cases p with
        | termDraft d => exact absurd hp (hother d)
        | _ => rfl
  | finish i =>
    simp only [perform]
    split
    case h_1 l d hd => exact .called (.finish d) _ _ (by simp only [call?, hd]) rfl
    case h_2 hother =>
      refine .idle ?_ (by rintro j ⟨⟩)
      simp only [call?]
  | finishTerm i x =>
    simp only [perform]
    split
    case h_1 d hd => exact .called (.finishTerm d x) _ _ (by simp only [call?, hd]) rfl
    case h_2 hother =>
      refine .idle ?_ (by rintro j ⟨⟩)
      simp only [call?]

theorem start_eq {o : Options} (h : start o = .ok C) :
    C = { factory := { names? := if o.reuseNames then some ∅ else none } } := by
  obtain ⟨f, hf, h⟩ := bind_eq_ok.1 h
  cases h
  rw [Factory.ofOptions_eq hf]

theorem join_kept (C : Client) (a : Action Handle FunctionRef) (k : Nat) :
    (C.kept a)[k]?.join = if a.spends? = some k then none else C.product? k := by
  unfold kept
  split
  case h_1 j hj =>
    rw [hj, List.getElem?_set, product?]
    by_cases h : j = k
    · rw [if_pos h, if_pos (congrArg some h)]
      split <;> rfl
    · rw [if_neg h, if_neg fun he => h (Option.some.inj he)]
  case h_2 hnone =>
    rw [hnone, if_neg (Option.some_ne_none k).symm]
    rfl

theorem product?_kept (h : (C.kept a)[i]?.join = some p) : C.product? i = some p := by
  rw [join_kept] at h
  split at h
  · cases h
  · exact h

theorem product?_kept_append {y : Except Failure Product}
    (h : (C.kept a ++ y.toOption.toList.map some)[i]?.join = some p) :
    C.product? i = some p ∨ y = .ok p := by
  rw [Option.join_eq_some_iff, List.getElem?_append] at h
  split at h
  · left
    exact product?_kept (Option.join_eq_some_iff.2 h)
  · right
    obtain ⟨q, hq, hqp⟩ := List.mem_map.1 (List.mem_of_getElem? h)
    cases hqp
    exact toOption_eq_some.1 (Option.mem_toList.1 hq)

theorem length_kept (C : Client) (a : Action Handle FunctionRef) :
    (C.kept a).length = C.products.length := by
  unfold kept
  split
  · exact List.length_set
  · rfl

theorem product?_new (C : Client) (a : Action Handle FunctionRef) (y : Except Failure Product) :
    (C.kept a ++ y.toOption.toList.map some)[C.products.length]?.join = y.toOption := by
  rw [List.getElem?_append_right (Nat.le_of_eq (C.length_kept a)), length_kept, Nat.sub_self]
  cases y <;> rfl

def Within (C : Client) : Prop := ∀ i p, C.product? i = some p → p.Within

end Client

theorem Product.Within.change {a : Action Handle FunctionRef} {p q : Product}
    {y : Except Rejection Unit} (hp : p.Within) (h : a.change? p = some (y, q)) : q.Within := by
  cases Action.changes_of_change? h with
  | add hrun => exact Draft.Within.add hp hrun
  | addSlope hrun => exact TermDraft.Within.addSlope hp hrun
  | addBreakpoint hrun => exact TermDraft.Within.addBreakpoint hp hrun

theorem Product.eq_of_change {a : Action Handle FunctionRef} {p q : Product} {e : Rejection}
    (h : a.change? p = some (.error e, q)) : q = p := by
  cases Action.changes_of_change? h with
  | add hrun => exact congrArg Product.draft (Draft.add_error hrun)
  | addSlope hrun => exact congrArg Product.termDraft (TermDraft.addSlope_error hrun)
  | addBreakpoint hrun => exact congrArg Product.termDraft (TermDraft.addBreakpoint_error hrun)

namespace Client

variable {C : Client} {a : Action Handle FunctionRef}

theorem Within.call (hC : C.Within) {c : Call} (h : C.call? a = some c) : c.Within := by
  cases a with
  | construct =>
    cases h
    trivial
  | finish | finishTerm =>
    simp only [call?] at h
    split at h <;> cases h
    exact hC _ _ ‹_›
  | _ => cases h

theorem Within.perform (hC : C.Within) (a : Action Handle FunctionRef) : (C.perform a).Within := by
  have hgoes := perform_goes C a
  generalize C.perform a = D at hgoes
  cases hgoes with
  | idle => exact hC
  | changed i p q y hi hp hq =>
    intro j r hr
    obtain hr | rfl := product?_update hr
    · exact hC j r hr
    · exact (hC i p hp).change hq
  | called c y g hc hrun =>
    intro j r hr
    obtain hr | rfl := product?_kept_append hr
    · exact hC j r hr
    · exact Call.perform_within hrun

end Client

end ModelExpr
