import ModelExpr.Proofs.Client.Outlook

namespace ModelExpr

def Action.draft? {H : View → Type} {F : Type} : Action H F → Option Nat
  | .construct _ => none
  | .add i _ | .addSlope i _ | .addBreakpoint i _ | .finish i | .finishTerm i _ => some i

section Drafts

variable {C : Client} {a : Action Handle FunctionRef} {i : Nat}

theorem Action.draft?_of_adds? (h : a.adds? = some i) : a.draft? = some i := by
  cases a <;> first | exact h | cases h

theorem Action.draft?_of_call? {c : Call} (h : C.call? a = some c) : a.draft? = a.spends? := by
  cases a <;> first | rfl | cases h

end Drafts

inductive Result (M : Type) where
  | idle
  | changed (answer : Except Rejection Unit) (draft : Meaning M)
  | called (aim : Except Rejection (Aim M))

section Results

variable {M : Type}

def Outline.add (d : Outline M) : Option M → Except Rejection Unit × Outline M
  | none => (.error (.invalidArgument .argument), d)
  | some x =>
    if d.operands.length = d.declared then (.error (.overflow .argument), d)
    else (.ok (), { d with operands := d.operands ++ [x] })

def Action.result (a : Action (fun _ => Option M) (Option String)) (draft? : Option (Meaning M)) :
    Result M :=
  match a, draft? with
  | .construct c, _ => .called c.aim
  | @Action.add _ _ l _ x, some (.draft d) =>
    if d.list = l then .changed (d.add x).1 (.draft (d.add x).2) else .idle
  | .addSlope _ x, some (.termDraft d) =>
    .changed ((TermDraft.addSlope x).run d).1 (.termDraft ((TermDraft.addSlope x).run d).2)
  | .addBreakpoint _ x, some (.termDraft d) =>
    .changed ((TermDraft.addBreakpoint x).run d).1 (.termDraft ((TermDraft.addBreakpoint x).run d).2)
  | .finish _, some (.draft d) => .called d.aim
  | .finishTerm _ x, some (.termDraft d) => .called (d.aim x)
  | _, _ => .idle

def Outlook.result (E : Outlook M) (a : Action Access Callee) : Result M :=
  match a.mapM (fun _ => Access.value E) (Callee.value E) with
  | some b => b.result (a.draft?.bind E.meaning?)
  | none => .idle

end Results

namespace Client

variable {M : Type} {C : Client} {μ : Ref → M} {a : Action Handle FunctionRef}

inductive Realises (C : Client) (μ : Ref → M) (a : Action Handle FunctionRef) :
    Result M → Client → Prop where
  | idle : Realises C μ a .idle C
  | changed (i : Nat) (p q : Product) (y : Except Rejection Unit) (m : Meaning M)
    (hi : a.adds? = some i) (hp : C.product? i = some p) (hq : a.change? p = some (y, q))
    (hm : q.meaning C.store μ = m) : Realises C μ a (.changed y m) (C.update a i (y, q))
  | called (aim : Except Rejection (Aim M)) (c : Call) (y : Except Failure Product) (g : Factory)
    (hc : C.call? a = some c) (hrun : c.perform.run C.factory = (y, g))
    (h : C.factory.Attains μ g aim y) :
    Realises C μ a (.called aim)
      { factory := g
        products := C.kept a ++ y.toOption.toList.map some
        history := C.history ++ [⟨a, y.map some⟩] }

namespace Realises

variable {D : Client} {result : Result M}

theorem indexed (h : C.Realises μ a result D) (hC : C.factory.Indexed) (hb : D.store.Bounded) :
    D.factory.Indexed := by
  cases h with
  | idle | changed => exact hC
  | called aim c y g hc hrun => exact hC.ends (Call.perform_ends hrun) hb

theorem sound_answer (h : C.Realises μ a result D) (hD : D.Sound) {d : Deed} {p : Product}
    (hd : D.history[C.history.length]? = some d) (hp : d.answer = .ok (some p)) :
    p.Sound D.store := by
  cases h with
  | idle =>
    rw [List.getElem?_eq_none (Nat.le_refl _)] at hd
    cases hd
  | changed i q r y =>
    change (C.history ++ [_])[C.history.length]? = some d at hd
    rw [List.getElem?_concat_length] at hd
    cases hd
    cases y <;> cases hp
  | called aim c y g =>
    rw [List.getElem?_concat_length] at hd
    cases hd
    apply hD.product C.products.length
    change (C.kept a ++ _)[C.products.length]?.join = some p
    rw [product?_new]
    cases y <;> cases hp
    rfl

end Realises

end Client

section Steps

variable {M : Type} {C : Client} {s : Store} {μ : Ref → M} {a : Action Handle FunctionRef}

theorem Draft.add_outline {l : ListView} (d : Draft l) (x : Handle l.element) :
    ((Draft.add x).run d).1 = ((d.outline s μ).add (x.value μ)).1 ∧
      ((Draft.add x).run d).2.outline s μ = ((d.outline s μ).add (x.value μ)).2 := by
  have hsize : (d.outline s μ).operands.length = d.operands.size := by simp [outline]
  rw [add_run]
  obtain ⟨_ | r⟩ := x
  · exact ⟨rfl, rfl⟩
  · simp only [Handle.require, Handle.value, Option.map_some, Outline.add, hsize]
    change _ = (if d.operands.size = d.declared then _ else _ : Except Rejection Unit × Outline M).1 ∧
      _ = (if d.operands.size = d.declared then _ else _ : Except Rejection Unit × Outline M).2
    split
    · exact ⟨rfl, rfl⟩
    · refine ⟨rfl, ?_⟩
      simp [outline]

def Client.draftMeaning? (C : Client) (μ : Ref → M) (a : Action Handle FunctionRef) :
    Option (Meaning M) :=
  (a.draft?.bind C.product?).map (·.meaning C.store μ)

theorem Action.result_of_call? {c : Call} (h : C.call? a = some c) :
    (a.meaning C.store μ).result (C.draftMeaning? μ a) = .called (c.meaning C.store μ).aim := by
  cases a with
  | construct c =>
    cases h
    rfl
  | finish i | finishTerm i x =>
    simp only [Client.call?] at h
    split at h <;> cases h
    simp only [Client.draftMeaning?, draft?, Option.bind_some, *]
    rfl
  | _ => cases h

theorem Action.result_of_change? {i : Nat} {p q : Product} {y : Except Rejection Unit}
    (hi : a.adds? = some i) (hp : C.product? i = some p) (hq : a.change? p = some (y, q)) :
    (a.meaning C.store μ).result (C.draftMeaning? μ a) = .changed y (q.meaning C.store μ) := by
  cases changes_of_change? hq with
  | @add l j x d d' y hrun =>
    cases hi
    obtain ⟨rfl, rfl⟩ := Prod.ext_iff.1 hrun
    obtain ⟨hanswer, houtline⟩ := Draft.add_outline (s := C.store) (μ := μ) d x
    have hresult : (Action.meaning C.store μ (.add i x)).result
        (some (Product.meaning C.store μ (.draft d))) =
          .changed ((d.outline C.store μ).add (x.value μ)).1
            (.draft ((d.outline C.store μ).add (x.value μ)).2) := if_pos rfl
    rw [Client.draftMeaning?, draft?, Option.bind_some, hp, Option.map_some, hresult, ← hanswer,
      ← houtline]
    rfl
  | addSlope hrun | addBreakpoint hrun =>
    cases hi
    obtain ⟨rfl, rfl⟩ := Prod.ext_iff.1 hrun
    rw [Client.draftMeaning?, draft?, Option.bind_some, hp]
    rfl

theorem Action.result_of_idle (hcall : C.call? a = none)
    (hchange : ∀ i, a.adds? = some i → ((C.product? i).bind fun p => a.change? p) = none) :
    (a.meaning C.store μ).result (C.draftMeaning? μ a) = .idle := by
  cases a with
  | construct c => cases hcall
  | @add l i x =>
    have hnone := hchange i rfl
    rw [Client.draftMeaning?, draft?, Option.bind_some]
    cases hp : C.product? i with
    | none => rfl
    | some p =>
      rw [hp] at hnone
      cases p with
      | @draft m d =>
        have hlist : m ≠ l := by
          rintro rfl
          simp [change?, Product.draftOf?] at hnone
        exact if_neg hlist
      | _ => rfl
  | addSlope i x | addBreakpoint i x =>
    have hnone := hchange i rfl
    rw [Client.draftMeaning?, draft?, Option.bind_some]
    cases hp : C.product? i with
    | none => rfl
    | some p =>
      rw [hp] at hnone
      cases p with
      | termDraft d => cases hnone
      | _ => rfl
  | finish i | finishTerm i x =>
    simp only [Client.call?] at hcall
    rw [Client.draftMeaning?, draft?, Option.bind_some]
    cases hp : C.product? i with
    | none => rfl
    | some p =>
      rw [hp] at hcall
      cases p <;> first | rfl | cases hcall

theorem Client.Sound.call_known (hC : C.Sound) (ha : a.Known C.store) {c : Call}
    (h : C.call? a = some c) : c.Known C.store := by
  cases a with
  | construct c =>
    cases h
    exact ha
  | finish i =>
    simp only [call?] at h
    split at h <;> cases h
    exact hC.product i _ ‹_›
  | finishTerm i x =>
    simp only [call?] at h
    split at h <;> cases h
    rename_i d hd
    exact ⟨hC.product i (.termDraft d) hd, ha⟩
  | _ => cases h

theorem Client.perform_realises (hC : C.Sound) (ha : a.Known C.store)
    (hb : (C.perform a).store.Bounded) :
    C.Realises μ a ((a.meaning C.store μ).result (C.draftMeaning? μ a)) (C.perform a) := by
  have hgoes := perform_goes C a
  generalize C.perform a = D at hgoes hb ⊢
  cases hgoes with
  | idle hcall hchange =>
    rw [Action.result_of_idle hcall hchange]
    exact .idle
  | changed i p q y hi hp hq =>
    rw [Action.result_of_change? hi hp hq]
    exact .changed i p q y _ hi hp hq rfl
  | called c y g hc hrun =>
    rw [Action.result_of_call? hc]
    exact .called _ c y g hc hrun (Call.perform_attains (hC.call_known ha hc) hb hrun)

end Steps

theorem Action.draft?_mapM {H K : View → Type} {F G : Type} {a : Action H F} {b : Action K G}
    {h : (v : View) → H v → Option (K v)} {f : F → Option G} (hb : a.mapM h f = some b) :
    b.draft? = a.draft? := by
  cases a with
  | construct c =>
    obtain ⟨c', -, hb⟩ := Option.bind_eq_some_iff.1 hb
    cases hb
    rfl
  | add i x | finishTerm i x =>
    obtain ⟨x', -, hb⟩ := Option.bind_eq_some_iff.1 hb
    cases hb
    rfl
  | _ =>
    cases hb
    rfl

section Resolved

variable {M : Type} {C : Client} {μ : Ref → M} {E : Outlook M}

theorem Client.step_realises (hC : C.Sound) (hE : C.Seen μ E) {a : Action Access Callee}
    (ha : ∀ r ∈ a.roots, C.Shows μ E r) (hb : (C.step a).store.Bounded) :
    (a.mapM (fun _ => Access.value E) (Callee.value E) = none ∧ C.step a = C) ∨
      ∃ b, a.mapM (fun _ => Access.eval C) (Callee.eval C) = some b ∧ b.draft? = a.draft? ∧
        a.mapM (fun _ => Access.value E) (Callee.value E) = some (b.meaning C.store μ) ∧
          C.Realises μ b (E.result a) (C.step a) := by
  have hvalue := Action.mapM_value hC hE ha
  unfold step at hb ⊢
  cases hm : a.mapM (fun _ => Access.eval C) (Callee.eval C) with
  | none =>
    left
    rw [hm] at hvalue
    exact ⟨hvalue.symm, rfl⟩
  | some b =>
    right
    rw [hm] at hvalue hb
    have hdraft := Action.draft?_mapM hm
    have hknown : b.Known C.store :=
      Action.mapM_known (fun v x h => hC.access_known x) (fun x g => hC.callee_known x) hm
    have hmeaning : a.draft?.bind E.meaning? = C.draftMeaning? μ b := by
      rw [draftMeaning?, hdraft]
      cases a.draft? with
      | none => rfl
      | some i => exact hE.meaning_eq i
    refine ⟨b, rfl, hdraft, hvalue.symm, ?_⟩
    have hrealises := perform_realises (μ := μ) hC hknown hb
    rw [Outlook.result, ← hvalue]
    simp only [Option.map_some, hmeaning]
    exact hrealises

end Resolved

end ModelExpr
