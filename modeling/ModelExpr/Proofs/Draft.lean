import ModelExpr.Proofs.Store.Typed
import ModelExpr.Draft

namespace ModelExpr

def Draft.plain {l : ListView} (d : Draft l) : Plain :=
  if d.kind = .call then .call d.function d.operands.toList else .list d.operands.toList

def TermDraft.plain (d : TermDraft) (argument : Ref) : Plain :=
  .piecewiseLinear d.slopes.toList d.breakpoints.toList argument

structure Draft.Sound {l : ListView} (s : Store) (d : Draft l) : Prop where
  kind : l.view.accepts d.kind = true
  operands : ∀ r ∈ d.operands.toList, (Handle.ofRef r : Handle l.element).Known s
  counted : d.kind = .numberOf → d.operands.toList ≠ []
  callee : d.kind = .call → FunctionRef.Registered s ⟨d.function⟩

structure TermDraft.Sound (d : TermDraft) : Prop where
  declared : 1 ≤ d.declared
  slopes : d.slopes.size ≤ d.declared + 1
  breakpoints : d.breakpoints.size ≤ d.declared

theorem requireKind_eq_ok {k : Kind} {category : Kind → Bool} :
    requireKind k category = .ok () ↔ category k = true := by
  unfold requireKind
  split <;> simp_all

theorem requireCount_eq_ok {o : Operand} {n least : Nat} :
    requireCount o n least = .ok () ↔ least ≤ n ∧ n < UInt32.size - 1 := by
  unfold requireCount
  constructor
  · intro h
    split at h
    · cases h
    · omega
  · rintro ⟨hleast, hmost⟩
    apply if_neg
    omega

theorem Handle.require_eq_ok {v : View} {h : Handle v} {r : Ref} :
    h.require = .ok r ↔ h = .ofRef r := by
  obtain ⟨_ | z⟩ := h <;> simp [require, ofRef]

theorem run_unless {δ : Type} (full : δ → δ → Prop) [DecidableRel full] (e : Rejection) (g : δ → δ)
    (d : δ) :
    (do
      if full (← get) (← get) then throw e
      else modify g : ExceptT Rejection (StateM δ) Unit).run d =
      if full d d then (.error e, d) else (.ok (), g d) := by
  change (if full d d then throw e else modify g : ExceptT Rejection (StateM δ) Unit).run d = _
  split <;> rfl

namespace Draft

variable {s t : Store} {l : ListView} {d : Draft l} {k : Kind} {n least : Nat}

theorem requireFunction_eq_ok {functions : Nat} {f : FunctionRef} :
    requireFunction functions f = .ok () ↔ f.id.isValid = true ∧ f.id.index < functions := by
  unfold requireFunction
  split
  case isTrue h =>
    refine iff_of_false (by rintro ⟨⟩) ?_
    rintro ⟨hvalid, hlt⟩
    simp [FunctionRef.isNull, hvalid] at h
    omega
  case isFalse h => simpa [FunctionRef.isNull] using h

theorem ofKind_eq_ok (h : ofKind k n least = .ok d) :
    d = { kind := k, function := .invalid, declared := n } ∧ least ≤ n ∧ n < UInt32.size - 1 := by
  obtain ⟨_, hn, h⟩ := bind_eq_ok.1 h
  cases h
  exact ⟨rfl, requireCount_eq_ok.1 hn⟩

theorem Sound.empty (hk : l.view.accepts k = true) (hcall : k ≠ .call) (hcounted : k ≠ .numberOf) :
    Sound s ({ kind := k, function := .invalid, declared := n } : Draft l) := by
  constructor
  · exact hk
  · intro r hr
    cases hr
  · intro he
    exact absurd he hcounted
  · intro he
    exact absurd he hcall

theorem add_run (x : Handle l.element) (d : Draft l) : (add x).run d =
    match x.require with
    | .ok r =>
      if d.operands.size = d.declared then (.error (.overflow .argument), d)
      else (.ok (), { d with operands := d.operands.push r })
    | .error e => (.error e, d) := by
  unfold add
  cases x.require with
  | error e => rfl
  | ok r => exact run_unless (fun d d' : Draft l => d.operands.size = d'.declared) _ _ d

theorem exists_operands_add (x : Handle l.element) (d : Draft l) :
    ∃ rs, ((add x).run d).2 = { d with operands := rs } := by
  rw [add_run]
  split
  · split <;> exact ⟨_, rfl⟩
  · exact ⟨_, rfl⟩

theorem add_ok {x : Handle l.element} {d' : Draft l} (h : (add x).run d = (.ok (), d')) :
    ∃ r, x = .ofRef r ∧ d' = { d with operands := d.operands.push r } := by
  rw [add_run] at h
  split at h
  case h_1 r hr =>
    split at h <;> cases h
    exact ⟨r, Handle.require_eq_ok.1 hr, rfl⟩
  case h_2 => cases h

theorem add_error {x : Handle l.element} {d' : Draft l} {e : Rejection}
    (h : (add x).run d = (.error e, d')) : d' = d := by
  rw [add_run] at h
  split at h
  · split at h <;> cases h
    rfl
  · cases h
    rfl

namespace Sound

theorem mono (hd : d.Sound s) (h : s.Extends t) : d.Sound t := by
  refine ⟨hd.kind, ?_, hd.counted, ?_⟩
  · intro r hr
    exact (hd.operands r hr).mono h
  · intro hk
    obtain ⟨hvalid, hlt⟩ := hd.callee hk
    exact ⟨hvalid, Nat.lt_of_lt_of_le hlt h.functions_le⟩

theorem suits (hd : d.Sound s) : s.Suits s.kinds.size d.kind d.plain := by
  have hoperands : d.plain.operands = d.operands.toList := by
    unfold Draft.plain
    split <;> rfl
  constructor
  · rw [ListView.shape_eq hd.kind, Draft.plain]
    split <;> rfl
  · intro j r hj
    rw [hoperands] at hj
    obtain ⟨haccepts, hholds⟩ := (hd.operands r (List.mem_of_getElem? hj)).of_ofRef
    rw [ListView.slot_eq_element hd.kind j]
    exact ⟨hholds.lt, hholds, haccepts⟩
  · intro xs ys r he
    unfold Draft.plain at he
    split at he <;> cases he
  · intro hk
    rw [hoperands]
    exact hd.counted hk
  · intro f rs he
    unfold Draft.plain at he
    split at he <;> cases he
    exact hd.callee ‹_›

theorem add {x : Handle l.element} {y : Except Rejection Unit} {d' : Draft l} (hd : d.Sound s)
    (hx : x.Known s) (h : (add x).run d = (y, d')) : d'.Sound s := by
  cases y with
  | error e =>
    rw [add_error h]
    exact hd
  | ok _ =>
    obtain ⟨r, rfl, rfl⟩ := add_ok h
    refine ⟨hd.kind, ?_, ?_, hd.callee⟩
    · intro r' hr'
      simp only [Array.toList_push, List.mem_append, List.mem_singleton] at hr'
      obtain hr' | rfl := hr'
      · exact hd.operands r' hr'
      · exact hx
    · intro _
      simp

end Sound

end Draft

namespace TermDraft

variable {s : Store} {d d' : TermDraft} {x : Binary64} {e : Rejection}

theorem addSlope_run (x : Binary64) (d : TermDraft) : (addSlope x).run d =
    if d.slopes.size = d.declaredSlopes then (.error (.overflow .slope), d)
    else (.ok (), { d with slopes := d.slopes.push x }) :=
  run_unless (fun d d' : TermDraft => d.slopes.size = d'.declaredSlopes) _ _ d

theorem addBreakpoint_run (x : Binary64) (d : TermDraft) : (addBreakpoint x).run d =
    if d.breakpoints.size = d.declared then (.error (.overflow .breakpoint), d)
    else (.ok (), { d with breakpoints := d.breakpoints.push x }) :=
  run_unless (fun d d' : TermDraft => d.breakpoints.size = d'.declared) _ _ d

namespace Sound

theorem addSlope {y : Except Rejection Unit} (hd : d.Sound) (h : (addSlope x).run d = (y, d')) :
    d'.Sound := by
  rw [addSlope_run] at h
  split at h <;> cases h
  · exact hd
  · refine ⟨hd.declared, ?_, hd.breakpoints⟩
    have hs := hd.slopes
    simp only [Array.size_push]
    unfold declaredSlopes at *
    omega

theorem addBreakpoint {y : Except Rejection Unit} (hd : d.Sound)
    (h : (addBreakpoint x).run d = (y, d')) : d'.Sound := by
  rw [addBreakpoint_run] at h
  split at h <;> cases h
  · exact hd
  · refine ⟨hd.declared, hd.slopes, ?_⟩
    have hb := hd.breakpoints
    simp only [Array.size_push]
    omega

theorem suits {r : Ref} (hd : d.Sound) (hfull : d.requireComplete = .ok ())
    (hr : (Handle.ofRef r : Handle .decisionVariable).Known s) :
    s.Suits s.kinds.size .piecewiseLinear (d.plain r) := by
  have hsizes : d.breakpoints.size = d.declared ∧ d.slopes.size = d.declared + 1 := by
    have hb := hd.breakpoints
    have hs := hd.slopes
    unfold TermDraft.requireComplete at hfull
    split at hfull
    · cases hfull
    · split at hfull
      · cases hfull
      · unfold TermDraft.declaredSlopes at *
        omega
  constructor
  · rfl
  · intro j r' hj
    cases j with
    | zero =>
      cases hj
      obtain ⟨haccepts, hholds⟩ := hr.of_ofRef
      exact ⟨hholds.lt, hholds, haccepts⟩
    | succ j => cases hj
  · intro xs ys r' he
    cases he
    have hd := hd.declared
    simp only [Array.length_toList]
    omega
  · intro hk
    cases hk
  · intro f rs he
    cases he

end Sound

end TermDraft

end ModelExpr
