import ModelExpr.Proofs.Store.Reading
import ModelExpr.Cursor

namespace ModelExpr

def Handle.Known {v : View} (s : Store) (h : Handle v) : Prop :=
  ∀ r, h.ref? = some r → v.accepts r.kind = true ∧ s.Holds r

namespace Handle.Known

variable {s t : Store} {v w : View} {h : Handle v} {r : Ref}

theorem null : (null : Handle v).Known s := by
  intro r hr
  cases hr

theorem ofRef (hv : v.accepts r.kind = true) (hr : s.Holds r) : (ofRef r : Handle v).Known s := by
  intro r' h
  cases h
  exact ⟨hv, hr⟩

theorem of_ofRef (h : (Handle.ofRef r : Handle v).Known s) : v.accepts r.kind = true ∧ s.Holds r :=
  h r rfl

theorem mono (h' : h.Known s) (hst : s.Extends t) : h.Known t := by
  intro r hr
  obtain ⟨haccepts, hholds⟩ := h' r hr
  exact ⟨haccepts, hst.holds hholds⟩

end Handle.Known

namespace Handle

variable {s : Store} {v w : View} {h : Handle v} {x : Handle w}

theorem recast_eq_ok (hx : h.recast w = .ok x) : x.ref? = h.ref? ∧
    ∀ r, h.ref? = some r → v.accepts r.kind = true → w.accepts r.kind = true := by
  unfold recast at hx
  split at hx
  case isTrue hw =>
    cases hx
    refine ⟨rfl, ?_⟩
    intro r _ hv
    exact View.accepts_of_widensTo hw hv
  case isFalse =>
    unfold cast at hx
    split at hx
    case h_1 hn =>
      cases hx
      refine ⟨hn.symm, ?_⟩
      intro r hr
      rw [hn] at hr
      cases hr
    case h_2 r' hr' =>
      split at hx <;> cases hx
      refine ⟨hr'.symm, ?_⟩
      intro r hr _
      rw [hr'] at hr
      cases hr
      assumption

theorem Known.recast (hh : h.Known s) (hx : h.recast w = .ok x) : x.Known s := by
  obtain ⟨href, haccepts⟩ := recast_eq_ok hx
  intro r hr
  rw [href] at hr
  obtain ⟨hv, hholds⟩ := hh r hr
  exact ⟨haccepts r hr hv, hholds⟩

end Handle

def FunctionRef.Known (s : Store) (f : FunctionRef) : Prop := f.isNull = true ∨ f.Registered s

theorem FunctionRef.Known.mono {s t : Store} {f : FunctionRef} (hf : f.Known s) (h : s.Extends t) :
    f.Known t := by
  obtain hnull | ⟨hvalid, hlt⟩ := hf
  · exact .inl hnull
  · exact .inr ⟨hvalid, Nat.lt_of_lt_of_le hlt h.functions_le⟩

theorem FunctionRef.known_of_function? {s : Store} {i : Nat} {f : FunctionRef}
    (h : s.function? i = some f) : f.Known s := by
  unfold Store.function? at h
  split at h <;> cases h
  cases hvalid : (FunctionId.mk i.toUInt32).isValid with
  | false =>
    left
    rw [isNull, hvalid]
    rfl
  | true =>
    right
    exact ⟨hvalid, Nat.lt_of_le_of_lt (Nat.mod_le i _) ‹_›⟩

def Field.index? {v : View} {c : Content} : Field v c → Option Nat
  | .slope _ i | .breakpoint _ i | .operand _ i => some i
  | _ => none

def Content.Known (s : Store) : (c : Content) → c.Value → Prop
  | .handle _, h => h.Known s
  | .handles _, hs => ∀ h ∈ hs, h.Known s
  | .function, f => f.Registered s
  | _, _ => True

def Field.Answers (s : Store) {v : View} {c : Content} (f : Field v c) :
    Except Rejection c.Value → Prop
  | .ok x => c.Known s x
  | .error e => ∃ i m, f.index? = some i ∧ m ≤ i ∧ e = .indexOutOfBounds i m

namespace Store

variable {s : Store}

theorem WellFormed.exists_plain (hs : s.WellFormed) {r : Ref} (hr : s.Holds r) :
    ∃ n, s.plain? r.id.index = some n ∧ s.Suits r.id.index r.kind n := by
  obtain ⟨p, hp, hfits⟩ := hs.exists_node hr
  obtain ⟨n, hn, hsuits⟩ := fits_iff.1 hfits
  exact ⟨n, plain?_eq_some_iff.2 ⟨p, hp, hn⟩, hsuits⟩

theorem WellFormed.exists_variableIndex (hs : s.WellFormed) {r : Ref} (hr : s.Holds r)
    (hk : r.kind = .decisionVariable) : ∃ i, s.variableIndex? r = some i := by
  obtain ⟨n, hn, hsuits⟩ := hs.exists_plain hr
  have hshape : n.shape = .decisionVariable := by rw [hsuits.shape, hk]; rfl
  cases n <;> cases hshape
  exact ⟨_, by rw [variableIndex?, hn]⟩

section Fields

variable {v w : View} {c : Content} {i : Nat} {k : Kind} {n : Plain}

theorem Suits.exists_list {l : ListView} (h : s.Suits i k n) (hv : v.accepts k = true)
    (hl : v.list? = some l) : n.list? = some n.operands ∧ ∀ j, k.slot j = l.element := by
  obtain rfl := View.list?_eq_some_iff.1 hl
  exact ⟨Plain.list?_of_accepts hv h.shape, ListView.slot_eq_element hv⟩

theorem Suits.shape_eq {f : Shape} (h : s.Suits i k n) (hv : v.accepts k = true) (hw : v = w)
    (hf : w.shape? = some f) : n.shape = f := by
  subst hw
  have hk := View.shape_of_accepts hv (by rw [hf]; rfl)
  exact h.shape.trans (Option.some.inj (hk.symm.trans hf))

theorem Suits.exists_sides {a b : View} (h : s.Suits i k n) (hv : v.accepts k = true)
    (hs : v.sides? = some (a, b)) : ∃ x y, n = .binary x y ∧ k.slot 0 = a ∧ k.slot 1 = b := by
  obtain ⟨hshape, hslots⟩ := View.sides_slot hs hv
  have hn := h.shape.trans hshape
  cases n <;> cases hn
  exact ⟨_, _, rfl, hslots⟩

theorem Suits.exists_branches (h : s.Suits i k n) (hv : v.accepts k = true)
    (hw : v.branch? = some w) :
    ∃ c t e, n = .branching c t e ∧ k.slot 0 = .logical ∧ ∀ j, k.slot (j + 1) = w := by
  obtain ⟨hshape, hslots⟩ := View.branch_slot hw hv
  have hn := h.shape.trans hshape
  cases n <;> cases hn
  exact ⟨_, _, _, rfl, hslots⟩

theorem Suits.exists_argument (h : s.Suits i k n) (hv : v.accepts k = true)
    (hw : v.argument? = some w) : ∃ r, n = .unary r ∧ k.slot 0 = w := by
  obtain ⟨hshape, hslot⟩ := View.argument_slot hw hv
  have hn := h.shape.trans hshape
  cases n <;> cases hn
  exact ⟨_, rfl, hslot⟩

theorem Suits.operand_known (h : s.Suits i k n) {j : Nat} {r : Ref} (hr : n.operands[j]? = some r)
    (hw : k.slot j = w) : (Handle.ofRef r : Handle w).Known s := by
  obtain ⟨-, hholds, haccepts⟩ := h.operands j r hr
  rw [hw] at haccepts
  exact .ofRef haccepts hholds

theorem answers_entry (f : Field v c) {j : Nat} (hj : f.index? = some j) {xs : List c.Value}
    (hx : ∀ x, xs[j]? = some x → c.Known s x) : f.Answers s (Plain.entry xs j) := by
  unfold Plain.entry
  cases h : xs[j]? with
  | some x => exact hx x h
  | none => exact ⟨j, xs.length, hj, List.getElem?_eq_none_iff.1 h, rfl⟩

theorem Suits.exists_field (h : s.Suits i k n) (hs : s.WellFormed) (hv : v.accepts k = true)
    (f : Field v c) : ∃ x, n.field? s.variableIndex? f = some x ∧ f.Answers s x := by
  cases f with
  | number e =>
    have hn := h.shape_eq hv e rfl
    cases n <;> cases hn
    exact ⟨_, rfl, trivial⟩
  | truth e =>
    have hn := h.shape_eq hv e rfl
    cases n <;> cases hn
    exact ⟨_, rfl, trivial⟩
  | index e =>
    have hn := h.shape_eq hv e rfl
    cases n <;> cases hn
    exact ⟨_, rfl, trivial⟩
  | argument e =>
    obtain ⟨x, rfl, h0⟩ := h.exists_argument hv e
    exact ⟨_, rfl, h.operand_known rfl h0⟩
  | left e =>
    obtain ⟨x, y, rfl, h0, -⟩ := h.exists_sides hv e
    exact ⟨_, rfl, h.operand_known rfl h0⟩
  | right e =>
    obtain ⟨x, y, rfl, -, h1⟩ := h.exists_sides hv e
    exact ⟨_, rfl, h.operand_known (j := 1) rfl h1⟩
  | condition e =>
    obtain ⟨x, y, z, rfl, h0, -⟩ := h.exists_branches hv e
    exact ⟨_, rfl, h.operand_known rfl h0⟩
  | consequent e =>
    obtain ⟨x, y, z, rfl, -, h1⟩ := h.exists_branches hv e
    exact ⟨_, rfl, h.operand_known (j := 1) rfl (h1 0)⟩
  | alternative e =>
    obtain ⟨x, y, z, rfl, -, h1⟩ := h.exists_branches hv e
    refine ⟨_, rfl, ?_⟩
    intro r hr
    cases hr
    exact h.operand_known (j := 2) rfl (h1 1) r rfl
  | slopes e | breakpoints e | slopeCount e | breakpointCount e =>
    have hn := h.shape_eq hv e rfl
    cases n <;> cases hn
    exact ⟨_, rfl, trivial⟩
  | slope e j | breakpoint e j =>
    have hn := h.shape_eq hv e rfl
    cases n <;> cases hn
    refine ⟨_, rfl, ?_⟩
    apply answers_entry _ rfl
    intro x _
    trivial
  | termVariable e =>
    have hn := h.shape_eq hv e rfl
    cases n <;> cases hn
    exact ⟨_, rfl, h.operand_known (j := 0) rfl (View.slot_piecewiseLinear hv e 0)⟩
  | termVariableIndex e =>
    have hn := h.shape_eq hv e rfl
    cases n <;> cases hn
    obtain ⟨-, hholds, haccepts⟩ := h.operands 0 _ rfl
    rw [View.slot_piecewiseLinear hv e] at haccepts
    obtain ⟨j, hj⟩ := hs.exists_variableIndex hholds (of_decide_eq_true haccepts)
    exact ⟨.ok j, by simp [Plain.field?, Plain.term?, hj], trivial⟩
  | function e =>
    have hn := h.shape_eq hv e rfl
    cases n <;> cases hn
    exact ⟨_, rfl, h.callee _ _ rfl⟩
  | reference e =>
    obtain ⟨hl, hslot⟩ := h.exists_list (l := .numberOf) hv (View.list?_eq_some_iff.2 e)
    cases ho : n.operands with
    | nil =>
      rw [e] at hv
      exact absurd ho (h.counted (of_decide_eq_true hv))
    | cons r rs =>
      refine ⟨.ok (.ofRef r), by simp [Plain.field?, hl, ho], ?_⟩
      exact h.operand_known (by rw [ho]; rfl) (hslot 0)
  | operandCount e =>
    obtain ⟨hl, -⟩ := h.exists_list hv e
    exact ⟨.ok _, by rw [Plain.field?, hl]; rfl, trivial⟩
  | operand e j =>
    obtain ⟨hl, hslot⟩ := h.exists_list hv e
    refine ⟨(Plain.entry n.operands j).map .ofRef, by rw [Plain.field?, hl]; rfl, ?_⟩
    rw [Plain.map_entry]
    apply answers_entry _ rfl
    intro x hx
    rw [List.getElem?_map] at hx
    obtain ⟨r, hr, rfl⟩ := Option.map_eq_some_iff.1 hx
    exact h.operand_known hr (hslot j)
  | operands e =>
    obtain ⟨hl, hslot⟩ := h.exists_list hv e
    refine ⟨.ok _, by rw [Plain.field?, hl]; rfl, ?_⟩
    intro x hx
    obtain ⟨r, hr, rfl⟩ := List.mem_map.1 (List.mem_toArray.1 hx)
    obtain ⟨j, hj⟩ := List.mem_iff_getElem?.1 hr
    exact h.operand_known hj (hslot j)

theorem Suits.eq_alternative (h : s.Suits i k n) (hv : v.accepts k = true)
    {index? : Ref → Option UInt32} {f : Field v (.handle w)}
    (hx : n.field? index? f = some (.ok .null)) :
    ∃ e c t, f = .alternative e ∧ n = .branching c t none := by
  cases f with
  | alternative e =>
    obtain ⟨x, y, z, rfl, -⟩ := h.exists_branches hv e
    cases z <;> cases hx
    exact ⟨e, x, y, rfl, rfl⟩
  | argument | left | right | condition | consequent | termVariable => cases n <;> cases hx
  | reference =>
    obtain ⟨rs, -, hr⟩ := Option.bind_eq_some_iff.1 hx
    obtain ⟨r, -, hr⟩ := Option.map_eq_some_iff.1 hr
    cases hr
  | operand e j =>
    obtain ⟨rs, -, hr⟩ := Option.map_eq_some_iff.1 hx
    unfold Plain.entry at hr
    split at hr <;> cases hr

end Fields

theorem WellFormed.read_known (hs : s.WellFormed) {v : View} {c : Content} {r : Ref}
    (h : (Handle.ofRef r : Handle v).Known s) (f : Field v c) :
    ∃ x, s.read (.ofRef r) f = x.mapError .rejected ∧ f.Answers s x := by
  obtain ⟨hv, hr⟩ := h.of_ofRef
  obtain ⟨n, hn, hsuits⟩ := hs.exists_plain hr
  obtain ⟨x, hx, hanswers⟩ := hsuits.exists_field hs hv f
  exact ⟨x, read_of_plain hn hx, hanswers⟩

theorem read_null {v : View} {c : Content} (f : Field v c) : ∃ e, s.read .null f = .error e := by
  cases f <;> exact ⟨_, rfl⟩

theorem cursor_null {l : ListView} : ∃ e, s.cursor (.null : Handle l.view) = .error e := ⟨_, rfl⟩

theorem cursor_of_plain {l : ListView} {r : Ref} {n : Plain} {rs : List Ref}
    (hn : s.plain? r.id.index = some n) (hl : n.list? = some rs) :
    s.cursor (.ofRef r : Handle l.view) = .ok (.ofOperands (some r) rs.toArray) := by
  rw [cursor, readOperands_of_plain hn hl]
  rfl

theorem WellFormed.cursor_known (hs : s.WellFormed) {l : ListView} {r : Ref}
    (h : (Handle.ofRef r : Handle l.view).Known s) :
    ∃ n, s.plain? r.id.index = some n ∧
      s.cursor (.ofRef r : Handle l.view) = .ok (.ofOperands (some r) n.operands.toArray) ∧
        ∀ x ∈ n.operands, (Handle.ofRef x : Handle l.element).Known s := by
  obtain ⟨hv, hr⟩ := h.of_ofRef
  obtain ⟨n, hn, hsuits⟩ := hs.exists_plain hr
  obtain ⟨hl, hslot⟩ := hsuits.exists_list hv (View.list?_eq_some_iff.2 rfl)
  refine ⟨n, hn, cursor_of_plain hn hl, ?_⟩
  intro x hx
  obtain ⟨j, hj⟩ := List.mem_iff_getElem?.1 hx
  exact hsuits.operand_known hj (hslot j)

theorem WellFormed.read_ok (hs : s.WellFormed) {v : View} {c : Content} {h : Handle v}
    (hh : h.Known s) {f : Field v c} {x : c.Value} (hx : s.read h f = .ok x) : c.Known s x := by
  obtain ⟨_ | r⟩ := h
  · obtain ⟨e, he⟩ := read_null (s := s) f
    cases he.symm.trans hx
  · obtain ⟨y, hy, hanswers⟩ := hs.read_known hh f
    have hyx := hy.symm.trans hx
    cases y <;> cases hyx
    exact hanswers

theorem WellFormed.cursor_ok (hs : s.WellFormed) {l : ListView} {h : Handle l.view}
    (hh : h.Known s) {c : Cursor l.element} (hc : s.cursor h = .ok c) :
    ∀ r ∈ c.operands.toList, (Handle.ofRef r : Handle l.element).Known s := by
  obtain ⟨_ | r⟩ := h
  · obtain ⟨e, he⟩ := cursor_null (s := s) (l := l)
    cases he.symm.trans hc
  · obtain ⟨n, -, hn, hknown⟩ := hs.cursor_known hh
    cases hn.symm.trans hc
    exact hknown

end Store

end ModelExpr
