import ModelExpr.Proofs.Store.WellFormed
/-!
Plain nodes: nodes with their operands and numbers written out instead of kept as spans. Whatever
fits a store can be written out, and what is written out does not change as the store grows.
-/

namespace ModelExpr

inductive Plain where
  | number (value : Binary64)
  | decisionVariable (index : UInt32)
  | truth (value : Bool)
  | unary (operand : Ref)
  | binary (left right : Ref)
  | branching (condition consequent : Ref) (alternative : Option Ref)
  | piecewiseLinear (slopes breakpoints : List Binary64) (argument : Ref)
  | list (operands : List Ref)
  | call (function : FunctionId) (operands : List Ref)
  deriving DecidableEq

structure PlainNode where
  kind : Kind
  content : Plain
  deriving DecidableEq

namespace Plain

def shape : Plain → Shape
  | .number _ => .number
  | .decisionVariable _ => .decisionVariable
  | .truth _ => .truth
  | .unary _ => .unary
  | .binary _ _ => .binary
  | .branching _ _ _ => .branching
  | .piecewiseLinear _ _ _ => .piecewiseLinear
  | .list _ => .list
  | .call _ _ => .call

def operands : Plain → List Ref
  | .number _ | .decisionVariable _ | .truth _ => []
  | .unary r => [r]
  | .binary a b => [a, b]
  | .branching c t e => c :: t :: e.toList
  | .piecewiseLinear _ _ r => [r]
  | .list rs | .call _ rs => rs

def list? : Plain → Option (List Ref)
  | .list rs | .call _ rs => some rs
  | _ => none

def term? : Plain → Option (List Binary64 × List Binary64 × Ref)
  | .piecewiseLinear slopes breakpoints r => some (slopes, breakpoints, r)
  | _ => none

def branches? : Plain → Option (Ref × Ref × Option Ref)
  | .branching c t e => some (c, t, e)
  | _ => none

def sides? : Plain → Option (Ref × Ref)
  | .binary a b => some (a, b)
  | _ => none

theorem list?_of_accepts {n : Plain} {k : Kind} {l : ListView} (hl : l.view.accepts k = true)
    (hn : n.shape = k.shape) : n.list? = some n.operands := by
  have hlist := hn.trans (ListView.shape_eq hl)
  split at hlist
  all_goals cases n <;> first | rfl | cases hlist

def entry {α : Type} (xs : List α) (i : Nat) : Except Rejection α :=
  match xs[i]? with
  | some x => .ok x
  | none => .error (.indexOutOfBounds i xs.length)

theorem entry_of_lt {α : Type} {xs : List α} {i : Nat} (h : i < xs.length) :
    entry xs i = .ok xs[i] := by
  rw [entry, List.getElem?_eq_getElem h]

theorem entry_of_le {α : Type} {xs : List α} {i : Nat} (h : xs.length ≤ i) :
    entry xs i = .error (.indexOutOfBounds i xs.length) := by
  rw [entry, List.getElem?_eq_none h]

theorem map_entry {α β : Type} (f : α → β) (xs : List α) (i : Nat) :
    (entry xs i).map f = entry (xs.map f) i := by
  unfold entry
  rw [List.getElem?_map]
  cases xs[i]? <;> simp [Except.map]

def field? (n : Plain) (index? : Ref → Option UInt32) {v : View} {c : Content} :
    Field v c → Option (Except Rejection c.Value)
  | .number _ => match n with
    | .number x => some (.ok x)
    | _ => none
  | .truth _ => match n with
    | .truth b => some (.ok b)
    | _ => none
  | .index _ => match n with
    | .decisionVariable i => some (.ok i)
    | _ => none
  | .argument _ => match n with
    | .unary r => some (.ok (.ofRef r))
    | _ => none
  | .left _ => n.sides?.map fun p => .ok (.ofRef p.1)
  | .right _ => n.sides?.map fun p => .ok (.ofRef p.2)
  | .condition _ => n.branches?.map fun p => .ok (.ofRef p.1)
  | .consequent _ => n.branches?.map fun p => .ok (.ofRef p.2.1)
  | .alternative _ => n.branches?.map fun p => .ok ⟨p.2.2⟩
  | .slopes _ => n.term?.map fun p => .ok p.1.toArray
  | .breakpoints _ => n.term?.map fun p => .ok p.2.1.toArray
  | .slopeCount _ => n.term?.map fun p => .ok p.1.length
  | .breakpointCount _ => n.term?.map fun p => .ok p.2.1.length
  | .slope _ i => n.term?.map fun p => entry p.1 i
  | .breakpoint _ i => n.term?.map fun p => entry p.2.1 i
  | .termVariable _ => n.term?.map fun p => .ok (.ofRef p.2.2)
  | .termVariableIndex _ => n.term?.bind fun p => (index? p.2.2).map .ok
  | .function _ => match n with
    | .call f _ => some (.ok ⟨f⟩)
    | _ => none
  | .reference _ => n.list?.bind fun rs => rs.head?.map fun r => .ok (.ofRef r)
  | .operandCount _ => n.list?.map fun rs => .ok rs.length
  | .operand _ i => n.list?.map fun rs => (entry rs i).map .ofRef
  | .operands _ => n.list?.map fun rs => .ok (rs.map .ofRef).toArray

end Plain

def FunctionRef.Registered (s : Store) (f : FunctionRef) : Prop :=
  f.id.isValid = true ∧ f.id.index < s.functions.size

namespace Store

def inline (s : Store) : Payload → Except Fault Plain
  | .number x => .ok (.number x)
  | .decisionVariable i => .ok (.decisionVariable i)
  | .truth b => .ok (.truth b)
  | .unary r => .ok (.unary r)
  | .binary a b => .ok (.binary a b)
  | .branching c t e => .ok (.branching c t e)
  | .piecewiseLinear slopes breakpoints r => do
    return .piecewiseLinear (← s.numbersIn slopes).toList (← s.numbersIn breakpoints).toList r
  | .list r => do return .list (← s.operandsIn r).toList
  | .call f r => do return .call f (← s.operandsIn r).toList

def plainNodes (s : Store) : List (Except Fault PlainNode) :=
  (s.kinds.toList.zip s.nodes.toList).map fun (k, p) => (s.inline p).map (⟨k, ·⟩)

def plain? (s : Store) (i : Nat) : Option Plain := s.nodes[i]?.bind fun p => (s.inline p).toOption

def variableIndex? (s : Store) (r : Ref) : Option UInt32 :=
  match s.plain? r.id.index with
  | some (.decisionVariable i) => some i
  | _ => none

structure Suits (s : Store) (i : Nat) (k : Kind) (n : Plain) : Prop where
  shape : n.shape = k.shape
  operands : ∀ j r, n.operands[j]? = some r →
    r.id.index < i ∧ s.Holds r ∧ (k.slot j).accepts r.kind = true
  term : ∀ xs ys r, n = .piecewiseLinear xs ys r → 1 ≤ ys.length ∧ xs.length = ys.length + 1
  counted : k = .numberOf → n.operands ≠ []
  callee : ∀ f rs, n = .call f rs → FunctionRef.Registered s ⟨f⟩

def Adds (s t : Store) (k : Kind) (n : Plain) : Prop :=
  ∃ u p, s.Pads u ∧ u.inline p = .ok n ∧ t = u.pushNode k p

variable {s t : Store} {p : Payload} {n : Plain}

theorem inline_eq_ok_term {slopes breakpoints : Span} {r : Ref} :
    s.inline (.piecewiseLinear slopes breakpoints r) = .ok n ↔
      ∃ xs ys, s.numbersIn slopes = .ok xs ∧ s.numbersIn breakpoints = .ok ys ∧
        .piecewiseLinear xs.toList ys.toList r = n := by
  simp only [inline, bind_eq_ok, pure, Except.pure, Except.ok.injEq, exists_and_left]

theorem inline_eq_ok_list {r : Span} :
    s.inline (.list r) = .ok n ↔ ∃ xs, s.operandsIn r = .ok xs ∧ .list xs.toList = n := by
  simp only [inline, bind_eq_ok, pure, Except.pure, Except.ok.injEq]

theorem inline_eq_ok_call {f : FunctionId} {r : Span} :
    s.inline (.call f r) = .ok n ↔ ∃ xs, s.operandsIn r = .ok xs ∧ .call f xs.toList = n := by
  simp only [inline, bind_eq_ok, pure, Except.pure, Except.ok.injEq]

theorem Extends.inline (h : s.Extends t) (hn : s.inline p = .ok n) : t.inline p = .ok n := by
  cases p with
  | piecewiseLinear a b r =>
    obtain ⟨xs, ys, hx, hy, rfl⟩ := inline_eq_ok_term.1 hn
    exact inline_eq_ok_term.2 ⟨xs, ys, h.numbersIn hx, h.numbersIn hy, rfl⟩
  | list r =>
    obtain ⟨xs, hx, rfl⟩ := inline_eq_ok_list.1 hn
    exact inline_eq_ok_list.2 ⟨xs, h.operandsIn hx, rfl⟩
  | call f r =>
    obtain ⟨xs, hx, rfl⟩ := inline_eq_ok_call.1 hn
    exact inline_eq_ok_call.2 ⟨xs, h.operandsIn hx, rfl⟩
  | _ => exact hn

theorem shape_inline (hn : s.inline p = .ok n) : n.shape = p.shape := by
  cases p with
  | piecewiseLinear a b r =>
    obtain ⟨xs, ys, -, -, rfl⟩ := inline_eq_ok_term.1 hn
    rfl
  | list r =>
    obtain ⟨xs, -, rfl⟩ := inline_eq_ok_list.1 hn
    rfl
  | call f r =>
    obtain ⟨xs, -, rfl⟩ := inline_eq_ok_call.1 hn
    rfl
  | _ =>
    obtain rfl := Except.ok.inj hn
    rfl

theorem operandsOf_inline (hn : s.inline p = .ok n) : s.operandsOf p = .ok n.operands := by
  cases p with
  | piecewiseLinear a b r =>
    obtain ⟨xs, ys, -, -, rfl⟩ := inline_eq_ok_term.1 hn
    rfl
  | list r =>
    obtain ⟨xs, hx, rfl⟩ := inline_eq_ok_list.1 hn
    exact map_eq_ok.2 ⟨xs, hx, rfl⟩
  | call f r =>
    obtain ⟨xs, hx, rfl⟩ := inline_eq_ok_call.1 hn
    exact map_eq_ok.2 ⟨xs, hx, rfl⟩
  | _ =>
    obtain rfl := Except.ok.inj hn
    rfl

theorem length_of_numbersIn {r : Span} {xs : Array Binary64} (hx : s.numbersIn r = .ok xs) :
    r.stop ≤ s.numbers.size ∧ xs.toList.length = r.length.toNat := by
  unfold numbersIn at hx
  split at hx
  case isTrue hr =>
    obtain rfl := Except.ok.inj hx
    refine ⟨hr, ?_⟩
    rw [Array.length_toList, Array.size_extract, Nat.min_eq_left hr, Span.stop]
    omega
  case isFalse => cases hx

theorem Fits.exists_inline {i : Nat} {k : Kind} (h : s.Fits i k p) : ∃ n, s.inline p = .ok n := by
  obtain ⟨rs, hrs, -⟩ := h.operands
  cases p with
  | piecewiseLinear a b r =>
    obtain ⟨ha, hb, -⟩ := h.term a b r rfl
    exact ⟨_, inline_eq_ok_term.2 ⟨_, _, if_pos ha, if_pos hb, rfl⟩⟩
  | list r =>
    obtain ⟨xs, hx, -⟩ := map_eq_ok.1 hrs
    exact ⟨_, inline_eq_ok_list.2 ⟨xs, hx, rfl⟩⟩
  | call f r =>
    obtain ⟨xs, hx, -⟩ := map_eq_ok.1 hrs
    exact ⟨_, inline_eq_ok_call.2 ⟨xs, hx, rfl⟩⟩
  | _ => exact ⟨_, rfl⟩

theorem fits_iff {i : Nat} {k : Kind} :
    s.Fits i k p ↔ ∃ n, s.inline p = .ok n ∧ s.Suits i k n := by
  constructor
  · intro hp
    obtain ⟨n, hn⟩ := hp.exists_inline
    have ho := operandsOf_inline hn
    obtain ⟨rs, hrs, hr⟩ := hp.operands
    obtain rfl := Except.ok.inj (ho.symm.trans hrs)
    refine ⟨n, hn, (shape_inline hn).trans hp.shape, hr, ?_, ?_, ?_⟩
    · intro xs ys r he
      subst he
      cases p <;> cases shape_inline hn
      obtain ⟨_, _, hx, hy, he⟩ := inline_eq_ok_term.1 hn
      obtain ⟨-, -, h1, h2⟩ := hp.term _ _ _ rfl
      cases he
      rw [(length_of_numbersIn hx).2, (length_of_numbersIn hy).2]
      exact ⟨h1, h2⟩
    · intro hk he
      apply hp.counted hk
      rw [ho, he]
    · intro f rs he
      subst he
      cases p <;> cases shape_inline hn
      obtain ⟨_, -, he⟩ := inline_eq_ok_call.1 hn
      cases he
      exact hp.callee _ _ rfl
  · rintro ⟨n, hn, h⟩
    have ho := operandsOf_inline hn
    refine ⟨(shape_inline hn).symm.trans h.shape, ⟨_, ho, h.operands⟩, ?_, ?_, ?_⟩
    · intro a b r he
      subst he
      obtain ⟨xs, ys, hx, hy, rfl⟩ := inline_eq_ok_term.1 hn
      obtain ⟨ha, hxl⟩ := length_of_numbersIn hx
      obtain ⟨hb, hyl⟩ := length_of_numbersIn hy
      rw [← hxl, ← hyl]
      exact ⟨ha, hb, h.term _ _ _ rfl⟩
    · intro hk he
      apply h.counted hk
      exact Except.ok.inj (ho.symm.trans he)
    · intro f r he
      subst he
      obtain ⟨xs, -, rfl⟩ := inline_eq_ok_call.1 hn
      exact h.callee _ _ rfl

theorem Suits.mono {i : Nat} {k : Kind} (hn : s.Suits i k n) (h : s.Extends t) : t.Suits i k n := by
  refine ⟨hn.shape, ?_, hn.term, hn.counted, ?_⟩
  · intro j r hj
    obtain ⟨hlt, hholds, haccepts⟩ := hn.operands j r hj
    exact ⟨hlt, h.holds hholds, haccepts⟩
  · intro f rs he
    obtain ⟨hvalid, hlt⟩ := hn.callee f rs he
    exact ⟨hvalid, Nat.lt_of_lt_of_le hlt h.functions_le⟩

theorem plain?_eq_some_iff {i : Nat} :
    s.plain? i = some n ↔ ∃ p, s.nodes[i]? = some p ∧ s.inline p = .ok n := by
  have toOption (x : Except Fault Plain) : x.toOption = some n ↔ x = .ok n := by
    cases x <;> simp [Except.toOption]
  simp only [plain?, Option.bind_eq_some_iff, toOption]

theorem Extends.plain?_eq (h : s.Extends t) {i : Nat} (hn : s.plain? i = some n) :
    t.plain? i = some n := by
  obtain ⟨p, hp, hi⟩ := plain?_eq_some_iff.1 hn
  exact plain?_eq_some_iff.2 ⟨p, h.node_eq hp, h.inline hi⟩

theorem WellFormed.map_inline (hs : s.WellFormed) (h : s.Extends t) :
    (s.kinds.toList.zip s.nodes.toList).map (fun (k, p) => (t.inline p).map (⟨k, ·⟩)) =
      s.plainNodes := by
  apply List.map_congr_left
  rintro ⟨k, p⟩ hkp
  obtain ⟨i, hi⟩ := List.mem_iff_getElem?.1 hkp
  obtain ⟨hk, hp⟩ := List.getElem?_zip_eq_some.1 hi
  rw [Array.getElem?_toList] at hk hp
  obtain ⟨n, hn⟩ := (hs.fits i k p hk hp).exists_inline
  simp only [hn, h.inline hn]

theorem Pads.plainNodes (h : s.Pads t) (hs : s.WellFormed) : t.plainNodes = s.plainNodes := by
  rw [← hs.map_inline h.toExtends, Store.plainNodes, h.kinds_eq, h.nodes_eq]

namespace Adds

variable {k : Kind}

theorem toExtends (h : s.Adds t k n) : s.Extends t := by
  obtain ⟨u, p, hu, -, rfl⟩ := h
  exact hu.toExtends.trans (extends_pushNode u k p)

theorem wellFormed (h : s.Adds t k n) (hs : s.WellFormed) (hn : s.Suits s.kinds.size k n) :
    t.WellFormed := by
  obtain ⟨u, p, hu, hp, rfl⟩ := h
  apply (hu.wellFormed hs).pushNode
  rw [hu.kinds_eq]
  exact fits_iff.2 ⟨n, hp, hn.mono hu.toExtends⟩

theorem plainNodes (h : s.Adds t k n) (hs : s.WellFormed) :
    t.plainNodes = s.plainNodes ++ [.ok ⟨k, n⟩] := by
  obtain ⟨u, p, hu, hp, rfl⟩ := h
  have hext := extends_pushNode u k p
  have hsize : u.kinds.toList.length = u.nodes.toList.length := by
    simp [(hu.wellFormed hs).size_eq]
  rw [← hu.plainNodes hs, ← (hu.wellFormed hs).map_inline hext]
  have hkinds : (u.pushNode k p).kinds.toList = u.kinds.toList ++ [k] := Array.toList_push
  have hnodes : (u.pushNode k p).nodes.toList = u.nodes.toList ++ [p] := Array.toList_push
  rw [Store.plainNodes, hkinds, hnodes, List.zip_append hsize, List.map_append]
  simp only [List.zip_cons_cons, List.zip_nil_left, List.map_cons, List.map_nil, hext.inline hp]
  rfl

end Adds

end Store

end ModelExpr
