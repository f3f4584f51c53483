import ModelExpr.Proofs.Store.Plain

namespace ModelExpr.Store

variable {s : Store} {v : View} {r a b c : Ref}

theorem payload_ofRef {p : Payload} (hp : s.nodes[r.id.index]? = some p) :
    s.payload (.ofRef r : Handle v) = .ok p := by
  simp [payload, Handle.ofRef, node, hp]

theorem readNumber_of_plain {x : Binary64} (hn : s.plain? r.id.index = some (.number x)) :
    s.readNumber (.ofRef r : Handle v) = .ok x := by
  obtain ⟨p, hp, hi⟩ := plain?_eq_some_iff.1 hn
  cases p <;> cases shape_inline hi
  cases hi
  simp [readNumber, payload_ofRef hp, bind, Except.bind]

theorem readTruth_of_plain {x : Bool} (hn : s.plain? r.id.index = some (.truth x)) :
    s.readTruth (.ofRef r : Handle v) = .ok x := by
  obtain ⟨p, hp, hi⟩ := plain?_eq_some_iff.1 hn
  cases p <;> cases shape_inline hi
  cases hi
  simp [readTruth, payload_ofRef hp, bind, Except.bind]

theorem readIndex_of_plain {i : UInt32} (hn : s.plain? r.id.index = some (.decisionVariable i)) :
    s.readIndex (.ofRef r : Handle v) = .ok i := by
  obtain ⟨p, hp, hi⟩ := plain?_eq_some_iff.1 hn
  cases p <;> cases shape_inline hi
  cases hi
  simp [readIndex, payload_ofRef hp, bind, Except.bind]

theorem readUnary_of_plain (hn : s.plain? r.id.index = some (.unary a)) :
    s.readUnary (.ofRef r : Handle v) = .ok a := by
  obtain ⟨p, hp, hi⟩ := plain?_eq_some_iff.1 hn
  cases p <;> cases shape_inline hi
  cases hi
  simp [readUnary, payload_ofRef hp, bind, Except.bind]

theorem readBinary_of_plain (hn : s.plain? r.id.index = some (.binary a b)) :
    s.readBinary (.ofRef r : Handle v) = .ok (a, b) := by
  obtain ⟨p, hp, hi⟩ := plain?_eq_some_iff.1 hn
  cases p <;> cases shape_inline hi
  cases hi
  simp [readBinary, payload_ofRef hp, bind, Except.bind]

theorem readBranches_of_plain {e : Option Ref} (hn : s.plain? r.id.index = some (.branching a b e)) :
    s.readBranches (.ofRef r : Handle v) = .ok (a, b, e) := by
  obtain ⟨p, hp, hi⟩ := plain?_eq_some_iff.1 hn
  cases p <;> cases shape_inline hi
  cases hi
  simp [readBranches, payload_ofRef hp, bind, Except.bind]

section Term

variable {xs ys : List Binary64}
  (hn : s.plain? r.id.index = some (.piecewiseLinear xs ys a))

include hn

theorem readTerm_of_plain : ∃ slopes breakpoints,
    s.readTerm (.ofRef r : Handle v) = .ok (slopes, breakpoints, a) ∧
      s.numbersIn slopes = .ok xs.toArray ∧ s.numbersIn breakpoints = .ok ys.toArray := by
  obtain ⟨p, hp, hi⟩ := plain?_eq_some_iff.1 hn
  cases p <;> cases shape_inline hi
  obtain ⟨_, _, hx, hy, he⟩ := inline_eq_ok_term.1 hi
  cases he
  refine ⟨_, _, ?_, hx, hy⟩
  simp [readTerm, payload_ofRef hp, bind, Except.bind]

theorem readSlopes_of_plain : s.readSlopes (.ofRef r : Handle v) = .ok xs.toArray := by
  obtain ⟨_, _, ht, hx, -⟩ := readTerm_of_plain (v := v) hn
  exact bind_eq_ok.2 ⟨_, ht, hx⟩

theorem readBreakpoints_of_plain : s.readBreakpoints (.ofRef r : Handle v) = .ok ys.toArray := by
  obtain ⟨_, _, ht, -, hy⟩ := readTerm_of_plain (v := v) hn
  exact bind_eq_ok.2 ⟨_, ht, hy⟩

theorem readTermVariable_of_plain : s.readTermVariable (.ofRef r : Handle v) = .ok (.ofRef a) := by
  obtain ⟨_, _, ht, -, -⟩ := readTerm_of_plain (v := v) hn
  exact bind_eq_ok.2 ⟨_, ht, rfl⟩

end Term

theorem readFunction_of_plain {f : FunctionId} {rs : List Ref}
    (hn : s.plain? r.id.index = some (.call f rs)) :
    s.readFunction (.ofRef r : Handle v) = .ok ⟨f⟩ := by
  obtain ⟨p, hp, hi⟩ := plain?_eq_some_iff.1 hn
  cases p <;> cases shape_inline hi
  obtain ⟨_, -, he⟩ := inline_eq_ok_call.1 hi
  cases he
  simp [readFunction, payload_ofRef hp, bind, Except.bind]

theorem readOperands_of_plain {n : Plain} {rs : List Ref} (hn : s.plain? r.id.index = some n)
    (hr : n.list? = some rs) : s.readOperands (.ofRef r : Handle v) = .ok rs.toArray := by
  obtain ⟨p, hp, hi⟩ := plain?_eq_some_iff.1 hn
  cases n <;> cases hr
  case list =>
    cases p <;> cases shape_inline hi
    obtain ⟨_, hx, he⟩ := inline_eq_ok_list.1 hi
    cases he
    exact bind_eq_ok.2 ⟨_, payload_ofRef hp, hx⟩
  case call =>
    cases p <;> cases shape_inline hi
    obtain ⟨_, hx, he⟩ := inline_eq_ok_call.1 hi
    cases he
    exact bind_eq_ok.2 ⟨_, payload_ofRef hp, hx⟩

theorem plain?_of_variableIndex? {i : UInt32} (h : s.variableIndex? r = some i) :
    s.plain? r.id.index = some (.decisionVariable i) := by
  unfold variableIndex? at h
  split at h
  case h_1 j hj =>
    cases h
    exact hj
  case h_2 => cases h

theorem requireIndex_ok {i n : Nat} (h : i < n) : requireIndex i n = .ok ⟨i, h⟩ := dif_pos h

theorem requireIndex_error {i n : Nat} (h : ¬i < n) :
    requireIndex i n = .error (.indexOutOfBounds i n) :=
  dif_neg h

theorem entry_toArray {α : Type} (xs : List α) (i : Nat) :
    entry (.ok xs.toArray) i = (Plain.entry xs i).mapError .rejected := by
  change (liftM (requireIndex i xs.toArray.size) >>= fun j => Except.ok xs.toArray[j]) = _
  by_cases hi : i < xs.length
  · rw [requireIndex_ok (n := xs.toArray.size) hi, Plain.entry_of_lt hi]
    rfl
  · rw [requireIndex_error (n := xs.toArray.size) hi, Plain.entry_of_le (Nat.le_of_not_lt hi)]
    rfl

theorem read_of_plain {n : Plain} {c : Content} {f : Field v c} {x : Except Rejection c.Value}
    (hn : s.plain? r.id.index = some n) (hx : n.field? s.variableIndex? f = some x) :
    s.read (.ofRef r) f = x.mapError .rejected := by
  cases f with
  | number =>
    cases n <;> cases hx
    rw [read, readNumber_of_plain hn]; rfl
  | truth =>
    cases n <;> cases hx
    rw [read, readTruth_of_plain hn]; rfl
  | index =>
    cases n <;> cases hx
    rw [read, readIndex_of_plain hn]; rfl
  | argument =>
    cases n <;> cases hx
    rw [read, readUnary_of_plain hn]; rfl
  | left | right =>
    cases n <;> cases hx
    rw [read, readBinary_of_plain hn]; rfl
  | condition | consequent | alternative =>
    cases n <;> cases hx
    rw [read, readBranches_of_plain hn]; rfl
  | slopes | slopeCount =>
    cases n <;> cases hx
    rw [read, readSlopes_of_plain hn]; rfl
  | breakpoints | breakpointCount =>
    cases n <;> cases hx
    rw [read, readBreakpoints_of_plain hn]; rfl
  | slope =>
    cases n <;> cases hx
    rw [read, readSlopes_of_plain hn, entry_toArray]
  | breakpoint =>
    cases n <;> cases hx
    rw [read, readBreakpoints_of_plain hn, entry_toArray]
  | termVariable =>
    cases n <;> cases hx
    rw [read, readTermVariable_of_plain hn]; rfl
  | termVariableIndex =>
    obtain ⟨⟨xs, ys, a⟩, ht, hv⟩ := Option.bind_eq_some_iff.1 hx
    obtain ⟨i, hi, rfl⟩ := Option.map_eq_some_iff.1 hv
    cases n <;> cases ht
    rw [read, bind_eq_ok.2 ⟨_, readTermVariable_of_plain hn,
      readIndex_of_plain (plain?_of_variableIndex? hi)⟩]
    rfl
  | function =>
    cases n <;> cases hx
    rw [read, readFunction_of_plain hn]; rfl
  | reference =>
    obtain ⟨rs, hl, hh⟩ := Option.bind_eq_some_iff.1 hx
    obtain ⟨a, ha, rfl⟩ := Option.map_eq_some_iff.1 hh
    have href : s.readReference (.ofRef r : Handle v) = .ok a := by
      rw [readReference, readOperands_of_plain hn hl]
      simp [bind, Except.bind, ← List.head?_eq_getElem?, ha]
    rw [read, href]; rfl
  | operandCount =>
    obtain ⟨rs, hl, rfl⟩ := Option.map_eq_some_iff.1 hx
    rw [read, readOperands_of_plain hn hl]; rfl
  | operand =>
    obtain ⟨rs, hl, rfl⟩ := Option.map_eq_some_iff.1 hx
    rw [read, readOperands_of_plain hn hl, entry_toArray]
    cases Plain.entry rs _ <;> rfl
  | operands =>
    obtain ⟨rs, hl, rfl⟩ := Option.map_eq_some_iff.1 hx
    rw [read, readOperands_of_plain hn hl, ← List.map_toArray]
    rfl

end ModelExpr.Store
