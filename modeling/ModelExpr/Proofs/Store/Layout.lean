import ModelExpr.Proofs.Store.Plain

namespace ModelExpr

namespace Plain

def listed (n : Plain) : List Ref := n.list?.getD []

def numbers : Plain → List Binary64
  | .piecewiseLinear xs ys _ => xs ++ ys
  | _ => []

theorem listed_eq_nil {n : Plain} (h : n.list? = none) : n.listed = [] := by
  rw [listed, h]
  rfl

theorem numbers_eq_nil {n : Plain} (h : n.term? = none) : n.numbers = [] := by
  cases n <;> first | rfl | cases h

end Plain

def Span.following (length entries : Nat) : Span := ⟨length.toUInt32, entries.toUInt32⟩

theorem Span.following_bounds {m n : Nat} (hm : m < UInt32.size) (hn : n < UInt32.size) :
    (Span.following m n).start.toNat = m ∧ (Span.following m n).stop = m + n := by
  have hstart : m.toUInt32.toNat = m := Nat.mod_eq_of_lt hm
  have hlength : n.toUInt32.toNat = n := Nat.mod_eq_of_lt hn
  refine ⟨hstart, ?_⟩
  rw [Span.stop, Span.following, hstart, hlength]

namespace Store

variable {s t : Store} {k : Kind} {n : Plain}

def operandSpan (s : Store) (rs : List Ref) : Span :=
  if rs.isEmpty then .empty else .following s.operands.size rs.length

def layout (s : Store) : Plain → Payload
  | .number x => .number x
  | .decisionVariable i => .decisionVariable i
  | .truth b => .truth b
  | .unary r => .unary r
  | .binary a b => .binary a b
  | .branching c t e => .branching c t e
  | .piecewiseLinear xs ys r =>
    .piecewiseLinear (.following s.numbers.size xs.length)
      (.following (s.numbers.size + xs.length) ys.length) r
  | .list rs => .list (s.operandSpan rs)
  | .call f rs => .call f (s.operandSpan rs)

def lay (s : Store) (k : Kind) (n : Plain) : Store :=
  { s with
    kinds := s.kinds.push k
    nodes := s.nodes.push (s.layout n)
    operands := s.operands ++ n.listed.toArray
    numbers := s.numbers ++ n.numbers.toArray }

structure Room (s : Store) (n : Plain) : Prop where
  node : s.nodes.size < UInt32.size
  operands : n.listed ≠ [] → s.operands.size < UInt32.size ∧ n.listed.length < UInt32.size
  numbers : ∀ xs ys r, n = .piecewiseLinear xs ys r →
    s.numbers.size + xs.length < UInt32.size ∧ ys.length < UInt32.size

theorem extract_between {α : Type} {ws xs zs : Array α} {ys : List α}
    (h : ws = xs ++ ys.toArray ++ zs) :
    xs.size + ys.length ≤ ws.size ∧ ws.extract xs.size (xs.size + ys.length) = ys.toArray := by
  subst h
  refine ⟨by simp, ?_⟩
  rw [Array.extract_append, Array.extract_append]
  simp

theorem operandsIn_operandSpan {rs : List Ref}
    (hroom : rs ≠ [] → s.operands.size < UInt32.size ∧ rs.length < UInt32.size)
    (ht : t.operands = s.operands ++ rs.toArray) :
    t.operandsIn (s.operandSpan rs) = .ok rs.toArray := by
  unfold operandSpan
  cases rs with
  | nil => simp [operandsIn, Span.empty, Span.stop]
  | cons r rs =>
    obtain ⟨hm, hn⟩ := hroom (List.cons_ne_nil r rs)
    obtain ⟨hstart, hstop⟩ := Span.following_bounds hm hn
    obtain ⟨hle, hextract⟩ := extract_between (ht.trans (Array.append_empty).symm)
    rw [List.isEmpty_cons, if_neg Bool.false_ne_true, operandsIn, hstart, hstop]
    rw [if_pos hle]
    exact congrArg Except.ok hextract

theorem numbersIn_following {xs zs : Array Binary64} {ys : List Binary64}
    (hroom : xs.size < UInt32.size ∧ ys.length < UInt32.size)
    (ht : t.numbers = xs ++ ys.toArray ++ zs) :
    t.numbersIn (.following xs.size ys.length) = .ok ys.toArray := by
  obtain ⟨hstart, hstop⟩ := Span.following_bounds hroom.1 hroom.2
  obtain ⟨hle, hextract⟩ := extract_between ht
  rw [numbersIn, hstart, hstop, if_pos hle]
  exact congrArg Except.ok hextract

theorem inline_layout (hroom : s.Room n) (hoperands : t.operands = s.operands ++ n.listed.toArray)
    (hnumbers : t.numbers = s.numbers ++ n.numbers.toArray) : t.inline (s.layout n) = .ok n := by
  cases n with
  | piecewiseLinear xs ys r =>
    obtain ⟨hxs, hys⟩ := hroom.numbers xs ys r rfl
    have hlists : t.numbers = s.numbers ++ xs.toArray ++ ys.toArray := by
      simp [hnumbers, Plain.numbers]
    have hsize : (s.numbers ++ xs.toArray).size = s.numbers.size + xs.length := by simp
    have hslopes : t.numbersIn (.following s.numbers.size xs.length) = .ok xs.toArray := by
      apply numbersIn_following _ hlists
      omega
    have hbreakpoints :
        t.numbersIn (.following (s.numbers.size + xs.length) ys.length) = .ok ys.toArray := by
      rw [← hsize] at hxs ⊢
      exact numbersIn_following ⟨hxs, hys⟩ (hlists.trans Array.append_empty.symm)
    exact inline_eq_ok_term.2 ⟨_, _, hslopes, hbreakpoints, rfl⟩
  | list rs => exact inline_eq_ok_list.2 ⟨_, operandsIn_operandSpan hroom.operands hoperands, rfl⟩
  | call f rs => exact inline_eq_ok_call.2 ⟨_, operandsIn_operandSpan hroom.operands hoperands, rfl⟩
  | _ => rfl

theorem adds_lay (hroom : s.Room n) : s.Adds (s.lay k n) k n := by
  let u := (s.appendOperands n.listed.toArray).appendNumbers n.numbers.toArray
  have hpads : s.Pads u := (pads_appendOperands _).trans (pads_appendNumbers _)
  exact ⟨u, s.layout n, hpads, inline_layout hroom rfl rfl, rfl⟩

theorem layout_of_inline {p : Payload} (h : t.inline p = .ok n) (hlist : n.list? = none)
    (hterm : n.term? = none) : s.layout n = p := by
  have hshape := shape_inline h
  cases n with
  | piecewiseLinear => cases hterm
  | list | call => cases hlist
  | _ =>
    cases p <;> cases hshape
    cases h
    rfl

theorem lay_eq_pushNode (hlist : n.list? = none) (hterm : n.term? = none) :
    s.lay k n = s.pushNode k (s.layout n) := by
  simp [lay, pushNode, Plain.listed_eq_nil hlist, Plain.numbers_eq_nil hterm]

end Store

end ModelExpr
