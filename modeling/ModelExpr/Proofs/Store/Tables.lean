import ModelExpr.Proofs.Store.Recipe
import ModelExpr.Proofs.Store.Spans

namespace ModelExpr

namespace Payload

def operandSpans : Payload → List Span
  | .list r | .call _ r => [r]
  | _ => []

def numberSpans : Payload → List Span
  | .piecewiseLinear slopes breakpoints _ => [slopes, breakpoints]
  | _ => []

end Payload

namespace Store

def operandSpans (s : Store) : List Span := s.nodes.toList.flatMap Payload.operandSpans

def numberSpans (s : Store) : List Span := s.nodes.toList.flatMap Payload.numberSpans

def refs (s : Store) : List Ref := s.kinds.toList.zipIdx.map fun (k, i) => ⟨⟨i.toUInt32⟩, k⟩

def argumentCount (s : Store) (r : Ref) : Except Failure Nat :=
  match h : (View.specific r.kind).list? with
  | some _ => s.read (.ofRef r) (.operandCount h)
  | none => .ok 0

def termCount (s : Store) (r : Ref) : Except Failure Nat :=
  if h : View.specific r.kind = .piecewiseLinear then do
    return (← s.read (.ofRef r) (.slopeCount h)) + (← s.read (.ofRef r) (.breakpointCount h))
  else .ok 0

def total : List (Except Failure Nat) → Except Failure Nat
  | [] => .ok 0
  | x :: xs => do return (← x) + (← total xs)

def Shaped (s : Store) : Prop :=
  s.nodes.toList.map Payload.shape = s.kinds.toList.map Kind.shape

theorem Shaped.exists_payload {s : Store} (hs : s.Shaped) {i : ExprId} {k : Kind}
    (hk : s.kind? i = some k) : ∃ p, s.nodes[i.index]? = some p ∧ p.shape = k.shape := by
  have hshape : s.nodes[i.index]?.map Payload.shape = s.kinds[i.index]?.map Kind.shape := by
    simpa using congrArg (·[i.index]?) hs
  have hkind : s.kinds[i.index]? = some k := hk
  rw [hkind] at hshape
  exact Option.map_eq_some_iff.1 hshape

structure Divided (s : Store) (ns : List PlainNode) : Prop where
  plainNodes : s.plainNodes = ns.map .ok
  positions : s.refs.map (·.id.index) = List.range s.kinds.size
  operands : s.operands.toList = ns.flatMap (·.content.listed)
  numbers : s.numbers.toList = ns.flatMap (·.content.numbers)
  operandSpans : Span.Divides s.operandSpans s.operands.size
  numberSpans : Span.Divides s.numberSpans s.numbers.size
  unlisted : ∀ r ∈ s.operandSpans, r.length = 0 → r = .empty
  argumentCounts : total (s.refs.map s.argumentCount) = .ok s.operands.size
  termCounts : total (s.refs.map s.termCount) = .ok s.numbers.size

variable {s t : Store} {k : Kind} {n : Plain} {ns : List PlainNode}

theorem operandSpans_lay :
    (s.lay k n).operandSpans = s.operandSpans ++ (s.layout n).operandSpans := by
  simp [operandSpans, lay]

theorem numberSpans_lay : (s.lay k n).numberSpans = s.numberSpans ++ (s.layout n).numberSpans := by
  simp [numberSpans, lay]

theorem length_following {m l : Nat} (hl : l < UInt32.size) :
    (Span.following m l).length.toNat = l :=
  Nat.mod_eq_of_lt hl

theorem Room.divides_listed {rs : List Ref}
    (hroom : rs ≠ [] → s.operands.size < UInt32.size ∧ rs.length < UInt32.size)
    (h : Span.Divides s.operandSpans s.operands.size) :
    Span.Divides (s.operandSpans ++ [s.operandSpan rs]) (s.operands.size + rs.length) := by
  cases rs with
  | nil => exact h.concat fun hne => absurd rfl hne
  | cons r rs =>
    obtain ⟨hm, hl⟩ := hroom (List.cons_ne_nil r rs)
    have hspan : s.operandSpan (r :: rs) = .following s.operands.size (r :: rs).length := rfl
    rw [hspan]
    have hlast := h.concat fun _ => (Span.following_bounds hm hl).1
    rwa [length_following hl] at hlast

theorem Room.divides_operands (hroom : s.Room n)
    (h : Span.Divides s.operandSpans s.operands.size) :
    Span.Divides (s.lay k n).operandSpans (s.lay k n).operands.size := by
  have hsize : (s.lay k n).operands.size = s.operands.size + n.listed.length := by simp [lay]
  rw [operandSpans_lay, hsize]
  cases n with
  | list rs | call f rs => exact divides_listed hroom.operands h
  | _ =>
    change Span.Divides (s.operandSpans ++ []) s.operands.size
    rwa [List.append_nil]

theorem Room.divides_numbers (hroom : s.Room n) (h : Span.Divides s.numberSpans s.numbers.size) :
    Span.Divides (s.lay k n).numberSpans (s.lay k n).numbers.size := by
  have hsize : (s.lay k n).numbers.size = s.numbers.size + n.numbers.length := by simp [lay]
  rw [numberSpans_lay, hsize]
  cases n with
  | piecewiseLinear xs ys r =>
    obtain ⟨hxs, hys⟩ := hroom.numbers xs ys r rfl
    -- The slopes come first, and the breakpoints start where they end.
    have hm : s.numbers.size < UInt32.size ∧ xs.length < UInt32.size := by omega
    have hslopes := h.concat fun _ => (Span.following_bounds hm.1 hm.2).1
    rw [length_following hm.2] at hslopes
    have hboth := hslopes.concat fun _ => (Span.following_bounds hxs hys).1
    rw [length_following hys, List.append_assoc] at hboth
    rw [Plain.numbers, List.length_append, ← Nat.add_assoc]
    exact hboth
  | _ =>
    change Span.Divides (s.numberSpans ++ []) s.numbers.size
    rwa [List.append_nil]

theorem Room.unlisted (hroom : s.Room n) (h : ∀ r ∈ s.operandSpans, r.length = 0 → r = .empty) :
    ∀ r ∈ (s.lay k n).operandSpans, r.length = 0 → r = .empty := by
  have hspan (rs : List Ref) (hrs : n.listed = rs) (hzero : (s.operandSpan rs).length = 0) :
      s.operandSpan rs = .empty := by
    cases rs with
    | nil => rfl
    | cons r rs =>
      have hl := (hroom.operands (by simp [hrs])).2
      have hlength := length_following (m := s.operands.size) hl
      rw [hrs] at hlength
      have hzero : (Span.following s.operands.size (r :: rs).length).length = 0 := hzero
      rw [hzero] at hlength
      cases hlength
  intro r hr
  rw [operandSpans_lay] at hr
  obtain hr | hr := List.mem_append.1 hr
  · exact h r hr
  · cases n with
    | list rs | call f rs =>
      obtain rfl := List.mem_singleton.1 hr
      exact hspan rs rfl
    | _ => cases hr

theorem Tiled.along {P : Store → Prop} (h : s.Tiled ns) (hempty : ∀ fs, P { functions := fs })
    (hlay : ∀ (t : Store) (n : PlainNode), P t → t.Room n.content → P (t.lay n.kind n.content)) : P s := by
  have hprefix (i : Nat) (hi : i ≤ ns.length) : P (ofNodes s.functions (ns.take i)) := by
    induction i with
    | zero => exact hempty s.functions
    | succ i ih =>
      have hn := List.getElem?_eq_getElem hi
      rw [ofNodes_take_succ hn]
      exact hlay _ _ (ih (Nat.le_of_lt hi)) (h.room i _ hn)
  have hall := hprefix ns.length (Nat.le_refl _)
  rwa [List.take_length, ← h.store_eq] at hall

theorem operands_ofNodes (fs : Array String) (ns : List PlainNode) :
    (ofNodes fs ns).operands.toList = ns.flatMap (·.content.listed) ∧
      (ofNodes fs ns).numbers.toList = ns.flatMap (·.content.numbers) := by
  induction ns using List.reverseRecOn with
  | nil => exact ⟨rfl, rfl⟩
  | append_singleton ns n ih =>
    rw [ofNodes_concat]
    simp [lay, ih.1, ih.2]

theorem Tiled.sizes (h : s.Tiled ns) : s.nodes.size = ns.length ∧ s.kinds.size = ns.length := by
  rw [h.store_eq]
  exact size_ofNodes s.functions ns

theorem Tiled.plainNodes (h : s.Tiled ns) : s.plainNodes = ns.map .ok := by
  obtain ⟨hnodes, hkinds⟩ := h.sizes
  apply List.ext_getElem?
  intro i
  rw [Store.plainNodes, List.getElem?_map, List.getElem?_map]
  cases hn : ns[i]? with
  | none =>
    have hi : ns.length ≤ i := List.getElem?_eq_none_iff.1 hn
    have hzip : (s.kinds.toList.zip s.nodes.toList)[i]? = none := by
      rw [List.getElem?_eq_none_iff, List.length_zip]
      simp [hnodes, hkinds, hi]
    rw [hzip]
    rfl
  | some n =>
    obtain ⟨hplain, hkind⟩ := h.node hn
    obtain ⟨p, hp, hinline⟩ := plain?_eq_some_iff.1 hplain
    rw [← Array.getElem?_toList] at hkind hp
    rw [List.getElem?_zip_eq_some (z := (n.kind, p)) |>.2 ⟨hkind, hp⟩]
    simp only [Option.map_some, hinline]
    rfl

section Counts

variable {r : Ref} (hn : s.plain? r.id.index = some n) (hshape : n.shape = r.kind.shape)

include hn hshape

theorem argumentCount_of_plain : s.argumentCount r = .ok n.listed.length := by
  have haccepts := (View.specific_accepts r.kind).1
  unfold argumentCount
  split
  case h_1 l hl =>
    rw [View.list?_eq_some_iff.1 hl] at haccepts
    have hlist := Plain.list?_of_accepts haccepts hshape
    have hfield : n.field? s.variableIndex? (.operandCount hl) = some (.ok n.listed.length) := by
      rw [Plain.field?, Plain.listed, hlist]
      rfl
    exact read_of_plain hn hfield
  case h_2 hnone =>
    have hother : ∀ k : Kind, (View.specific k).list? = none → k.shape ≠ .list ∧ k.shape ≠ .call := by
      decide +kernel
    obtain ⟨hlist, hcall⟩ := hother r.kind hnone
    rw [← hshape] at hlist hcall
    cases n <;> first | rfl | contradiction

theorem termCount_of_plain : s.termCount r = .ok n.numbers.length := by
  have hterm : ∀ k : Kind, View.specific k = .piecewiseLinear ↔ k.shape = .piecewiseLinear := by
    decide +kernel
  have hkind := hterm r.kind
  rw [← hshape] at hkind
  unfold termCount
  split
  case isTrue h =>
    have hpiecewise := hkind.1 h
    cases n <;> cases hpiecewise
    rw [read_of_plain hn (f := .slopeCount h) rfl, read_of_plain hn (f := .breakpointCount h) rfl]
    rw [Plain.numbers, List.length_append]
    rfl
  case isFalse h =>
    cases n <;> first | rfl | exact absurd (hkind.2 rfl) h

end Counts

theorem total_ok {α β : Type} (f : α → List β) (xs : List α) :
    total (xs.map fun x => .ok (f x).length) = .ok (xs.flatMap f).length := by
  induction xs with
  | nil => rfl
  | cons x xs ih =>
    rw [List.map_cons, total, ih, List.flatMap_cons, List.length_append]
    rfl

theorem Tiled.shape_eq (h : s.Tiled ns) (hs : s.Shaped) {i : Nat} {n : PlainNode}
    (hn : ns[i]? = some n) : n.content.shape = n.kind.shape := by
  obtain ⟨hplain, hkind⟩ := h.node hn
  obtain ⟨p, hp, hinline⟩ := plain?_eq_some_iff.1 hplain
  have hshapes := congrArg (·[i]?) hs
  simp only [List.getElem?_map, Array.getElem?_toList, hp, hkind, Option.map_some,
    Option.some.injEq] at hshapes
  exact (shape_inline hinline).trans hshapes

theorem Tiled.lt_size (h : s.Tiled ns) {i : Nat} {n : PlainNode} (hn : ns[i]? = some n) :
    i < UInt32.size := by
  have hroom := (h.room i n hn).node
  have hi := (List.getElem?_eq_some_iff.1 hn).1
  rwa [(size_ofNodes _ _).1, List.length_take_of_le (Nat.le_of_lt hi)] at hroom

theorem zipIdx_index {α : Type} {xs : List α} (h : xs.length ≤ UInt32.size) :
    xs.zipIdx.map (·.2.toUInt32.toNat) = List.range xs.length := by
  apply List.ext_getElem
  · simp
  · intro i hi hi'
    rw [List.length_range] at hi'
    rw [List.getElem_map, List.getElem_zipIdx, List.getElem_range, Nat.zero_add]
    exact Nat.mod_eq_of_lt (Nat.lt_of_lt_of_le hi' h)

theorem refs_index (h : s.kinds.size ≤ UInt32.size) :
    s.refs.map (·.id.index) = List.range s.kinds.size := by
  rw [refs, List.map_map]
  exact zipIdx_index h

theorem Tiled.kinds_le (h : s.Tiled ns) : s.kinds.size ≤ UInt32.size := by
  rw [h.sizes.2]
  by_contra hmore
  have hn := List.getElem?_eq_getElem (Nat.lt_of_not_le hmore)
  exact Nat.lt_irrefl _ (h.lt_size hn)

theorem Tiled.map_refs (h : s.Tiled ns) (hs : s.Shaped) {f : Ref → Except Failure Nat}
    {g : Plain → Nat} (hf : ∀ (r : Ref) (n : Plain), s.plain? r.id.index = some n →
      n.shape = r.kind.shape → f r = .ok (g n)) :
    s.refs.map f = ns.map fun n => .ok (g n.content) := by
  apply List.ext_getElem?
  intro i
  rw [refs, List.map_map, List.getElem?_map, List.getElem?_map, List.getElem?_zipIdx,
    Array.getElem?_toList]
  cases hn : ns[i]? with
  | none =>
    have hi : s.kinds.size ≤ i := h.sizes.2 ▸ List.getElem?_eq_none_iff.1 hn
    rw [Array.getElem?_eq_none hi]
    rfl
  | some n =>
    obtain ⟨hplain, hkind⟩ := h.node hn
    have hindex : (ExprId.mk i.toUInt32).index = i := Nat.mod_eq_of_lt (h.lt_size hn)
    have hcount := hf ⟨⟨i.toUInt32⟩, n.kind⟩ n.content (by rw [hindex]; exact hplain)
      (h.shape_eq hs hn)
    rw [hkind]
    simp only [Option.map_some, Function.comp_apply, Nat.zero_add]
    exact congrArg some hcount

theorem Tiled.divided (h : s.Tiled ns) (hs : s.Shaped) : s.Divided ns := by
  have hentries := operands_ofNodes s.functions ns
  rw [← h.store_eq] at hentries
  obtain ⟨hoperands, hnumbers⟩ := hentries
  constructor
  · exact h.plainNodes
  · exact refs_index h.kinds_le
  · exact hoperands
  · exact hnumbers
  · exact h.along (P := fun t => Span.Divides t.operandSpans t.operands.size)
      (fun _ => .nil) fun t n ht hroom => hroom.divides_operands ht
  · exact h.along (P := fun t => Span.Divides t.numberSpans t.numbers.size)
      (fun _ => .nil) fun t n ht hroom => hroom.divides_numbers ht
  · apply h.along (P := fun t => ∀ r ∈ t.operandSpans, r.length = 0 → r = .empty)
    · intro fs r hr
      cases hr
    · intro t n ht hroom
      exact hroom.unlisted ht
  · rw [h.map_refs hs fun r n => argumentCount_of_plain, total_ok, ← hoperands, Array.length_toList]
  · rw [h.map_refs hs fun r n => termCount_of_plain, total_ok, ← hnumbers, Array.length_toList]

end Store

end ModelExpr
