import ModelExpr.Proofs.Store.Typed

namespace ModelExpr

namespace Field

variable {v : View} {c : Content}

def shapes : Field v c → List Shape
  | .number _ => [.number]
  | .truth _ => [.truth]
  | .index _ => [.decisionVariable]
  | .argument _ => [.unary]
  | .left _ | .right _ => [.binary]
  | .condition _ | .consequent _ | .alternative _ => [.branching]
  | .slopes _ | .breakpoints _ | .slopeCount _ | .breakpointCount _ | .slope _ _ | .breakpoint _ _
  | .termVariable _ | .termVariableIndex _ => [.piecewiseLinear]
  | .function _ => [.call]
  | .reference _ | .operandCount _ | .operand _ _ | .operands _ => [.list, .call]

def length? (n : Plain) : Field v c → Option Nat
  | .slope _ _ => n.term?.map (·.1.length)
  | .breakpoint _ _ => n.term?.map (·.2.1.length)
  | .operand _ _ => n.list?.map (·.length)
  | _ => none

inductive Outcome (s : Store) {v : View} (x : Handle v) :
    {c : Content} → Field v c → Except Failure c.Value → Prop where
  | null {c : Content} (f : Field v c) (hx : x.ref? = none) :
    Outcome s x f (.error (.faulty (.nullHandle v)))
  | beyond {c : Content} {r : Ref} (f : Field v c) (hx : x.ref? = some r)
    (h : s.nodes.size ≤ r.id.index) :
    Outcome s x f (.error (.faulty (.indexOutOfRange r.id.index s.nodes.size)))
  | mismatch {c : Content} {r : Ref} {p : Payload} (f : Field v c) (hx : x.ref? = some r)
    (hp : s.nodes[r.id.index]? = some p) (h : p.shape ∉ f.shapes) :
    Outcome s x f (.error (.faulty (.mismatch v p)))
  -- the first operand of a list that has none
  | empty {r : Ref} {n : Plain} (e : v = .numberOf) (hx : x.ref? = some r)
    (hn : s.plain? r.id.index = some n) (h : n.list? = some []) :
    Outcome s x (.reference e) (.error (.faulty (.indexOutOfRange 0 0)))
  | refused {c : Content} {r : Ref} {n : Plain} {i m : Nat} (f : Field v c) (hx : x.ref? = some r)
    (hn : s.plain? r.id.index = some n) (hi : f.index? = some i) (hm : f.length? n = some m)
    (h : m ≤ i) :
    Outcome s x f (.error (.rejected (.indexOutOfBounds i m)))
  | value {c : Content} {r : Ref} {n : Plain} {y : c.Value} (f : Field v c) (hx : x.ref? = some r)
    (hn : s.plain? r.id.index = some n) (hy : n.field? s.variableIndex? f = some (.ok y)) :
    Outcome s x f (.ok y)

namespace Outcome

variable {s : Store} {x : Handle v} {f : Field v c}

theorem ne_span {stop length : Nat} :
    ¬f.Outcome s x (.error (.faulty (.spanOutOfRange stop length))) := by
  rintro ⟨⟩

theorem termVariableIndex_iff {e : v = .piecewiseLinear} {φ : Failure} :
    (Field.termVariableIndex e).Outcome s x (.error φ) ↔
      (Field.termVariable e).Outcome s x (.error φ) := by
  constructor
  · intro h
    cases h with
    | null _ hx => exact .null _ hx
    | beyond _ hx h => exact .beyond _ hx h
    | mismatch _ hx hp h => exact .mismatch _ hx hp h
    | refused _ _ _ hi => cases hi
  · intro h
    cases h with
    | null _ hx => exact .null _ hx
    | beyond _ hx h => exact .beyond _ hx h
    | mismatch _ hx hp h => exact .mismatch _ hx hp h
    | refused _ _ _ hi => cases hi

end Outcome

theorem field?_refused {n : Plain} {index? : Ref → Option UInt32} {f : Field v c} {i m : Nat}
    (hi : f.index? = some i) (hm : f.length? n = some m) (h : m ≤ i) :
    n.field? index? f = some (.error (.indexOutOfBounds i m)) := by
  have hentry {α : Type} {xs : List α} (hxs : xs.length = m) :
      Plain.entry xs i = .error (.indexOutOfBounds i m) := by
    rw [Plain.entry_of_le (hxs ▸ h), hxs]
  cases f with
  | slope | breakpoint =>
    cases hi
    obtain ⟨p, hp, hlength⟩ := Option.map_eq_some_iff.1 hm
    rw [Plain.field?, hp, Option.map_some, hentry hlength]
  | operand =>
    cases hi
    obtain ⟨rs, hrs, hlength⟩ := Option.map_eq_some_iff.1 hm
    rw [Plain.field?, hrs, Option.map_some, hentry hlength]
    rfl
  | _ => cases hi

end Field

def Content.refs : (c : Content) → c.Value → List Ref
  | .handle _, h => h.ref?.toList
  | .handles _, hs => hs.toList.filterMap (·.ref?)
  | _, _ => []

theorem Plain.mem_operands_of_field? {n : Plain} {index? : Ref → Option UInt32} {v : View}
    {c : Content} {f : Field v c} {x : c.Value} (h : n.field? index? f = some (.ok x)) :
    ∀ r ∈ c.refs x, r ∈ n.operands := by
  have hlist {rs : List Ref} (hrs : n.list? = some rs) : n.operands = rs := by
    cases n <;> cases hrs <;> rfl
  intro r hr
  cases f with
  | argument | left | right | condition | consequent | alternative | termVariable =>
    cases n <;> cases h <;> simp_all [Content.refs, operands, Handle.ofRef]
  | reference =>
    obtain ⟨rs, hrs, hx⟩ := Option.bind_eq_some_iff.1 h
    obtain ⟨y, hy, hx⟩ := Option.map_eq_some_iff.1 hx
    cases hx
    obtain rfl := List.mem_singleton.1 hr
    exact hlist hrs ▸ List.mem_of_mem_head? hy
  | operand =>
    obtain ⟨rs, hrs, hx⟩ := Option.map_eq_some_iff.1 h
    obtain ⟨y, hy, rfl⟩ := map_eq_ok.1 hx
    obtain rfl := List.mem_singleton.1 hr
    unfold entry at hy
    split at hy <;> cases hy
    exact hlist hrs ▸ List.mem_of_getElem? ‹_›
  | operands =>
    obtain ⟨rs, hrs, hx⟩ := Option.map_eq_some_iff.1 h
    cases hx
    simpa [Content.refs, Handle.ofRef, hlist hrs] using hr
  | _ => cases hr

namespace Store

variable {s : Store} {v : View} {x : Handle v} {c : Content} {p : Payload} {r : Ref} {n : Plain}
  {i : Nat} {k : Kind}

theorem read_of_payload_error {e : Fault} (hp : s.payload x = .error e) (f : Field v c) :
    s.read x f = .error (.faulty e) := by
  cases f <;>
    simp only [read, readNumber, readTruth, readIndex, readUnary, readBinary, readBranches,
      readSlopes, readBreakpoints, readTermVariable, readTerm, readFunction, readReference,
      readOperands, hp] <;>
    rfl

theorem read_of_mismatch {f : Field v c} (hp : s.payload x = .ok p) (hf : p.shape ∉ f.shapes) :
    s.read x f = .error (.faulty (.mismatch v p)) := by
  cases f <;>
    simp only [read, readNumber, readTruth, readIndex, readUnary, readBinary, readBranches,
      readSlopes, readBreakpoints, readTermVariable, readTerm, readFunction, readReference,
      readOperands, hp] <;>
    cases p <;>
    first
      | rfl
      | exact absurd (.head _) hf
      | exact absurd (.tail _ (.head _)) hf

theorem read_of_outcome {f : Field v c} {y : Except Failure c.Value} (h : f.Outcome s x y) :
    s.read x f = y := by
  obtain ⟨x?⟩ := x
  cases h with
  | null f hx =>
    obtain rfl : x? = none := hx
    exact read_of_payload_error rfl f
  | beyond f hx h =>
    obtain rfl : x? = some _ := hx
    apply read_of_payload_error
    simp [payload, node, Array.getElem?_eq_none h]
  | mismatch f hx hp h =>
    obtain rfl : x? = some _ := hx
    exact read_of_mismatch (payload_ofRef hp) h
  | empty e hx hn h =>
    obtain rfl : x? = some _ := hx
    change s.read (.ofRef _) (.reference e) = _
    rw [read, readReference, readOperands_of_plain hn h]
    rfl
  | refused f hx hn hi hm h =>
    obtain rfl : x? = some _ := hx
    exact read_of_plain hn (Field.field?_refused hi hm h)
  | value f hx hn hy =>
    obtain rfl : x? = some _ := hx
    exact read_of_plain hn hy

theorem exists_outcome_of_entry {f : Field v c} {xs : List c.Value} {j : Nat}
    (hx : x.ref? = some r) (hn : s.plain? r.id.index = some n)
    (hf : n.field? s.variableIndex? f = some (Plain.entry xs j)) (hj : f.index? = some j)
    (hlength : f.length? n = some xs.length) : ∃ y, f.Outcome s x y := by
  by_cases h : j < xs.length
  · exact ⟨_, .value f hx hn (hf.trans (congrArg some (Plain.entry_of_lt h)))⟩
  · exact ⟨_, .refused f hx hn hj hlength (Nat.le_of_not_lt h)⟩

theorem Suits.exists_outcome (h : s.Suits i k n) (hs : s.WellFormed) (hx : x.ref? = some r)
    (hn : s.plain? r.id.index = some n) {f : Field v c} (hf : n.shape ∈ f.shapes) :
    ∃ y, f.Outcome s x y := by
  have hlist (hshape : n.shape ∈ [.list, .call]) : n.list? = some n.operands := by
    cases n <;> simp [Plain.shape] at hshape <;> rfl
  cases f with
  | number | truth | index | argument | left | right | condition | consequent | alternative
  | slopes | breakpoints | slopeCount | breakpointCount | termVariable | function =>
    have hshape := List.mem_singleton.1 hf
    cases n <;> cases hshape <;> exact ⟨_, .value _ hx hn rfl⟩
  | slope | breakpoint =>
    have hshape := List.mem_singleton.1 hf
    cases n <;> cases hshape <;> exact exists_outcome_of_entry hx hn rfl rfl rfl
  | termVariableIndex e =>
    have hshape := List.mem_singleton.1 hf
    cases n <;> cases hshape
    -- the term is a node of the store, and so its argument is one of its variables
    have hk : k = .piecewiseLinear := by
      have hterm : ∀ k : Kind, .piecewiseLinear = k.shape → k = .piecewiseLinear := by decide
      exact hterm k h.shape
    subst hk
    obtain ⟨-, hholds, haccepts⟩ := h.operands 0 _ rfl
    obtain ⟨j, hj⟩ := hs.exists_variableIndex hholds (of_decide_eq_true haccepts)
    exact ⟨.ok j, .value _ hx hn (by simp [Plain.field?, Plain.term?, hj])⟩
  | reference e =>
    have hl := hlist hf
    cases ho : n.operands with
    | nil => exact ⟨_, .empty e hx hn (ho ▸ hl)⟩
    | cons q qs => exact ⟨.ok (.ofRef q), .value _ hx hn (by simp [Plain.field?, hl, ho])⟩
  | operandCount | operands => exact ⟨_, .value _ hx hn (by rw [Plain.field?, hlist hf]; rfl)⟩
  | operand e j =>
    have hl := hlist hf
    have hfield : n.field? s.variableIndex? (.operand e j) =
        some (Plain.entry (n.operands.map .ofRef) j) := by
      rw [← Plain.map_entry, Plain.field?, hl]
      rfl
    have hlength : (Field.operand e j).length? n = some n.operands.length :=
      congrArg (Option.map List.length) hl
    exact exists_outcome_of_entry hx hn hfield rfl (by rw [hlength, List.length_map])

theorem WellFormed.exists_suits (hs : s.WellFormed) (hi : i < s.nodes.size) :
    ∃ k n, s.plain? i = some n ∧ s.Suits i k n := by
  have hp := Array.getElem?_eq_getElem hi
  have hk := Array.getElem?_eq_getElem (hs.size_eq.symm ▸ hi : i < s.kinds.size)
  obtain ⟨n, hn, hsuits⟩ := fits_iff.1 (hs.fits _ _ _ hk hp)
  exact ⟨_, n, plain?_eq_some_iff.2 ⟨_, hp, hn⟩, hsuits⟩

theorem WellFormed.exists_outcome (hs : s.WellFormed) (x : Handle v) (f : Field v c) :
    ∃ y, f.Outcome s x y := by
  cases hx : x.ref? with
  | none => exact ⟨_, .null f hx⟩
  | some r =>
    by_cases hlt : r.id.index < s.nodes.size
    case neg => exact ⟨_, .beyond f hx (Nat.le_of_not_lt hlt)⟩
    case pos =>
      obtain ⟨k, n, hn, hsuits⟩ := hs.exists_suits hlt
      by_cases hf : n.shape ∈ f.shapes
      · exact hsuits.exists_outcome hs hx hn hf
      · obtain ⟨p, hp, hi⟩ := plain?_eq_some_iff.1 hn
        exact ⟨_, .mismatch f hx hp (shape_inline hi ▸ hf)⟩

theorem WellFormed.read_eq_iff (hs : s.WellFormed) {f : Field v c} {y : Except Failure c.Value} :
    s.read x f = y ↔ f.Outcome s x y := by
  constructor
  · rintro rfl
    obtain ⟨y, hy⟩ := hs.exists_outcome x f
    exact (read_of_outcome hy).symm ▸ hy
  · exact read_of_outcome

theorem WellFormed.refs_hold (hs : s.WellFormed) {f : Field v c} {y : c.Value}
    (hy : s.read x f = .ok y) : ∀ q ∈ c.refs y, s.Holds q := by
  cases hs.read_eq_iff.1 hy with
  | value _ hx hn hf =>
    intro q hq
    obtain ⟨p, hp, -⟩ := plain?_eq_some_iff.1 hn
    obtain ⟨k, m, hm, hsuits⟩ := hs.exists_suits (Array.getElem?_eq_some_iff.1 hp).1
    obtain rfl := Option.some.inj (hn.symm.trans hm)
    obtain ⟨j, hj⟩ := List.mem_iff_getElem?.1 (Plain.mem_operands_of_field? hf q hq)
    exact (hsuits.operands j q hj).2.1

theorem cursor_eq_ok {l : ListView} {x : Handle l.view} {k : Cursor l.element}
    (hk : s.cursor x = .ok k) : k = .ofOperands x.ref? k.operands := by
  obtain ⟨rs, -, rfl⟩ := map_eq_ok.1 hk
  rfl

theorem read_operands_eq {l : ListView} (x : Handle l.view) (e : l.view.list? = some l) :
    s.read x (.operands e) = liftM ((s.cursor x).map (·.remaining)) := by
  rw [read, cursor]
  cases s.readOperands x with
  | error φ => rfl
  | ok rs =>
    change Except.ok _ = Except.ok _
    simp [Cursor.remaining, Cursor.ofOperands]

theorem cursor_eq_error_iff {l : ListView} {x : Handle l.view} (e : l.view.list? = some l)
    {φ : Fault} : s.cursor x = .error φ ↔ s.read x (.operands e) = .error (.faulty φ) := by
  rw [read_operands_eq]
  cases s.cursor x with
  | error ψ =>
    change _ ↔ Except.error (Failure.faulty ψ) = _
    simp
  | ok k =>
    change _ ↔ Except.ok _ = _
    simp

end Store

end ModelExpr
