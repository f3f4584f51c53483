import ModelExpr.Proofs.Store.Tables
/-!
Series: the lists of an expression that a view reads by index, as a whole and by their length. All
three give one list, which is what the span of the node cuts out of a flat list.
-/

namespace ModelExpr

namespace Span

variable {α β : Type} {u : Span} {ws xs : List α}

/-- The span stays within `ws`, and `xs` is what it has there. -/
structure Cuts (u : Span) (ws xs : List α) : Prop where
  stop_le : u.stop ≤ ws.length
  length_eq : u.length.toNat = xs.length
  entry : ∀ i, i < xs.length → ws[u.start.toNat + i]? = xs[i]?

theorem Cuts.map (h : u.Cuts ws xs) (f : α → β) : u.Cuts (ws.map f) (xs.map f) := by
  constructor
  · simpa using h.stop_le
  · simpa using h.length_eq
  · intro i hi
    rw [List.length_map] at hi
    rw [List.getElem?_map, List.getElem?_map, h.entry i hi]

theorem cuts_extract {ws : Array α} (h : u.stop ≤ ws.size) :
    u.Cuts ws.toList (ws.extract u.start.toNat u.stop).toList := by
  have hlength : (ws.extract u.start.toNat u.stop).toList.length = u.length.toNat := by
    rw [Array.length_toList, Array.size_extract, Nat.min_eq_left h, stop, Nat.add_sub_cancel_left]
  constructor
  · exact h
  · exact hlength.symm
  · intro i hi
    rw [hlength] at hi
    have hlt : i < u.stop - u.start.toNat := by
      unfold stop
      omega
    simp [hlt]

end Span

namespace Store

variable {s : Store} {p : Payload} {u : Span}

theorem cuts_operandsIn {rs : List Ref} (h : (s.operandsIn u).map (·.toList) = .ok rs) :
    u.Cuts s.operands.toList rs := by
  unfold operandsIn at h
  split at h <;> cases h
  apply Span.cuts_extract
  assumption

theorem cuts_numbersIn {xs : Array Binary64} (h : s.numbersIn u = .ok xs) :
    u.Cuts s.numbers.toList xs.toList := by
  unfold numbersIn at h
  split at h <;> cases h
  apply Span.cuts_extract
  assumption

theorem exists_operandSpan {n : Plain} {rs : List Ref} (hp : s.inline p = .ok n)
    (hrs : n.list? = some rs) :
    ∃ u, p.operandSpans[0]? = some u ∧ u.Cuts s.operands.toList rs := by
  have hshape := shape_inline hp
  have hoperands := operandsOf_inline hp
  cases n <;> cases hrs <;> cases p <;> cases hshape <;>
    exact ⟨_, rfl, cuts_operandsIn hoperands⟩

theorem exists_numberSpans {xs ys : List Binary64} {r : Ref}
    (hp : s.inline p = .ok (.piecewiseLinear xs ys r)) :
    ∃ u w, p.numberSpans[0]? = some u ∧ p.numberSpans[1]? = some w ∧
      u.Cuts s.numbers.toList xs ∧ w.Cuts s.numbers.toList ys := by
  cases p <;> cases shape_inline hp
  obtain ⟨ws, zs, hws, hzs, he⟩ := inline_eq_ok_term.1 hp
  cases he
  exact ⟨_, _, rfl, rfl, cuts_numbersIn hws, cuts_numbersIn hzs⟩

end Store

inductive Series (v : View) : Content → Type where
  | operands {l : ListView} (e : v.list? = some l) : Series v (.handle l.element)
  | slopes (e : v = .piecewiseLinear) : Series v .number
  | breakpoints (e : v = .piecewiseLinear) : Series v .number

namespace Series

variable {v : View} {c : Content}

def count : Series v c → Field v .count
  | .operands e => .operandCount e
  | .slopes e => .slopeCount e
  | .breakpoints e => .breakpointCount e

def entry : Series v c → Nat → Field v c
  | .operands e => .operand e
  | .slopes e => .slope e
  | .breakpoints e => .breakpoint e

def readAll (s : Store) (x : Handle v) : Series v c → Except Failure (Array c.Value)
  | .operands e => s.read x (.operands e)
  | .slopes e => s.read x (.slopes e)
  | .breakpoints e => s.read x (.breakpoints e)

def flat (s : Store) : Series v c → List c.Value
  | .operands _ => s.operands.toList.map .ofRef
  | .slopes _ | .breakpoints _ => s.numbers.toList

def span? (p : Payload) : Series v c → Option Span
  | .operands _ => p.operandSpans[0]?
  | .slopes _ => p.numberSpans[0]?
  | .breakpoints _ => p.numberSpans[1]?

def list? (n : Plain) : Series v c → Option (List c.Value)
  | .operands _ => n.list?.map fun rs => rs.map .ofRef
  | .slopes _ => n.term?.map (·.1)
  | .breakpoints _ => n.term?.map (·.2.1)

/-- Every way of reading the list gives `xs`: its length, all of it, and its entries one by one. No
other index is answered, whatever follows in the flat list. -/
structure Reads (L : Series v c) (s : Store) (x : Handle v) (xs : List c.Value) : Prop where
  count : s.read x L.count = .ok xs.length
  all : L.readAll s x = .ok xs.toArray
  entry_iff : ∀ i y, s.read x (L.entry i) = .ok y ↔ xs[i]? = some y
  refused_iff : ∀ i φ, s.read x (L.entry i) = .error φ ↔
    xs.length ≤ i ∧ φ = .rejected (.indexOutOfBounds i xs.length)

variable {s : Store} {r : Ref} {p : Payload} {n : Plain} {k : Kind} {xs : List c.Value}

theorem entry_mapError {ε α : Type} (f : Rejection → ε) (xs : List α) (i : Nat) :
    (∀ y, (Plain.entry xs i).mapError f = .ok y ↔ xs[i]? = some y) ∧
      ∀ φ, (Plain.entry xs i).mapError f = .error φ ↔
        xs.length ≤ i ∧ φ = f (.indexOutOfBounds i xs.length) := by
  by_cases hi : i < xs.length
  · rw [Plain.entry_of_lt hi]
    change (∀ y, Except.ok _ = Except.ok y ↔ _) ∧ ∀ φ, Except.ok _ = Except.error φ ↔ _
    simp [hi]
  · rw [Plain.entry_of_le (Nat.le_of_not_lt hi)]
    change (∀ y, Except.error _ = Except.ok y ↔ _) ∧ ∀ φ, Except.error _ = Except.error φ ↔ _
    simp [Nat.le_of_not_lt hi, eq_comm]

theorem exists_list (L : Series v c) (hv : v.accepts k = true) (hn : n.shape = k.shape) :
    ∃ xs, L.list? n = some xs := by
  cases L with
  | operands e =>
    obtain rfl := View.list?_eq_some_iff.1 e
    exact ⟨_, congrArg (Option.map _) (Plain.list?_of_accepts hv hn)⟩
  | slopes e | breakpoints e =>
    rw [e] at hv
    obtain rfl := of_decide_eq_true hv
    cases n <;> first | exact ⟨_, rfl⟩ | cases hn

theorem readAll_of_plain (L : Series v c) (hn : s.plain? r.id.index = some n)
    (hxs : L.list? n = some xs) : L.readAll s (.ofRef r) = .ok xs.toArray := by
  cases L with
  | operands e =>
    obtain ⟨rs, hrs, rfl⟩ := Option.map_eq_some_iff.1 hxs
    exact Store.read_of_plain (f := .operands e) (x := .ok _) hn (by rw [Plain.field?, hrs]; rfl)
  | slopes e =>
    obtain ⟨t, ht, rfl⟩ := Option.map_eq_some_iff.1 hxs
    exact Store.read_of_plain (f := .slopes e) (x := .ok _) hn (by rw [Plain.field?, ht]; rfl)
  | breakpoints e =>
    obtain ⟨t, ht, rfl⟩ := Option.map_eq_some_iff.1 hxs
    exact Store.read_of_plain (f := .breakpoints e) (x := .ok _) hn (by rw [Plain.field?, ht]; rfl)

theorem reads (L : Series v c) (hn : s.plain? r.id.index = some n) (hxs : L.list? n = some xs) :
    L.Reads s (.ofRef r) xs := by
  have hcount : n.field? s.variableIndex? L.count = some (.ok xs.length) := by
    cases L <;> cases n <;> cases hxs <;> simp [count, Plain.field?, Plain.list?, Plain.term?]
  have hentry (i : Nat) : n.field? s.variableIndex? (L.entry i) = some (Plain.entry xs i) := by
    cases L with
    | operands e =>
      obtain ⟨rs, hrs, rfl⟩ := Option.map_eq_some_iff.1 hxs
      rw [entry, Plain.field?, hrs, Option.map_some, Plain.map_entry]
    | slopes e | breakpoints e =>
      obtain ⟨t, ht, rfl⟩ := Option.map_eq_some_iff.1 hxs
      rw [entry, Plain.field?, ht, Option.map_some]
  constructor
  · exact Store.read_of_plain hn hcount
  · exact L.readAll_of_plain hn hxs
  · intro i
    rw [Store.read_of_plain hn (hentry i)]
    exact (entry_mapError _ xs i).1
  · intro i
    rw [Store.read_of_plain hn (hentry i)]
    exact (entry_mapError _ xs i).2

theorem exists_span (L : Series v c) (hp : s.inline p = .ok n) (hxs : L.list? n = some xs) :
    ∃ u, L.span? p = some u ∧ u.Cuts (L.flat s) xs := by
  cases L with
  | operands e =>
    obtain ⟨rs, hrs, rfl⟩ := Option.map_eq_some_iff.1 hxs
    obtain ⟨u, hu, hcuts⟩ := Store.exists_operandSpan hp hrs
    exact ⟨u, hu, hcuts.map Handle.ofRef⟩
  | slopes e =>
    cases n <;> cases hxs
    obtain ⟨u, w, hu, -, hcuts, -⟩ := Store.exists_numberSpans hp
    exact ⟨u, hu, hcuts⟩
  | breakpoints e =>
    cases n <;> cases hxs
    obtain ⟨u, w, -, hw, -, hcuts⟩ := Store.exists_numberSpans hp
    exact ⟨w, hw, hcuts⟩

end Series

end ModelExpr
