import ModelExpr.Proofs.Store.Typed

namespace ModelExpr

inductive Form (M : Type) where
  | number (value : Binary64)
  | decisionVariable (index : UInt32)
  | truth (value : Bool)
  | unary (operand : M)
  | binary (left right : M)
  | branching (condition consequent : M) (alternative : Option M)
  | piecewiseLinear (slopes breakpoints : List Binary64) (argument : M)
  | list (operands : List M)
  | call (name : Option String) (operands : List M)

namespace Form

variable {M : Type}

def argument? : Form M → Option M
  | .unary a | .piecewiseLinear _ _ a => some a
  | _ => none

def sides? : Form M → Option (M × M)
  | .binary a b => some (a, b)
  | _ => none

def branches? : Form M → Option (M × M × Option M)
  | .branching c t e => some (c, t, e)
  | _ => none

def list? : Form M → Option (List M)
  | .list xs | .call _ xs => some xs
  | _ => none

def callee? : Form M → Option (Option String)
  | .call name _ => some name
  | _ => none

def child? (n : Form M) {v w : View} : Field v (.handle w) → Option (Option M)
  | .argument _ | .termVariable _ => n.argument?.map some
  | .left _ => n.sides?.map fun p => some p.1
  | .right _ => n.sides?.map fun p => some p.2
  | .condition _ => n.branches?.map fun p => some p.1
  | .consequent _ => n.branches?.map fun p => some p.2.1
  | .alternative _ => n.branches?.map fun p => p.2.2
  | .reference _ => n.list?.bind fun xs => xs.head?.map some
  | .operand _ i => n.list?.bind fun xs => xs[i]?.map some

end Form

def Plain.form {M : Type} (μ : Ref → M) (names : FunctionRef → Option String) : Plain → Form M
  | .number x => .number x
  | .decisionVariable i => .decisionVariable i
  | .truth b => .truth b
  | .unary a => .unary (μ a)
  | .binary a b => .binary (μ a) (μ b)
  | .branching c t e => .branching (μ c) (μ t) (e.map μ)
  | .piecewiseLinear xs ys a => .piecewiseLinear xs ys (μ a)
  | .list rs => .list (rs.map μ)
  | .call f rs => .call (names ⟨f⟩) (rs.map μ)

def Handle.value {M : Type} {v : View} (μ : Ref → M) (h : Handle v) : Option M := h.ref?.map μ

namespace Store

def name? (s : Store) (f : FunctionRef) : Option String := (s.functionName f).toOption

def form? {M : Type} (s : Store) (μ : Ref → M) (r : Ref) : Option (Form M) :=
  (s.plain? r.id.index).map (Plain.form μ s.name?)

end Store

section Parts

variable {M : Type} {μ : Ref → M} {names : FunctionRef → Option String} {v w : View} {n : Plain}
  {index? : Ref → Option UInt32}

theorem Plain.list?_form {rs : List Ref} (h : n.list? = some rs) :
    (n.form μ names).list? = some (rs.map μ) := by
  cases n <;> cases h <;> rfl

theorem Plain.toOption_entry {α : Type} (xs : List α) (i : Nat) :
    (entry xs i).toOption = xs[i]? := by
  unfold entry
  cases xs[i]? <;> rfl

theorem Plain.child?_form {f : Field v (.handle w)} {x : Except Rejection (Handle w)}
    (h : n.field? index? f = some x) :
    (n.form μ names).child? f = x.toOption.map (·.value μ) := by
  cases f with
  | argument | left | right | condition | consequent | alternative | termVariable =>
    cases n <;> cases h <;> rfl
  | reference =>
    obtain ⟨rs, hl, hr⟩ := Option.bind_eq_some_iff.1 h
    obtain ⟨r, hhead, rfl⟩ := Option.map_eq_some_iff.1 hr
    simp [Form.child?, list?_form hl, hhead, Except.toOption, Handle.value, Handle.ofRef]
  | operand e i =>
    obtain ⟨rs, hl, rfl⟩ := Option.map_eq_some_iff.1 h
    have hentry := toOption_entry rs i
    cases hx : entry rs i with
    | error e =>
      rw [hx] at hentry
      simp [Form.child?, list?_form hl, ← hentry, Except.toOption, Except.map]
    | ok r =>
      rw [hx] at hentry
      simp [Form.child?, list?_form hl, ← hentry, Except.toOption, Except.map, Handle.value,
        Handle.ofRef]

theorem Plain.callee?_form {e : v = .call} {x : Except Rejection FunctionRef}
    (h : n.field? index? (.function e) = some x) :
    (n.form μ names).callee? = x.toOption.map names := by
  cases n <;> cases h
  rfl

end Parts

namespace Store

variable {M : Type} {μ : Ref → M} {s t : Store} {v w : View} {r : Ref}

theorem mapError_toOption {ε ε' α : Type} (x : Except ε α) (e : ε → ε') :
    (x.mapError e).toOption = x.toOption := by
  cases x <;> rfl

theorem WellFormed.read_child (hs : s.WellFormed) (h : (Handle.ofRef r : Handle v).Known s)
    (f : Field v (.handle w)) :
    (s.read (.ofRef r) f).toOption.map (·.value μ) = (s.form? μ r).bind (·.child? f) := by
  obtain ⟨hv, hr⟩ := h.of_ofRef
  obtain ⟨n, hn, hsuits⟩ := hs.exists_plain hr
  obtain ⟨x, hx, -⟩ := hsuits.exists_field hs hv f
  rw [read_of_plain hn hx, mapError_toOption, form?, hn]
  exact (Plain.child?_form hx).symm

theorem WellFormed.read_callee (hs : s.WellFormed) (h : (Handle.ofRef r : Handle .call).Known s) :
    (s.read (.ofRef r : Handle .call) (.function rfl)).toOption.map s.name? =
      (s.form? μ r).bind (·.callee?) := by
  obtain ⟨hv, hr⟩ := h.of_ofRef
  obtain ⟨n, hn, hsuits⟩ := hs.exists_plain hr
  obtain ⟨x, hx, -⟩ := hsuits.exists_field hs hv (.function rfl)
  rw [read_of_plain hn hx, mapError_toOption, form?, hn]
  exact (Plain.callee?_form hx).symm

theorem WellFormed.cursor_form (hs : s.WellFormed) {l : ListView}
    (h : (Handle.ofRef r : Handle l.view).Known s) : ∃ rs : List Ref,
      s.cursor (.ofRef r : Handle l.view) = .ok (.ofOperands (some r) rs.toArray) ∧
        (s.form? μ r).bind Form.list? = some (rs.map μ) := by
  obtain ⟨hv, hr⟩ := h.of_ofRef
  obtain ⟨n, hn, hsuits⟩ := hs.exists_plain hr
  obtain ⟨hl, -⟩ := hsuits.exists_list hv (View.list?_eq_some_iff.2 rfl)
  refine ⟨_, cursor_of_plain hn hl, ?_⟩
  rw [form?, hn]
  exact Plain.list?_form hl

end Store

end ModelExpr
