import ModelExpr.Proofs.Client.Refinement
import ModelExpr.Proofs.Store.Outcome

namespace ModelExpr

/-- The chains that end in null: a null handle, an alternative that was never given, and casts of
these. -/
inductive Access.EndsNull (C : Client) : {v : View} → Access v → Prop where
  | null (v : View) : EndsNull C (.null v)
  | cast {v : View} {a : Access v} (h : EndsNull C a) (w : View) : EndsNull C (.cast a w)
  | alternative {v w : View} {a : Access v} {r c t : Ref} (e : v.branch? = some w)
    (ha : a.eval C = some (.ofRef r))
    (hr : C.ledger.entries[r.id.index]?.map (·.2) = some ⟨r.kind, .branching c t none⟩) :
    EndsNull C (.field a (.alternative e))

/-- Nothing that may be asked of the handle is a fault; only an index may be refused. -/
structure Handle.Responds {v : View} (h : Handle v) (s : Store) : Prop where
  kind : ∃ k, h.kind = .ok k
  field : ∀ {c : Content} (f : Field v c), ∃ x : Except Rejection c.Value,
    s.read h f = x.mapError .rejected ∧
      ∀ e, x = .error e → ∃ i m, f.index? = some i ∧ m ≤ i ∧ e = .indexOutOfBounds i m
  cursor : ∀ {l : ListView} (x : Handle l.view), (⟨v, h⟩ : AnyHandle) = ⟨l.view, x⟩ →
    ∃ c, s.cursor x = .ok c
  functionName : ∀ (e : v = .call) f, s.read h (.function e) = .ok f →
    ∃ name, s.functionName f = .ok name

theorem Store.functionName_registered {s : Store} {f : FunctionRef} (hf : f.Registered s) :
    ∃ name, s.functionName f = .ok name := by
  obtain ⟨hvalid, hlt⟩ := hf
  have hnull : f.isNull = false := by
    rw [FunctionRef.isNull, hvalid]
    rfl
  refine ⟨s.functions[f.id.index], ?_⟩
  simp [functionName, hnull, Array.getElem?_eq_getElem hlt]

theorem Store.WellFormed.responds {s : Store} {v : View} {r : Ref} (hs : s.WellFormed)
    (h : (Handle.ofRef r : Handle v).Known s) : (Handle.ofRef r : Handle v).Responds s := by
  constructor
  · exact ⟨r.kind, rfl⟩
  · intro c f
    obtain ⟨x, hx, hanswers⟩ := hs.read_known h f
    refine ⟨x, hx, ?_⟩
    intro e he
    subst he
    exact hanswers
  · intro l x hx
    cases hx
    obtain ⟨n, -, hc, -⟩ := hs.cursor_known h
    exact ⟨_, hc⟩
  · intro e f hf
    exact Store.functionName_registered (hs.read_ok h hf)

theorem Ledger.Balances.exists_entry {L : Ledger} {s : Store} {ps : List (Option Product)} {i : Nat}
    {k : Kind} {n : Plain} (h : L.Balances s ps) (hs : s.WellFormed) (hk : s.kinds[i]? = some k)
    (hn : s.plain? i = some n) : L.entries[i]?.map (·.2) = some ⟨k, n⟩ := by
  have hlt : i < L.entries.length := by
    rw [h.length_entries hs, ← hs.size_eq]
    exact (Array.getElem?_eq_some_iff.1 hk).1
  have he := List.getElem?_eq_getElem hlt
  obtain ⟨hkind, hplain⟩ := h.plain?_eq he
  rw [he, Option.map_some, ← Option.some.inj (hkind.symm.trans hk),
    ← Option.some.inj (hplain.symm.trans hn)]

namespace Client

variable {C : Client}

theorem Sound.endsNull (hC : C.Sound) (hB : C.Balances) {v : View} (a : Access v)
    (ha : a.eval C = some .null) : a.EndsNull C := by
  induction a with
  | null v => exact .null v
  | made v i =>
    obtain ⟨p, hp, hh⟩ := Option.bind_eq_some_iff.1 ha
    obtain rfl := Product.handleOf?_eq_some hh
    cases (hC.product i _ hp).2
  | lookup i =>
    obtain ⟨k, -, hk⟩ := Option.map_eq_some_iff.1 ha
    cases hk
  | cast a w ih =>
    obtain ⟨⟨x?⟩, hx, hh⟩ := Option.bind_eq_some_iff.1 ha
    obtain ⟨href, -⟩ := Handle.recast_eq_ok (toOption_eq_some.1 hh)
    cases href
    exact .cast (ih hx) w
  | field a f ih =>
    obtain ⟨⟨_ | r⟩, hx, hh⟩ := Option.bind_eq_some_iff.1 ha
    · obtain ⟨e, he⟩ := Store.read_null (s := C.store) f
      cases he.symm.trans (toOption_eq_some.1 hh)
    · have hs := hC.factory.wellFormed
      obtain ⟨hv, hr⟩ := (hC.access_known a hx).of_ofRef
      obtain ⟨n, hn, hsuits⟩ := hs.exists_plain hr
      obtain ⟨y, hy, -⟩ := hsuits.exists_field hs hv f
      have hnull := (Store.read_of_plain hn hy).symm.trans (toOption_eq_some.1 hh)
      cases y <;> cases hnull
      obtain ⟨e, c, t, rfl, rfl⟩ := hsuits.eq_alternative hv hy
      exact .alternative e hx (hB.exists_entry hs hr hn)
  | operand a earlier last ih =>
    obtain ⟨x, -, ha⟩ := Option.bind_eq_some_iff.1 ha
    obtain ⟨c, -, hh⟩ := Option.bind_eq_some_iff.1 ha
    obtain ⟨r, -, hr⟩ := Cursor.take_mem hh
    cases hr

/-- Whatever a client reaches after a run is the null handle that its chain ends in, or it is on a
node of a kind that its view accepts, and it responds to all that may be asked of it. -/
theorem run_access_typed {o : Options} (h : start o = .ok C) (as : List (Action Access Callee))
    {v : View} (a : Access v) {x : Handle v} (hx : a.eval (C.run as) = some x) :
    (x = .null ∧ a.EndsNull (C.run as)) ∨
      ∃ r, x = .ofRef r ∧ v.accepts r.kind = true ∧
        r.id.index < (C.run as).store.nodes.size ∧ (C.run as).store.kind? r.id = some r.kind ∧
          x.Responds (C.run as).store := by
  have hC := ((Sound.start h).run as).sound
  have hB := (Balances.start h).run (.start h) as
  have hs := hC.factory.wellFormed
  obtain ⟨_ | r⟩ := x
  · left
    exact ⟨rfl, hC.endsNull hB a hx⟩
  · right
    have hknown := hC.access_known a hx
    obtain ⟨hv, hr⟩ := hknown.of_ofRef
    exact ⟨r, rfl, hv, hs.size_eq ▸ hr.lt, hr, hs.responds hknown⟩

theorem run_access_typed_sample : ∃ C, start {} = .ok C ∧
    (Handle.ofRef ⟨⟨0⟩, .decisionVariable⟩ : Handle .numeric).Responds (C.run sample).store ∧
      (Access.field (.made .conditional 4) (.alternative rfl)).EndsNull (C.run sample) := by
  refine ⟨_, rfl, ?_, ?_⟩
  · obtain ⟨hnull, -⟩ | ⟨r, hr, -, -, -, h⟩ := run_access_typed (o := {}) rfl sample
      (.operand (l := .numberOf) (.made .numberOf 3) [.front 0] (.back 0)) rfl
    · cases hnull
    · exact h
  · obtain ⟨-, h⟩ | ⟨r, hr, -⟩ := run_access_typed (o := {}) rfl sample
      (.field (.made .conditional 4) (.alternative rfl)) rfl
    · exact h
    · cases hr

/-- Reading through any handle at all has the one outcome that the node at its position decides.
No span of a node is too long, the argument of a term is a variable, and operands are nodes. -/
theorem run_read_outcome {o : Options} (h : start o = .ok C) (as : List (Action Access Callee)) :
    let s := (C.run as).store
    (∀ {v : View} (x : Handle v),
      (∀ {c : Content} (f : Field v c),
        (∀ y, s.read x f = y ↔ f.Outcome s x y) ∧
          (∀ stop length, s.read x f ≠ .error (.faulty (.spanOutOfRange stop length))) ∧
            ∀ y, s.read x f = .ok y → ∀ q ∈ c.refs y,
              q.id.index < s.nodes.size ∧ s.kind? q.id = some q.kind) ∧
        ∀ (e : v = .piecewiseLinear) φ,
          s.read x (.termVariableIndex e) = .error φ ↔ s.read x (.termVariable e) = .error φ) ∧
      ∀ {l : ListView} (x : Handle l.view) (e : l.view.list? = some l),
        (∀ φ, s.cursor x = .error φ ↔ (Field.operands e).Outcome s x (.error (.faulty φ))) ∧
          ∀ k, s.cursor x = .ok k → k = .ofOperands x.ref? k.operands ∧
            (Field.operands e).Outcome s x (.ok k.remaining) := by
  intro s
  have hs : s.WellFormed := ((Sound.start h).run as).sound.factory.wellFormed
  refine ⟨?_, ?_⟩
  · intro v x
    refine ⟨?_, ?_⟩
    · intro c f
      refine ⟨fun _ => hs.read_eq_iff, ?_, ?_⟩
      · intro stop length hread
        exact Field.Outcome.ne_span (hs.read_eq_iff.1 hread)
      · intro y hy q hq
        have hholds := hs.refs_hold hy q hq
        exact ⟨hs.size_eq ▸ hholds.lt, hholds⟩
    · intro e φ
      rw [hs.read_eq_iff, hs.read_eq_iff, Field.Outcome.termVariableIndex_iff]
  · intro l x e
    refine ⟨fun φ => (Store.cursor_eq_error_iff e).trans hs.read_eq_iff, ?_⟩
    intro k hk
    refine ⟨Store.cursor_eq_ok hk, ?_⟩
    rw [← hs.read_eq_iff, Store.read_operands_eq, hk]
    rfl

theorem run_read_outcome_sample : ∃ C, start {} = .ok C ∧
    (C.run sample).store.read (.ofRef ⟨⟨9⟩, .not⟩ : Handle .negation) (.argument rfl) =
      .error (.faulty (.indexOutOfRange 9 4)) ∧
    (C.run sample).store.read (.ofRef ⟨⟨1⟩, .sum⟩ : Handle .sum) (.operand (l := .sum) rfl 0) =
      .error (.faulty (.mismatch .sum (.truth true))) ∧
    (C.run sample).store.read (.ofRef ⟨⟨2⟩, .sum⟩ : Handle .sum) (.operand (l := .sum) rfl 2) =
      .error (.rejected (.indexOutOfBounds 2 2)) := by
  refine ⟨_, rfl, ?_⟩
  obtain ⟨hread, -⟩ := run_read_outcome (o := {}) rfl sample
  refine ⟨?_, ?_, ?_⟩
  · exact (((hread _).1 _).1 _).2 (.beyond _ rfl (by decide))
  · exact (((hread _).1 _).1 _).2 (.mismatch _ rfl rfl (by decide))
  · exact (((hread _).1 _).1 _).2 (.refused _ rfl rfl rfl rfl (by decide))

end Client

end ModelExpr
