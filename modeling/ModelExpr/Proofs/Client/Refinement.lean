import ModelExpr.Proofs.Client.Ledger

namespace ModelExpr

structure Ledger.Reads (L : Ledger) (s : Store) (h : AnyHandle) (n : PlainNode) : Prop where
  kind : h.2.kind = .ok n.kind
  field : ∀ {c : Content} (f : Field h.1 c), ∃ x,
    n.content.field? L.variableIndex? f = some x ∧ s.read h.2 f = x.mapError .rejected
  cursor : ∀ {l : ListView} (x : Handle l.view), h = ⟨l.view, x⟩ →
    s.cursor x = .ok (.ofOperands x.ref? n.content.operands.toArray)

namespace Store

variable {s : Store} {i : Nat}

theorem plain?_of_plainNodes {n : PlainNode} (h : s.plainNodes[i]? = some (.ok n)) :
    s.kinds[i]? = some n.kind ∧ s.plain? i = some n.content := by
  rw [plainNodes, List.getElem?_map] at h
  obtain ⟨⟨k, p⟩, hkp, hn⟩ := Option.map_eq_some_iff.1 h
  obtain ⟨hk, hp⟩ := List.getElem?_zip_eq_some.1 hkp
  obtain ⟨m, hm, rfl⟩ := map_eq_ok.1 hn
  rw [Array.getElem?_toList] at hk hp
  exact ⟨hk, plain?_eq_some_iff.2 ⟨p, hp, hm⟩⟩

end Store

namespace Ledger

variable {L : Ledger} {s : Store} {ps : List (Option Product)} {i : Nat}

namespace Balances

theorem plain?_eq (h : L.Balances s ps) {e : AnyHandle × PlainNode} (he : L.entries[i]? = some e) :
    s.kinds[i]? = some e.2.kind ∧ s.plain? i = some e.2.content := by
  apply Store.plain?_of_plainNodes
  rw [h.nodes, List.getElem?_map, he]
  rfl

theorem variableIndex?_eq (h : L.Balances s ps) (hs : s.WellFormed) :
    L.variableIndex? = s.variableIndex? := by
  funext r
  unfold Ledger.variableIndex? Store.variableIndex?
  cases he : L.entries[r.id.index]? with
  | some e =>
    rw [(h.plain?_eq he).2]
    obtain ⟨x, k, n⟩ := e
    cases n <;> rfl
  | none =>
    have hlength := h.length_entries hs
    have hi := List.getElem?_eq_none_iff.1 he
    have hnone : s.plain? r.id.index = none := by
      rw [Store.plain?, Array.getElem?_eq_none (by omega)]
      rfl
    rw [hnone]

theorem reads_ofRef (h : L.Balances s ps) (hs : s.WellFormed) {v : View} {r : Ref} {n : Plain}
    (hv : v.accepts r.kind = true) (hr : s.Holds r) (hn : s.plain? r.id.index = some n) :
    L.Reads s ⟨v, .ofRef r⟩ ⟨r.kind, n⟩ := by
  obtain ⟨m, hm, hsuits⟩ := hs.exists_plain hr
  obtain rfl := Option.some.inj (hm.symm.trans hn)
  constructor
  · rfl
  · intro c f
    obtain ⟨x, hx, -⟩ := hsuits.exists_field hs hv f
    rw [h.variableIndex?_eq hs]
    exact ⟨x, hx, Store.read_of_plain hn hx⟩
  · intro l x hx
    cases hx
    obtain ⟨m, hm, hcursor, -⟩ := hs.cursor_known (.ofRef hv hr)
    obtain rfl := Option.some.inj (hm.symm.trans hn)
    exact hcursor

theorem reads (h : L.Balances s ps) (hs : s.WellFormed) {e : AnyHandle × PlainNode}
    (he : L.entries[i]? = some e) : L.Reads s e.1 e.2 := by
  obtain ⟨hlt, href, haccepts⟩ := h.handles i e he
  obtain ⟨hkind, hplain⟩ := h.plain?_eq he
  have hindex : (ExprId.mk i.toUInt32).index = i := Nat.mod_eq_of_lt hlt
  obtain ⟨⟨v, ⟨r?⟩⟩, k, n⟩ := e
  obtain rfl : r? = some ⟨⟨i.toUInt32⟩, k⟩ := href
  apply h.reads_ofRef hs haccepts
  · rw [Store.Holds, hindex]
    exact hkind
  · rw [hindex]
    exact hplain

end Balances

theorem entries_record (L : Ledger) (d : Deed) : L.entries <+: (L.record d).entries := by
  have henter (M : Ledger) (n? : Option PlainNode) (k? : Option Sketch)
      (answer : Except Failure (Option Product)) : M.entries <+: (M.enter n? k? answer).entries := by
    unfold enter
    split
    · exact List.prefix_append _ _
    · exact List.prefix_rfl
  have hchange (g : Sketch → Sketch) (j : Nat) (answer : Except Failure (Option Product)) :
      L.entries <+: (L.change j g answer).entries := by
    unfold change
    split <;> exact List.prefix_rfl
  unfold record
  split
  · exact henter L _ _ _
  · exact hchange _ _ _
  · exact hchange _ _ _
  · exact hchange _ _ _
  · exact henter (L.release _) _ _ _
  · exact henter (L.release _) _ _ _

theorem entries_foldl (L : Ledger) (ds : List Deed) :
    L.entries <+: (ds.foldl record L).entries := by
  induction ds generalizing L with
  | nil => exact List.prefix_rfl
  | cons d ds ih => exact (L.entries_record d).trans (ih (L.record d))

end Ledger

namespace Client

variable {C : Client}

theorem history_perform (C : Client) (a : Action Handle FunctionRef) :
    C.history <+: (C.perform a).history := by
  unfold perform
  split
  · exact List.prefix_append _ _
  all_goals
    split
    · exact List.prefix_append _ _
    · exact List.prefix_rfl

theorem history_run (C : Client) (as : List (Action Access Callee)) :
    C.history <+: (C.run as).history := by
  induction as generalizing C with
  | nil => exact List.prefix_rfl
  | cons a as ih =>
    have hstep : C.history <+: (C.step a).history := by
      unfold step
      split
      · exact history_perform C _
      · exact List.prefix_rfl
    exact hstep.trans (ih (C.step a))

theorem entries_run (C : Client) (as : List (Action Access Callee)) :
    C.ledger.entries <+: (C.run as).ledger.entries := by
  obtain ⟨ds, hds⟩ := history_run C as
  rw [ledger, ledger, ← hds, List.foldl_append]
  exact Ledger.entries_foldl _ ds

/-- The store refines the ledger. Its nodes, written out, are the entries in their order, which are
only ever appended to, and an entry stays readable through its handle in every later state. -/
theorem run_refines {o : Options} (h : start o = .ok C) (as bs : List (Action Access Callee)) :
    let L := (C.run as).ledger
    let D := (C.run as).run bs
    L.entries <+: D.ledger.entries ∧
      D.store.plainNodes = D.ledger.entries.map (fun e => .ok e.2) ∧
      ∀ i e, L.entries[i]? = some e → i < UInt32.size ∧
        e.1.2.ref? = some ⟨⟨i.toUInt32⟩, e.2.kind⟩ ∧ D.ledger.Reads D.store e.1 e.2 := by
  intro L D
  have hsound := (Sound.start h).run as
  have hlater := hsound.sound.run bs
  have hbalance : D.Balances := ((Balances.start h).run (.start h) as).run hsound.sound bs
  have hgrown : L.entries <+: D.ledger.entries := entries_run _ bs
  refine ⟨hgrown, hbalance.nodes, ?_⟩
  intro i e he
  obtain ⟨hi, rfl⟩ := List.getElem?_eq_some_iff.1 he
  have he' := List.prefix_iff_getElem?.1 hgrown i hi
  obtain ⟨hlt, href, -⟩ := hbalance.handles i _ he'
  exact ⟨hlt, href, hbalance.reads hlater.sound.factory.wellFormed he'⟩

theorem run_refines_sample : ∃ C, start {} = .ok C ∧
    (C.run sample).ledger.entries.map (·.2) =
      [⟨.decisionVariable, .decisionVariable 3⟩, ⟨.logicalConstant, .truth true⟩,
        ⟨.numberOf, .list [⟨⟨0⟩, .decisionVariable⟩, ⟨⟨0⟩, .decisionVariable⟩]⟩,
        ⟨.conditional, .branching ⟨⟨1⟩, .logicalConstant⟩ ⟨⟨2⟩, .numberOf⟩ none⟩] ∧
      ((C.run sample).run sample).store.plainNodes =
        ((C.run sample).run sample).ledger.entries.map fun e => .ok e.2 :=
  ⟨_, rfl, rfl, (run_refines (o := {}) rfl sample sample).2.1⟩

end Client

end ModelExpr
