import ModelExpr.Proofs.Client.Refinement
import ModelExpr.Proofs.Client.Steps
import ModelExpr.Proofs.Store.Tiling

namespace ModelExpr

section Calls

variable {c : Call} {f g : Factory} {y : Except Failure Product} {k : Kind} {n : Plain}
  {ns : List PlainNode}

theorem Plain.countable_flat (hlist : n.list? = none) (hterm : n.term? = none) : n.Countable := by
  constructor
  · rw [listed_eq_nil hlist]
    decide
  · intro xs ys r h
    rw [h] at hterm
    cases hterm

theorem Call.Within.countable (hc : c.Within) (hfilled : c.Filled) (hn : c.node? = some ⟨k, n⟩) :
    n.Countable := by
  cases c with
  | construct c =>
    obtain ⟨hlist, hterm⟩ := Construction.node?_flat hn
    exact Plain.countable_flat hlist hterm
  | finish d =>
    cases hn
    constructor
    · rw [(Factory.listed_plain d).1, Array.length_toList]
      exact Nat.lt_of_le_of_lt (Draft.Within.added hc) (Draft.Within.declared hc)
    · intro xs ys r h
      unfold Draft.plain at h
      split at h <;> cases h
  | finishTerm d x =>
    obtain ⟨r, -, hr⟩ := Option.map_eq_some_iff.1 hn
    cases hr
    constructor
    · exact Nat.lt_of_le_of_lt (Nat.zero_le _) (TermDraft.Within.declared hc)
    · intro xs ys r h
      cases h
      rw [Array.length_toList]
      exact Nat.lt_of_le_of_lt (TermDraft.Within.breakpoints hc) (TermDraft.Within.declared hc)

theorem Call.perform_tiled (hc : c.Within) (hs : f.store.Tiled ns) (h : c.perform.run f = (y, g))
    (hy : ∀ t, y ≠ .error (.faulty t)) : ∃ ms, g.store.Tiled (ns ++ ms) := by
  cases perform_ends h with
  | refused r hstays =>
    refine ⟨[], ?_⟩
    rw [hstays.store_eq, List.append_nil]
    exact hs
  | overfull e hoverfull hpads =>
    obtain ⟨⟨t, ht⟩, -⟩ := hoverfull
    exact absurd (congrArg Except.error ht) (hy t)
  | laid v k n hn hlays =>
    refine ⟨[⟨k, n⟩], ?_⟩
    rw [hlays.store_eq]
    exact hs.lay hlays.room (hc.countable (filled hc h) hn)
  | known name x hname hx hg =>
    refine ⟨[], ?_⟩
    rw [hg, List.append_nil]
    exact hs
  | registered name x hname hregisters =>
    refine ⟨[], ?_⟩
    rw [hregisters.store_eq, List.append_nil]
    exact hs.pushFunction hregisters.room name
  | drafted b q hb hq hg =>
    refine ⟨[], ?_⟩
    rw [hg, List.append_nil]
    exact hs

end Calls

def Deed.faults (d : Deed) : Bool :=
  match d.answer with
  | .error (.faulty _) => true
  | _ => false

namespace Client

def Faultless (C : Client) : Prop := ∀ d ∈ C.history, d.faults = false

variable {C D : Client}

theorem Faultless.anti (hD : D.Faultless) (h : C.history <+: D.history) : C.Faultless := by
  intro d hd
  exact hD d (h.subset hd)

theorem perform_tiled {a : Action Handle FunctionRef} {ns : List PlainNode} (hC : C.Within)
    (hs : C.store.Tiled ns) (hf : (C.perform a).Faultless) :
    ∃ ms, (C.perform a).store.Tiled (ns ++ ms) := by
  have hgoes := perform_goes C a
  generalize C.perform a = D at hgoes hf
  cases hgoes with
  | idle | changed =>
    refine ⟨[], ?_⟩
    rw [List.append_nil]
    exact hs
  | called c y g hc hrun =>
    apply Call.perform_tiled (hC.call hc) hs hrun
    rintro t rfl
    cases hf _ (List.mem_append_right _ (List.mem_singleton_self _))

theorem Within.step (hC : C.Within) (a : Action Access Callee) : (C.step a).Within := by
  unfold Client.step
  split
  · exact hC.perform _
  · exact hC

theorem Within.start {o : Options} (h : start o = .ok C) : C.Within := by
  obtain rfl := start_eq h
  intro i p hp
  simp [product?] at hp

theorem run_tiled_from {as : List (Action Access Callee)} {ns : List PlainNode} (hC : C.Within)
    (hs : C.store.Tiled ns) (hf : (C.run as).Faultless) : ∃ ms, (C.run as).store.Tiled (ns ++ ms) := by
  induction as generalizing C ns with
  | nil =>
    refine ⟨[], ?_⟩
    rw [List.append_nil]
    exact hs
  | cons a as ih =>
    have hstep : ∃ ms, (C.step a).store.Tiled (ns ++ ms) := by
      have hfirst : (C.step a).Faultless := hf.anti (history_run (C.step a) as)
      unfold step at hfirst ⊢
      split at hfirst
      · exact perform_tiled hC hs hfirst
      · refine ⟨[], ?_⟩
        rw [List.append_nil]
        exact hs
    obtain ⟨ms, hms⟩ := hstep
    obtain ⟨ls, hls⟩ := ih (C := C.step a) (hC.step a) hms hf
    refine ⟨ms ++ ls, ?_⟩
    rw [← List.append_assoc]
    exact hls

theorem run_tiled {o : Options} (h : start o = .ok C) {as : List (Action Access Callee)}
    (hf : (C.run as).Faultless) : ∃ ns, (C.run as).store.Tiled ns := by
  have hempty : C.store.Tiled [] := by
    rw [start_eq h]
    exact .empty
  obtain ⟨ns, hns⟩ := run_tiled_from (.start h) hempty hf
  exact ⟨ns, hns⟩

end Client

end ModelExpr
