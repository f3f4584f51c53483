import ModelExpr.Proofs.Client.Tiling
import ModelExpr.Proofs.Factory.Rebuild
/-!
Rebuilding by clients: the accessors give all that is needed to make a store again, exactly as it is,
unless the store has as many functions as there are numbers, because the last of them has no name.
-/

namespace ModelExpr.Client

variable {C : Client}

/-- A store that a client made without a fault is read out and made again in an empty factory. With the
names that were registered, every call of this succeeds, the handles are those of the store at the same
numbers, and what comes of it is the store, list by list. The names can be read from the store too,
except where it has as many functions as there are numbers. -/
theorem rebuild_run {o : Options} (h : start o = .ok C) (as : List (Action Access Callee))
    (hf : (C.run as).Faultless) :
    let s := (C.run as).store
    (∃ f made g, Factory.ofOptions {} = .ok f ∧
      (s.rebuildNamed s.functions.toList).run f = (.ok made, g) ∧ s.Remade made g) ∧
    ((∃ f made g, Factory.ofOptions {} = .ok f ∧ s.rebuild.run f = (.ok made, g) ∧
      s.Remade made g) ↔ s.functions.size < UInt32.size) ∧
    (UInt32.size ≤ s.functions.size → ∀ f, s.rebuild.run f = (.error (.faulty .nullFunction), f)) := by
  intro s
  obtain ⟨ns, htiled⟩ := run_tiled h hf
  have hs : s.WellFormed := ((Sound.start h).run as).sound.factory.wellFormed
  obtain ⟨made, g, hnamed, hmade⟩ := Store.run_rebuildNamed hs htiled
  have hfull (hfull : UInt32.size ≤ s.functions.size) :=
    Store.run_rebuild_full (Nat.le_antisymm htiled.functions hfull)
  refine ⟨⟨{}, made, g, rfl, hnamed, hmade⟩, ⟨?_, ?_⟩, hfull⟩
  · rintro ⟨f, made, g, -, hrun, -⟩
    by_contra hlt
    rw [hfull (Nat.le_of_not_lt hlt)] at hrun
    cases hrun
  · intro hlt
    refine ⟨{}, made, g, rfl, ?_, hmade⟩
    rw [Store.run_rebuild hlt]
    exact hnamed

def calling : List (Action Access Callee) :=
  [.construct (.addFunction "f"), .construct (.addFunction "f"), .construct (.beginTerm 1),
    .addSlope 2 ⟨1⟩, .addBreakpoint 2 ⟨2⟩, .construct (.decisionVariable 5), .addSlope 2 ⟨3⟩,
    .finishTerm 2 (.made .decisionVariable 3), .construct (.beginCall (.lookup 1) 1),
    .add (l := .call) 5 (.cast (.made .piecewiseLinear 4) .expr), .finish 5]

theorem rebuild_run_calling : ∃ C, start {} = .ok C ∧ (C.run calling).Faultless ∧
    (C.run calling).store.functions = #["f", "f"] ∧ (C.run calling).store.nodes.size = 3 ∧
    ∃ f made g, Factory.ofOptions {} = .ok f ∧ (C.run calling).store.rebuild.run f = (.ok made, g) ∧
      g.store = (C.run calling).store := by
  let C : Client := { factory := {} }
  have hf : (C.run calling).Faultless := by
    unfold Faultless
    decide +kernel
  have hfunctions : (C.run calling).store.functions = #["f", "f"] := by decide +kernel
  obtain ⟨-, hrebuilt, -⟩ := rebuild_run (C := C) (o := {}) rfl calling hf
  obtain ⟨f, made, g, hfactory, hrun, hmade⟩ := hrebuilt.2 (by rw [hfunctions]; decide)
  refine ⟨C, rfl, hf, hfunctions, by decide +kernel, ?_⟩
  exact ⟨f, made, g, hfactory, hrun, hmade.store_eq⟩

theorem run_registered (names : List String) (hC : C.Faultless) (hnames : C.factory.names? = none)
    (hroom : C.store.functions.size + names.length ≤ UInt32.size) :
    let D := C.run (names.map fun name => .construct (.addFunction name))
    D.Faultless ∧ D.store.functions.size = C.store.functions.size + names.length := by
  induction names generalizing C with
  | nil => exact ⟨hC, rfl⟩
  | cons name names ih =>
    rw [List.length_cons] at hroom ⊢
    have hlt : C.store.functions.size < UInt32.size := by omega
    obtain ⟨g, hrun, hg, hnone⟩ := Construction.perform_addFunction name hnames hlt
    let D := C.step (.construct (.addFunction name))
    have hD : D = C.keep (.construct (.addFunction name)) (.ok (.function _), g) :=
      congrArg (C.keep _) hrun
    have hsize : D.store.functions.size = C.store.functions.size + 1 := by
      rw [hD]
      change g.store.functions.size = _
      rw [hg]
      exact Array.size_push _
    have hfaultless : D.Faultless := by
      intro d hd
      rw [hD] at hd
      obtain hd | hd := List.mem_append.1 hd
      · exact hC d hd
      · obtain rfl := List.mem_singleton.1 hd
        rfl
    obtain ⟨hlast, hcount⟩ := ih (C := D) hfaultless (hD ▸ hnone) (by omega)
    exact ⟨hlast, hcount.trans (by omega)⟩

/-- No call is a fault, and still the store cannot be read out. -/
theorem full_table_unread : ∃ C, start {} = .ok C ∧
    let D := C.run ((List.replicate UInt32.size "").map fun name => .construct (.addFunction name))
    D.Faultless ∧ ∀ f, D.store.rebuild.run f = (.error (.faulty .nullFunction), f) := by
  let C : Client := { factory := {} }
  have hlength : (List.replicate UInt32.size "").length = UInt32.size := List.length_replicate
  obtain ⟨hfaultless, hsize⟩ := run_registered (C := C) (List.replicate UInt32.size "")
    (by rintro d ⟨⟩) rfl (by rw [hlength]; exact Nat.le_of_eq (Nat.zero_add _))
  refine ⟨C, rfl, hfaultless, Store.run_rebuild_full (hsize.trans ?_)⟩
  rw [hlength]
  exact Nat.zero_add _

end ModelExpr.Client
