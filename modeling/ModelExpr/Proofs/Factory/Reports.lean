import ModelExpr.Proofs.Factory.Gain

namespace ModelExpr

def Plain.ending? (r : Ref) : Plain → Option Event
  | .list rs | .call _ rs => some (.finishedList r.kind r.id rs.length)
  | .piecewiseLinear _ ys _ => some (.finishedTerm r.id ys.length)
  | _ => none

def Construction.reports (f : Factory) : Construction Handle FunctionRef → List Event
  | .addFunction name =>
    if (f.known? name).isSome then []
    else [.registered name ⟨f.store.functions.size.toUInt32⟩]
  | c => c.node?.toList.map fun n => .allocated n.kind (f.store.next n.kind).id

def Call.reports (f : Factory) : Call → Except Failure Product → List Event
  | .construct c, .ok _ => c.reports f
  | .finish d, .ok _ =>
    [.allocated d.kind (f.store.next d.kind).id,
      .finishedList d.kind (f.store.next d.kind).id d.added]
  | .finishTerm d _, .ok _ =>
    [.allocated .piecewiseLinear (f.store.next .piecewiseLinear).id,
      .finishedTerm (f.store.next .piecewiseLinear).id d.declared]
  | .finish d, .error (.rejected _) => [.rejectedList d.kind d.declared d.added]
  | _, .error _ => []

variable {c : Call} {f g : Factory} {y : Except Failure Product} {k : Kind} {n : Plain}

namespace Construction

variable {b : Construction Handle FunctionRef} {m : Nat}

theorem reports_node (h : b.node? = some ⟨k, n⟩) :
    b.reports f = [.allocated k (f.store.next k).id] := by
  cases b with
  | addFunction => cases h
  | _ => simp only [reports, h, Option.toList_some, List.map_cons, List.map_nil]

theorem reports_draft {q : Product} (h : b.plan m = .ok (.draft q)) : b.reports f = [] := by
  cases plan_opens h <;> rfl

theorem perform_log (h : b.perform.run f = (y, g)) :
    g.log.toList = f.log.toList ++ (Call.construct b).reports f y := by
  cases y with
  | error e =>
    rw [perform_error h]
    cases e <;> exact (List.append_nil _).symm
  | ok q =>
    obtain ⟨p, hp, -⟩ := perform_ok h
    rw [perform_run, hp] at h
    cases p with
    | node v k p =>
      obtain ⟨-, -, rfl⟩ := Plan.fulfil_node.1 h
      obtain ⟨-, n, hn, -⟩ := plan_node hp
      rw [Call.reports, reports_node hn]
      exact Array.toList_push
    | function name =>
      obtain ⟨x, f₁, hx, h⟩ := FactoryM.run_bind_ok h
      cases h
      obtain rfl := plan_function hp
      simp only [Call.reports, reports]
      obtain ⟨hknown, rfl⟩ | hregisters := Factory.addFunction_registers hx
      · rw [hknown, Option.isSome_some, if_pos rfl, List.append_nil]
      · rw [Factory.addFunction_run, hregisters.unknown] at hx
        rw [hregisters.unknown, Option.isSome_none, if_neg Bool.false_ne_true]
        simp only [Factory.register_run, if_pos hregisters.room] at hx
        cases hx
        exact Array.toList_push
    | draft q =>
      cases h
      rw [Call.reports, reports_draft hp, List.append_nil]

end Construction

namespace Factory

open FactoryM

variable {e : Failure}

structure Hushed (f g : Factory) : Prop where
  log_eq : g.log = f.log
  functions_eq : g.store.functions = f.store.functions

theorem Hushed.trans {h : Factory} (hf : f.Hushed g) (hg : g.Hushed h) : f.Hushed h :=
  ⟨hg.log_eq.trans hf.log_eq, hg.functions_eq.trans hf.functions_eq⟩

theorem allocateOperands_hushed {xs : Array Ref} {z : Except Failure Span}
    (h : (allocateOperands xs).run f = (z, g)) : f.Hushed g := by
  rw [allocateOperands_run] at h
  split at h
  · cases h
    exact ⟨rfl, rfl⟩
  · split at h <;> cases h <;> exact ⟨rfl, rfl⟩

theorem allocateNumbers_hushed {xs : Array Binary64} {z : Except Failure Span}
    (h : (allocateNumbers xs).run f = (z, g)) : f.Hushed g := by
  rw [allocateNumbers_run] at h
  split at h <;> cases h <;> exact ⟨rfl, rfl⟩

theorem finish_hushed {l : ListView} {d : Draft l} {t : Fault}
    (h : (finish d).run f = (.error (.faulty t), g)) : f.Hushed g := by
  unfold finish at h
  split at h
  case h_1 => cases h
  case h_2 =>
    obtain h | ⟨span, f₁, h₁, h⟩ := run_bind_error h
    · exact allocateOperands_hushed h
    obtain h | ⟨a, f₂, -, h⟩ := run_bind_error h
    · rw [allocate_error h]
      exact allocateOperands_hushed h₁
    · cases h

theorem finish_rejected {l : ListView} {d : Draft l} {r : Rejection}
    (h : (finish d).run f = (.error (.rejected r), g)) :
    d.requireComplete = .error r ∧ g = f.noting (.rejectedList d.kind d.declared d.added) := by
  obtain ⟨r', hr, hd, -⟩ | ⟨-, ⟨t, ht⟩, -⟩ := finish_failed h
  · cases hr
    unfold finish at h
    rw [hd] at h
    cases h
    exact ⟨hd, rfl⟩
  · cases ht

theorem finishTerm_hushed {d : TermDraft} {v : Handle .decisionVariable} {e : Failure}
    (h : (finishTerm d v).run f = (.error e, g)) : f.Hushed g := by
  unfold finishTerm at h
  obtain rfl | ⟨_, -, h⟩ := run_lift_bind_error h
  · exact ⟨rfl, rfl⟩
  obtain rfl | ⟨r, -, h⟩ := run_lift_bind_error h
  · exact ⟨rfl, rfl⟩
  obtain h | ⟨slopes, f₁, h₁, h⟩ := run_bind_error h
  · exact allocateNumbers_hushed h
  have hslopes := allocateNumbers_hushed h₁
  obtain h | ⟨breakpoints, f₂, h₂, h⟩ := run_bind_error h
  · exact hslopes.trans (allocateNumbers_hushed h)
  obtain h | ⟨a, f₃, -, h⟩ := run_bind_error h
  · rw [allocate_error h]
    exact hslopes.trans (allocateNumbers_hushed h₂)
  · cases h

end Factory

theorem Call.perform_log (h : c.perform.run f = (y, g)) :
    g.log.toList = f.log.toList ++ c.reports f y := by
  cases c with
  | construct b => exact Construction.perform_log h
  | finish d =>
    rw [perform, FactoryM.run_map] at h
    cases hrun : (Factory.finish d).run f with
    | mk z g' =>
      rw [hrun] at h
      cases h
      cases z with
      | error e =>
        cases e with
        | rejected r =>
          obtain ⟨-, rfl⟩ := Factory.finish_rejected hrun
          exact Array.toList_push
        | faulty t =>
          rw [(Factory.finish_hushed hrun).log_eq]
          exact (List.append_nil _).symm
      | ok x =>
        obtain ⟨-, -, -, rfl⟩ := Factory.finish_eq_ok.1 hrun
        simp [Factory.noting, Factory.laid, Except.map, reports]
  | finishTerm d x =>
    rw [perform, FactoryM.run_map] at h
    cases hrun : (Factory.finishTerm d x).run f with
    | mk z g' =>
      rw [hrun] at h
      cases h
      cases z with
      | error e =>
        rw [(Factory.finishTerm_hushed hrun).log_eq]
        exact (List.append_nil _).symm
      | ok x =>
        obtain ⟨-, r, -, -, -, rfl⟩ := Factory.finishTerm_eq_ok.1 hrun
        simp [Factory.noting, Factory.laid, Except.map, reports]

theorem Call.functions_failed {e : Failure} (h : c.perform.run f = (.error e, g)) :
    g.store.functions = f.store.functions := by
  cases c with
  | construct b => rw [Construction.perform_error h]
  | finish d =>
    obtain h | ⟨x, f₁, -, h⟩ := FactoryM.run_bind_error h
    · cases e with
      | rejected r =>
        obtain ⟨-, rfl⟩ := Factory.finish_rejected h
        rfl
      | faulty t => exact (Factory.finish_hushed h).functions_eq
    · cases h
  | finishTerm d x =>
    obtain h | ⟨x, f₁, -, h⟩ := FactoryM.run_bind_error h
    · exact (Factory.finishTerm_hushed h).functions_eq
    · cases h

theorem Call.reports_node {q : Product} (hfilled : c.Filled) (h : c.node? = some ⟨k, n⟩) :
    c.reports f (.ok q) =
      .allocated k (f.store.next k).id :: (n.ending? (f.store.next k)).toList := by
  cases c with
  | construct b =>
    obtain ⟨hlist, hterm⟩ := Construction.node?_flat h
    rw [reports, Construction.reports_node h]
    cases n <;> first | rfl | contradiction
  | finish d =>
    cases h
    rw [reports, Draft.plain]
    split <;> rfl
  | finishTerm d x =>
    obtain ⟨r, -, hr⟩ := Option.map_eq_some_iff.1 h
    cases hr
    rw [reports, ← hfilled.2]
    rfl

end ModelExpr
