import ModelExpr.Proofs.Factory.Gain
import ModelExpr.Proofs.Store.Tables

namespace ModelExpr

def Product.Formed : Product → Prop
  | @draft l d => l.view.accepts d.kind = true
  | _ => True

def Call.Formed : Call → Prop
  | @finish l d => l.view.accepts d.kind = true
  | _ => True

variable {c : Call} {f g : Factory} {k : Kind} {n : Plain}

namespace Construction

variable {b : Construction Handle FunctionRef} {m : Nat} {q : Product} {v : View} {p : Payload}

theorem plan_formed (h : b.plan m = .ok (.draft q)) : q.Formed := by
  cases plan_opens h with
  | vararg k n hk hn | iteratedLogical k n hk hn => exact hk
  | term n hleast hn => trivial
  | _ => rfl

theorem plan_shape? (h : b.plan m = .ok (.node v k p)) : v.shape? = some p.shape := by
  cases b with
  | constant | decisionVariable | logicalConstant =>
    cases h
    rfl
  | unary =>
    obtain ⟨_, -, h⟩ := bind_eq_ok.1 h
    obtain ⟨_, -, h⟩ := bind_eq_ok.1 h
    cases h
    rfl
  | negation =>
    obtain ⟨_, -, h⟩ := bind_eq_ok.1 h
    cases h
    rfl
  | binary | relational | binaryLogical | logicalCount =>
    obtain ⟨_, -, h⟩ := bind_eq_ok.1 h
    obtain ⟨_, -, h⟩ := bind_eq_ok.1 h
    obtain ⟨_, -, h⟩ := bind_eq_ok.1 h
    cases h
    rfl
  | conditional | implication =>
    obtain ⟨_, -, h⟩ := bind_eq_ok.1 h
    obtain ⟨_, -, h⟩ := bind_eq_ok.1 h
    cases h
    rfl
  | addFunction => cases h
  | _ =>
    obtain ⟨_, -, h⟩ := bind_eq_ok.1 h
    cases h

theorem plan_shape_eq (h : b.plan m = .ok (.node v k p)) : p.shape = k.shape := by
  obtain ⟨haccepts, -⟩ := plan_node h
  have hshape := plan_shape? h
  have hkind := View.shape_of_accepts haccepts (by rw [hshape]; rfl)
  exact Option.some.inj (hshape.symm.trans hkind)

end Construction

theorem Call.perform_formed {q : Product} (h : c.perform.run f = (.ok q, g)) : q.Formed := by
  cases perform_ends h with
  | laid | known | registered => trivial
  | drafted b q hc hq hg => exact Construction.plan_formed hq

theorem Draft.shape_plain {l : ListView} {d : Draft l} (h : l.view.accepts d.kind = true) :
    d.plain.shape = d.kind.shape := by
  rw [ListView.shape_eq h, Draft.plain]
  split <;> rfl

theorem Store.shape_layout (s : Store) (n : Plain) : (s.layout n).shape = n.shape := by
  cases n <;> rfl

namespace Store.Shaped

variable {s t : Store}

theorem size_eq (hs : s.Shaped) : s.kinds.size = s.nodes.size := by
  simpa using (congrArg List.length hs).symm

theorem of_lay (h : (s.lay k n).Shaped) : n.shape = k.shape := by
  unfold Shaped at h
  simp only [lay, Array.toList_push, List.map_append, List.map_cons, List.map_nil,
    shape_layout] at h
  exact List.cons.inj (List.append_inj' h rfl).2 |>.1

theorem pads (hs : s.Shaped) (h : s.Pads t) : t.Shaped := by
  rw [Shaped, h.kinds_eq, h.nodes_eq]
  exact hs

theorem adds (hs : s.Shaped) (h : s.Adds t k n) (hshape : n.shape = k.shape) : t.Shaped := by
  obtain ⟨u, p, hu, hp, rfl⟩ := h
  have hpadded : u.Shaped := hs.pads hu
  unfold Shaped at *
  simp [pushNode, hpadded, ← shape_inline hp, hshape]

end Store.Shaped

theorem Call.perform_shaped {y : Except Failure Product} (hc : c.Formed) (hs : f.store.Shaped)
    (h : c.perform.run f = (y, g)) : g.store.Shaped := by
  cases y with
  | error e =>
    cases perform_ends h with
    | refused r hstays => exact hs.pads (hstays.store_eq ▸ .refl _)
    | overfull e hoverfull hpads => exact hs.pads hpads.store
  | ok q =>
    cases c with
    | construct b =>
      obtain ⟨p, hp, hmakes⟩ := Construction.perform_ok h
      cases p with
      | node v k p =>
        obtain ⟨-, n, -, hinline⟩ := Construction.plan_node hp
        obtain ⟨-, hadds⟩ := hmakes
        have hn := (hinline f.store).1
        exact hs.adds (hadds n hn).store
          ((Store.shape_inline hn).trans (Construction.plan_shape_eq hp))
      | function name =>
        obtain ⟨x, -, hx⟩ := hmakes
        obtain ⟨-, rfl⟩ | ⟨-, -, hstore, -⟩ := Factory.addFunction_ok hx
        · exact hs
        · rw [hstore]
          exact hs.pads (Store.pads_pushFunction name)
      | draft q =>
        obtain ⟨-, rfl⟩ := hmakes
        exact hs
    | finish d =>
      obtain ⟨x, f₁, hrun, h⟩ := FactoryM.run_bind_ok h
      cases h
      obtain ⟨-, -, hadds⟩ := Factory.finish_ok hrun
      exact hs.adds hadds.store (Draft.shape_plain hc)
    | finishTerm d x =>
      obtain ⟨x, f₁, hrun, h⟩ := FactoryM.run_bind_ok h
      cases h
      obtain ⟨-, -, r, -, hadds⟩ := Factory.finishTerm_ok hrun
      exact hs.adds hadds.store rfl

end ModelExpr
