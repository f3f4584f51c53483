import ModelExpr.Proofs.Store.Order
import ModelExpr.Proofs.Traversal.Unfolding

namespace ModelExpr

def Ended {α : Type} (x : Except Fault α) : Prop := ∀ i, x ≠ .error (.endless i)

namespace Ended

variable {α β : Type} {x : Except Fault α}

theorem ok (a : α) : Ended (.ok a : Except Fault α) := by
  rintro i ⟨⟩

theorem bind {f : α → Except Fault β} (h : Ended x) (hf : ∀ a, x = .ok a → Ended (f a)) :
    Ended (x >>= f) := by
  cases x with
  | ok a => exact hf a rfl
  | error e =>
    intro i he
    apply h i
    exact congrArg Except.error (Except.error.inj he)

theorem map {f : α → β} (h : Ended x) : Ended (x.map f) := by
  have hmap : x.map f = x >>= fun a => .ok (f a) := by cases x <;> rfl
  rw [hmap]
  exact h.bind fun a _ => .ok (f a)

theorem foldlM {f : β → α → Except Fault β} {xs : List α} (h : ∀ x ∈ xs, ∀ b, Ended (f b x)) (b : β) :
    Ended (xs.foldlM f b) := by
  induction xs generalizing b with
  | nil => exact .ok b
  | cons x xs ih =>
    rw [List.foldlM_cons]
    apply (h x List.mem_cons_self b).bind
    intro c _
    apply ih
    intro y hy
    exact h y (List.mem_cons_of_mem x hy)

end Ended

theorem Store.ended_node (s : Store) (i : ExprId) : Ended (s.node i) := by
  unfold Store.node
  split <;> rintro j ⟨⟩

theorem Store.ended_operandsOf (s : Store) (p : Payload) : Ended (s.operandsOf p) := by
  have hlist (r : Span) : Ended ((s.operandsIn r).map (·.toList)) := by
    apply Ended.map
    unfold Store.operandsIn
    split <;> rintro j ⟨⟩
  cases p with
  | list r | call f r => exact hlist r
  | _ => exact .ok _

namespace Visitor

variable {σ : Type} {V : Visitor σ} {s : Store} {r : Ref}

def Ends (V : Visitor σ) : Prop := ∀ a x, Ended (V.stopAt a x)

structure Enters (s : Store) (r : Ref) (x : Except Fault (List Ref × σ)) : Prop where
  ended : Ended x
  uses : ∀ xs b, x = .ok (xs, b) → ∀ y ∈ xs, s.Uses r.id.index y.id.index

theorem Enters.nothing (b : σ) : Enters s r (.ok ([], b)) := by
  refine ⟨.ok _, ?_⟩
  intro xs c h y hy
  cases h
  cases hy

theorem Enters.bind {x : Except Fault σ} {f : σ → Except Fault (List Ref × σ)} (h : Ended x)
    (hf : ∀ b, Enters s r (f b)) : Enters s r (x >>= f) := by
  constructor
  · exact h.bind fun b _ => (hf b).ended
  · intro xs b hb
    obtain ⟨c, -, hc⟩ := bind_eq_ok.1 hb
    exact (hf c).uses xs b hc

theorem Ends.openNode (hV : V.Ends) (a : σ) : Enters s r (V.openNode s r a) := by
  have hstop (p : Payload) : Ended (V.stopAtFunction p a) := by
    cases p with
    | call f xs => exact hV a (.function ⟨f⟩)
    | _ => exact .ok a
  constructor
  · apply (s.ended_node r.id).bind
    intro p _
    apply (hstop p).bind
    intro b _
    apply (s.ended_operandsOf p).bind
    intro xs _
    exact .ok (xs, b)
  · intro xs b h y hy
    obtain ⟨p, hp, h⟩ := bind_eq_ok.1 h
    obtain ⟨c, -, h⟩ := bind_eq_ok.1 h
    obtain ⟨ys, hys, h⟩ := bind_eq_ok.1 h
    cases h
    unfold Store.node at hp
    split at hp <;> cases hp
    exact ⟨p, xs, ‹_›, hys, y, hy, rfl⟩

theorem Ends.enterCategory (hV : V.Ends) (a : σ) : Enters s r (V.enterCategory s r a) := by
  rw [Visitor.enterCategory, stopAtCategory_eq]
  apply Enters.bind (hV a _)
  intro b
  split
  · exact hV.openNode b
  · exact .nothing b

theorem Ends.enter (hV : V.Ends) (a : σ) : Enters s r (V.enter s r a) := by
  apply Enters.bind (hV a (.expr (.ofRef r)))
  intro b
  split
  · exact hV.enterCategory b
  · exact .nothing b

theorem Ends.nested (hV : V.Ends) (hs : s.Acyclic) {d : Nat} (hd : s.rank r.id.index < d) (a : σ) :
    Ended (V.nested s d r a) := by
  induction d generalizing r a with
  | zero => cases hd
  | succ d ih =>
    have henter : Enters s r (V.enter s r a) := hV.enter a
    rw [Visitor.nested]
    apply henter.ended.bind
    rintro ⟨xs, b⟩ hb
    apply Ended.foldlM
    intro x hx c
    have hrank := hs.rank_lt (henter.uses xs b hb x hx)
    exact ih (by omega) c

theorem Ends.runOperands (hV : V.Ends) (hs : s.Acyclic) {next : Except Fault (List Ref × σ)}
    (h : Enters s r next) : Ended (V.runOperands s next) := by
  apply h.ended.bind
  rintro ⟨xs, b⟩ hb
  change Ended (V.run s (xs.map (·, s.nodes.size)) b)
  rw [run_operands]
  apply Ended.foldlM
  intro x hx c
  have hrank := hs.rank_lt (h.uses xs b hb x hx)
  exact hV.nested hs (Nat.lt_of_lt_of_le hrank (s.rank_le _)) c

theorem Ends.walkExpr (hV : V.Ends) (hs : s.Acyclic) (h : Handle .expr) (a : σ) :
    Ended (V.walkExpr s h a) := by
  unfold Visitor.walkExpr
  split
  · exact .ok a
  · exact hV.runOperands hs (hV.enterCategory a)

theorem Ends.walkOperands (hV : V.Ends) (hs : s.Acyclic) {v : View} (h : Handle v) (a : σ) :
    Ended (V.walkOperands s h a) := by
  unfold Visitor.walkOperands
  split
  · exact .ok a
  · exact hV.runOperands hs (hV.openNode a)

theorem ended_visit {x : Except Fault σ} {ref? : Option Ref} {p : Kind → Bool}
    {walk : σ → Except Fault σ} (hx : Ended x) (hwalk : ∀ b, Ended (walk b)) :
    Ended (do
      let b ← x
      match ref? with
      | none => return b
      | some r => if p r.kind then walk b else return b) := by
  apply hx.bind
  intro b _
  split
  · exact .ok b
  · split
    · exact hwalk b
    · exact .ok b

theorem Ends.run (hV : V.Ends) (hs : s.Acyclic) (e : Start) (h : Handle e.view) (a : σ) :
    Ended (e.run V s h a) := by
  cases e with
  | walkExpr => exact hV.walkExpr hs h a
  | walkNumeric | walkLogical => exact hV.walkOperands hs h a
  | visitExpr => exact ended_visit (hV a (.expr h)) (hV.walkExpr hs h)
  | visitNumeric => exact ended_visit (hV a (.numeric h)) (hV.walkOperands hs h)
  | visitLogical => exact ended_visit (hV a (.logical h)) (hV.walkOperands hs h)

theorem noting_ends (passesExpr passes : Kind → Bool) : (noting passesExpr passes).Ends := by
  intro a x
  cases x <;> exact .ok _

end Visitor

end ModelExpr
