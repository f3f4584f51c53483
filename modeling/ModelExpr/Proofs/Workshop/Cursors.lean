import ModelExpr.Proofs.Session.Cursors
import ModelExpr.Proofs.Session.Queues
import ModelExpr.Proofs.Workshop.Nodes
import ModelExpr.Proofs.Workshop.Tables

namespace ModelExpr

namespace Store

variable {s : Store} {ns : List PlainNode} {l : ListView} {r : Ref}

theorem Spells.exists_content (hs : s.Spells ns) (hshaped : s.Shaped)
    (hr : s.kind? r.id = some r.kind) : ∃ n p, ns[r.id.index]? = some ⟨r.kind, n⟩ ∧
      s.nodes[r.id.index]? = some p ∧ s.inline p = .ok n ∧ n.shape = r.kind.shape := by
  obtain ⟨p, hp, hshape⟩ := hshaped.exists_payload hr
  obtain ⟨⟨k, n⟩, hm, hinline⟩ := hs.exists_node hp
  obtain ⟨-, hk, -, -⟩ := hs.node hm
  obtain rfl := Option.some.inj (hk.symm.trans hr)
  exact ⟨n, p, hm, hp, hinline, (shape_inline hinline).trans hshape⟩

theorem Spells.exists_list (hs : s.Spells ns) (hshaped : s.Shaped)
    (hr : s.kind? r.id = some r.kind) (hl : l.view.accepts r.kind = true) :
    ∃ n rs, s.plain? r.id.index = some n ∧ n.list? = some rs := by
  obtain ⟨n, p, hm, -, -, hshape⟩ := hs.exists_content hshaped hr
  have hplain := hs.plain?_eq_some_iff.2 ⟨_, hm, rfl⟩
  exact ⟨n, n.operands, hplain, Plain.list?_of_accepts hl hshape⟩

end Store

namespace Workshop

variable {j : Nat} {g : Factory} {l m : ListView} {v : View} {r u : Ref}

theorem run_cursor (jobs : List Job) (hg : (Workshop.run {} jobs).factories[j]? = some g)
    (hr : g.store.kind? r.id = some r.kind) (hl : l.view.accepts r.kind = true) :
    ∃ n rs c, g.store.plain? r.id.index = some n ∧ n.list? = some rs ∧
      g.store.cursor (.ofRef r : Handle l.view) = .ok c ∧
        c.queue = .fresh (some r) (rs.map .ofRef) := by
  obtain ⟨n, rs, hn, hrs⟩ := (run_spells jobs hg).exists_list (run_shaped jobs hg) hr hl
  exact ⟨n, rs, _, hn, hrs, Store.cursor_of_plain hn hrs, Cursor.queue_ofOperands (some r) rs.toArray⟩

/-- The cursor on an expression is a queue of the operands of its node. Moves answer as they do where
every cursor is a queue of its own, however many there are, and all the cursors that they come to
keep the operands of their own expressions. -/
theorem run_iterators (jobs : List Job) (hg : (Workshop.run {} jobs).factories[j]? = some g)
    (hr : g.store.kind? r.id = some r.kind) (hl : l.view.accepts r.kind = true) :
    ∃ n rs c, g.store.plain? r.id.index = some n ∧ n.list? = some rs ∧
      g.store.cursor (.ofRef r : Handle l.view) = .ok c ∧
      (∀ (i : Nat) (moves : List Move),
        (moves.mapM (QueueM.move i)).run #[.fresh (some r) (rs.map .ofRef)] =
          (fun p => (p.1, p.2.map Cursor.queue)) <$> (moves.mapM (CursorM.move i)).run #[c]) ∧
      (∀ d, c.Reaches d → d.Serves (rs.map .ofRef)) ∧
      ∀ (i : Nat) (moves : List Move) (S T : Session) (ys : List Datum)
        (ds : Array (Cursor l.element)),
        ((moves.mapM (CursorM.move i)).run #[c]).run S = (.ok (ys, ds), T) → T = S ∧
          (∃ d, ds[0]? = some d ∧ c.Reaches d) ∧ ∀ d ∈ ds, c.Reaches d ∨ ∃ H ∈ S.stores, ∃ u xs,
            H.store.readOperands (.ofRef u : Handle .expr) = .ok xs ∧
              d.Serves (xs.toList.map .ofRef) := by
  obtain ⟨n, rs, c, hn, hrs, hc, hfresh⟩ := run_cursor jobs hg hr hl
  refine ⟨n, rs, c, hn, hrs, hc, ?_, ?_, ?_⟩
  · intro i moves
    have hqueues : #[.fresh (some r) (rs.map .ofRef)] = #[c].map Cursor.queue := by simp [hfresh]
    rw [hqueues]
    exact Mirrors.mapM (Mirrors.move i) moves #[c]
  · intro d hd
    apply Cursor.serves
    rw [hd.leads.whole_eq, hfresh]
    exact List.append_nil _
  · intro i moves S T ys ds hrun
    obtain ⟨hT, hmoves⟩ := CursorM.moving_moves i moves ys ds T hrun
    refine ⟨hT, hmoves.reaches 0 c rfl, ?_⟩
    intro d hd
    obtain ⟨e, he, hreaches⟩ | ⟨H, hH, u, hdriven⟩ := hmoves.origin d hd
    · obtain rfl := Array.mem_singleton.1 he
      exact .inl hreaches
    · have hoperands := hdriven.unchanged.2
      exact .inr ⟨H, hH, u, _, hoperands, Cursor.serves (hdriven.whole_eq hoperands)⟩

def walked : List Job :=
  [.equip {}, .act 0 (.construct (.decisionVariable 4)), .act 0 (.construct (.decisionVariable 7)),
    .act 0 (.construct (.beginSum 3)), .act 0 (.add (l := .sum) 2 (.ofRef ⟨⟨0⟩, .decisionVariable⟩)),
    .act 0 (.add (l := .sum) 2 (.ofRef ⟨⟨1⟩, .decisionVariable⟩)),
    .act 0 (.add (l := .sum) 2 (.ofRef ⟨⟨0⟩, .decisionVariable⟩)), .act 0 (.finish 2),
    .act 0 (.construct (.beginSum 0)), .act 0 (.finish 4), .act 0 (.construct (.beginAllDiff 0)),
    .act 0 (.finish 6)]

theorem run_iterators_walked : ∃ g c, (Workshop.run {} walked).factories[0]? = some g ∧
    g.store.cursor (.ofRef ⟨⟨2⟩, .sum⟩ : Handle ListView.sum.view) = .ok c ∧
      ((c.nthBack 0).2.nth 5).2.Serves ([⟨⟨0⟩, .decisionVariable⟩, ⟨⟨1⟩, .decisionVariable⟩,
        ⟨⟨0⟩, .decisionVariable⟩].map .ofRef) := by
  obtain ⟨n, rs, c, hn, hrs, hc, -, hserves, -⟩ :=
    run_iterators (j := 0) (l := .sum) (r := ⟨⟨2⟩, .sum⟩) walked rfl rfl rfl
  cases hn
  cases hrs
  exact ⟨_, c, rfl, hc, hserves _ ((Cursor.Reaches.refl.take (.back 0)).take (.front 5))⟩

theorem run_begins (jobs : List Job) (hg : (Workshop.run {} jobs).factories[j]? = some g)
    (hr : g.store.kind? r.id = some r.kind) (hl : l.view.accepts r.kind = true)
    (hv : l.element = v) : ∃ c : Cursor v, c.Begins g.store r := by
  obtain ⟨n, rs, c, -, -, hc, -⟩ := run_cursor jobs hg hr hl
  rw [← hv]
  exact ⟨c, .intro hc⟩

/-- Cursors over the same kind of operands compare equal exactly when their expressions are the same
and, by what each has been told to take, as many operands were taken at the front and as many at the
back. Those that compare equal answer the same ever after. -/
theorem run_same (jobs : List Job) (hg : (Workshop.run {} jobs).factories[j]? = some g)
    (hr : g.store.kind? r.id = some r.kind) (hu : g.store.kind? u.id = some u.kind)
    (hl : l.view.accepts r.kind = true) (hm : m.view.accepts u.kind = true)
    (hlv : l.element = v) (hmv : m.element = v) :
    (∃ c : Cursor v, c.Begins g.store r) ∧ (∃ d : Cursor v, d.Begins g.store u) ∧
      ∀ c d : Cursor v, c.Begins g.store r → d.Begins g.store u → ∀ ts us : List Take,
        ((c.takeAll ts).same (d.takeAll us) = true ↔ r.id = u.id ∧
          (c.queue.takeAll ts).passed.length = (d.queue.takeAll us).passed.length ∧
          (c.queue.takeAll ts).taken.length = (d.queue.takeAll us).taken.length) ∧
        ((c.takeAll ts).same (d.takeAll us) = true → ∀ ws : List Take,
          (c.takeAll (ts ++ ws)).same (d.takeAll (us ++ ws)) = true ∧
          (c.takeAll (ts ++ ws)).remaining = (d.takeAll (us ++ ws)).remaining ∧
          ∀ t, ((c.takeAll (ts ++ ws)).take t).1 = ((d.takeAll (us ++ ws)).take t).1) := by
  refine ⟨run_begins jobs hg hr hl hlv, run_begins jobs hg hu hm hmv, ?_⟩
  intro c d hc hd ts us
  have hcdriven : Cursor.Driven g.store r (c.takeAll ts) := .intro hc (.takeAll c ts)
  have hddriven : Cursor.Driven g.store u (d.takeAll us) := .intro hd (.takeAll d us)
  have href : r = u ↔ r.id = u.id := by
    constructor
    · rintro rfl
      rfl
    · intro hid
      rw [hid] at hr
      have hkind := Option.some.inj (hr.symm.trans hu)
      exact congrArg₂ Ref.mk hid hkind
  constructor
  · rw [hcdriven.same_iff hddriven, href, Cursor.takeAll_queue, Cursor.takeAll_queue]
  · intro hsame ws
    have heq := hcdriven.eq_of_same hddriven hsame
    rw [Cursor.takeAll_append, Cursor.takeAll_append, heq]
    exact ⟨Cursor.same_self _, rfl, fun _ => rfl⟩

theorem run_same_walked : ∃ g, ∃ c d e : Cursor .numeric,
    (Workshop.run {} walked).factories[0]? = some g ∧ c.Begins g.store ⟨⟨2⟩, .sum⟩ ∧
      d.Begins g.store ⟨⟨3⟩, .sum⟩ ∧ e.Begins g.store ⟨⟨4⟩, .allDiff⟩ ∧
        (c.takeAll [.front 7]).same (c.takeAll [.front 0, .front 1]) = true ∧
          d.same e = false := by
  obtain ⟨⟨c, hc⟩, -, hcc⟩ := run_same (j := 0) (l := .sum) (m := .sum) (r := ⟨⟨2⟩, .sum⟩)
    (u := ⟨⟨2⟩, .sum⟩) walked rfl rfl rfl rfl rfl rfl rfl
  obtain ⟨⟨d, hd⟩, ⟨e, he⟩, hde⟩ := run_same (j := 0) (l := .sum) (m := .allDiff)
    (r := ⟨⟨3⟩, .sum⟩) (u := ⟨⟨4⟩, .allDiff⟩) walked rfl rfl rfl rfl rfl rfl rfl
  have hqueue := hc.queue_eq rfl
  refine ⟨_, c, d, e, rfl, hc, hd, he, (hcc c c hc hc _ _).1.2 ⟨rfl, ?_, ?_⟩, ?_⟩
  · rw [hqueue]
    rfl
  · rw [hqueue]
    rfl
  · rw [Bool.eq_false_iff]
    intro hsame
    exact absurd ((hde d e hd he [] []).1.1 hsame).1 (by decide)

end Workshop

end ModelExpr
