import ModelExpr.Proofs.Cursor.Driven
import ModelExpr.Proofs.Session.Silence

namespace ModelExpr

theorem Store.cursor_ofRef {s : Store} {l : ListView} {h : Handle l.view} {c : Cursor l.element}
    (hc : s.cursor h = .ok c) : ∃ r, h = .ofRef r := by
  obtain ⟨ref?⟩ := h
  cases ref? with
  | none => cases hc
  | some r => exact ⟨r, rfl⟩

namespace SessionM

variable {α β : Type} {S T : Session}

theorem run_bind_ok {m : SessionM α} {k : α → SessionM β} {y : β}
    (h : (m >>= k).run S = (.ok y, T)) :
    ∃ x S', m.run S = (.ok x, S') ∧ (k x).run S' = (.ok y, T) := by
  rw [run_bind] at h
  split at h
  case h_1 x S' hm => exact ⟨x, S', hm, h⟩
  case h_2 => cases h

theorem holding_ok {i : Nat} {H : Holding} (h : (holding i).run S = (.ok H, T)) :
    T = S ∧ S.stores[i]? = some H := by
  obtain ⟨S₁, S₂, hget, hrest⟩ := run_bind_ok (m := get) h
  cases hget
  split at hrest <;> cases hrest
  exact ⟨rfl, ‹_›⟩

theorem store_ok {i : Nat} {s : Store} (h : (store i).run S = (.ok s, T)) :
    T = S ∧ ∃ H ∈ S.stores, H.store = s := by
  obtain ⟨H, S₁, hholding, hrest⟩ := run_bind_ok (m := holding i) h
  obtain ⟨rfl, hH⟩ := holding_ok hholding
  cases hrest
  exact ⟨rfl, H, Array.mem_of_getElem? hH, rfl⟩

theorem product_ok {name : String} {p : Product} (h : (product name).run S = (.ok p, T)) :
    T = S := by
  obtain ⟨S₁, S₂, hget, hrest⟩ := run_bind_ok (m := get) h
  cases hget
  split at hrest <;> cases hrest
  rfl

theorem find_ok {f : Product → Option α} {x : Source α} {a : α}
    (h : (find f x).run S = (.ok a, T)) : T = S := by
  cases x with
  | register name =>
    obtain ⟨p, S₁, hp, hrest⟩ := run_bind_ok (m := product name) h
    obtain rfl := product_ok hp
    split at hrest <;> cases hrest
    rfl
  | given x =>
    cases h
    rfl
  | malformed => cases h

theorem fault_ok {x : Except Fault α} {a : α} (h : (liftM x : SessionM α).run S = (.ok a, T)) :
    T = S ∧ x = .ok a := by
  cases x <;> cases h
  exact ⟨rfl, rfl⟩

theorem operand_ok {v : View} {x : HandleSource} {h : Handle v}
    (hx : (operand v x).run S = (.ok h, T)) : T = S := by
  obtain ⟨⟨w, y⟩, S₁, hy, hcast⟩ := run_bind_ok (m := find Product.handle? x) hx
  obtain rfl := find_ok hy
  cases hw : y.cast v with
  | error e =>
    simp only [hw] at hcast
    cases hcast
  | ok z =>
    simp only [hw] at hcast
    cases hcast
    rfl

end SessionM

structure Session.Moves {v : View} (S : Session) (cs ds : Array (Cursor v)) : Prop where
  reaches : ∀ (i : Nat) (c : Cursor v), cs[i]? = some c → ∃ d, ds[i]? = some d ∧ c.Reaches d
  origin : ∀ d ∈ ds, (∃ c ∈ cs, c.Reaches d) ∨ ∃ H ∈ S.stores, ∃ r, Cursor.Driven H.store r d

namespace Session.Moves

variable {v : View} {S : Session} {cs ds es : Array (Cursor v)} {c d : Cursor v} {i : Nat}

theorem refl (cs : Array (Cursor v)) : S.Moves cs cs :=
  ⟨fun _ c hc => ⟨c, hc, .refl⟩, fun d hd => .inl ⟨d, hd, .refl⟩⟩

theorem trans (h : S.Moves cs ds) (h' : S.Moves ds es) : S.Moves cs es := by
  constructor
  · intro i c hc
    obtain ⟨d, hd, hcd⟩ := h.reaches i c hc
    obtain ⟨e, he, hde⟩ := h'.reaches i d hd
    exact ⟨e, he, hcd.trans hde⟩
  · intro e he
    obtain ⟨d, hd, hde⟩ | hstarted := h'.origin e he
    · obtain ⟨c, hc, hcd⟩ | ⟨H, hH, r, hdriven⟩ := h.origin d hd
      · exact .inl ⟨c, hc, hcd.trans hde⟩
      · exact .inr ⟨H, hH, r, hdriven.reaches hde⟩
    · exact .inr hstarted

theorem set (hc : cs[i]? = some c) (h : c.Reaches d) : S.Moves cs (cs.setIfInBounds i d) := by
  have hi := (Array.getElem?_eq_some_iff.1 hc).1
  constructor
  · intro k e he
    by_cases hk : i = k
    · subst hk
      obtain rfl := Option.some.inj (hc.symm.trans he)
      exact ⟨d, Array.getElem?_setIfInBounds_self_of_lt hi, h⟩
    · exact ⟨e, (Array.getElem?_setIfInBounds_ne hk).trans he, .refl⟩
  · intro e he
    obtain he | rfl := Array.mem_or_eq_of_mem_setIfInBounds he
    · exact .inl ⟨e, he, .refl⟩
    · exact .inl ⟨c, Array.mem_of_getElem? hc, h⟩

theorem push (h : (∃ c ∈ cs, c.Reaches d) ∨ ∃ H ∈ S.stores, ∃ r, Cursor.Driven H.store r d) :
    S.Moves cs (cs.push d) := by
  constructor
  · intro i c hc
    have hi := (Array.getElem?_eq_some_iff.1 hc).1
    exact ⟨c, by rw [Array.getElem?_push_lt hi, ← hc, Array.getElem?_eq_getElem hi], .refl⟩
  · intro e he
    obtain he | rfl := Array.mem_push.1 he
    · exact .inl ⟨e, he, .refl⟩
    · exact h

end Session.Moves

namespace CursorM

variable {α β : Type} {l : ListView} {S : Session} {cs : Array (Cursor l.element)}
  {c d : Cursor l.element} {i : Nat}

def Moving (S : Session) (cs : Array (Cursor l.element)) (m : CursorM l.element α) : Prop :=
  ∀ a ds T, (m.run cs).run S = (.ok (a, ds), T) → T = S ∧ S.Moves cs ds

theorem Moving.pure (a : α) : Moving S cs (pure a) := by
  intro b ds T h
  cases h
  exact ⟨rfl, .refl cs⟩

theorem Moving.throw (r : Refusal) : Moving (α := α) S cs (throw r) := by
  intro b ds T h
  cases h

theorem Moving.bind {m : CursorM l.element α} {k : α → CursorM l.element β} (hm : Moving S cs m)
    (hk : ∀ a ds, Moving S ds (k a)) : Moving S cs (m >>= k) := by
  intro b es T h
  rw [StateT.run_bind] at h
  obtain ⟨⟨a, ds⟩, S₁, hfirst, hrest⟩ := SessionM.run_bind_ok h
  obtain ⟨rfl, hmoves⟩ := hm a ds S₁ hfirst
  obtain ⟨rfl, hmoves'⟩ := hk a ds b es T hrest
  exact ⟨rfl, hmoves.trans hmoves'⟩

theorem Moving.lift {m : SessionM α} {k : α → CursorM l.element β}
    (h : ∀ a T, m.run S = (.ok a, T) → T = S ∧ Moving S cs (k a)) :
    Moving S cs (liftM m >>= k) := by
  intro b ds T hrun
  rw [StateT.run_bind] at hrun
  obtain ⟨⟨a, cs'⟩, S₁, hm, hrest⟩ := SessionM.run_bind_ok hrun
  obtain ⟨a', S₂, hm, hpure⟩ := SessionM.run_bind_ok (m := m) hm
  cases hpure
  obtain ⟨rfl, hk⟩ := h a S₁ hm
  exact hk b ds T hrest

theorem run_cursor (i : Nat) (cs : Array (Cursor l.element)) :
    (cursor i : CursorM l.element (Cursor l.element)).run cs =
      match cs[i]? with
      | some c => Pure.pure (c, cs)
      | none => MonadExcept.throw .malformed := by
  unfold cursor
  rw [StateT.run_bind]
  change (match cs[i]? with
    | some c => _
    | none => _ : CursorM l.element (Cursor l.element)).run cs = _
  cases cs[i]? <;> rfl

theorem Moving.cursor {k : Cursor l.element → CursorM l.element α}
    (h : ∀ c, cs[i]? = some c → Moving S cs (k c)) : Moving S cs (cursor i >>= k) := by
  intro a ds T hrun
  rw [StateT.run_bind, run_cursor] at hrun
  cases hc : cs[i]? with
  | none =>
    rw [hc] at hrun
    cases hrun
  | some c =>
    rw [hc] at hrun
    exact h c hc a ds T hrun

theorem Moving.set (hc : cs[i]? = some c) (h : c.Reaches d) : Moving S cs (set i d) := by
  intro a ds T hrun
  cases hrun
  exact ⟨rfl, .set hc h⟩

theorem Moving.add (h : (∃ c ∈ cs, c.Reaches d) ∨ ∃ H ∈ S.stores, ∃ r, Cursor.Driven H.store r d) :
    Moving S cs (add d) := by
  intro a ds T hrun
  cases hrun
  exact ⟨rfl, .push h⟩

theorem Moving.take {step : Cursor l.element → Option (Handle l.element) × Cursor l.element}
    (h : ∀ c : Cursor l.element, c.Reaches (step c).2) : Moving S cs (take i step) := by
  apply cursor
  intro c hc
  exact (set hc (h c)).bind fun _ _ => pure _

theorem moving_move (store : Nat) (m : Move) :
    Moving S cs (move store m : CursorM l.element Datum) := by
  cases m with
  | next i => exact .take fun c => Cursor.Reaches.refl.take (.front 0)
  | nextBack i => exact .take fun c => Cursor.Reaches.refl.take (.back 0)
  | nth i k => exact .take fun c => Cursor.Reaches.refl.take (.front k)
  | nthBack i k => exact .take fun c => Cursor.Reaches.refl.take (.back k)
  | length i | position i | text i => exact .cursor fun c hc => .pure _
  | rest i => exact .cursor fun c hc => (Moving.set hc (.rest .refl)).bind fun _ _ => .pure _
  | restBack i =>
    exact .cursor fun c hc => (Moving.set hc (.restBack .refl)).bind fun _ _ => .pure _
  | copy i => exact .cursor fun c hc => .add (.inl ⟨c, Array.mem_of_getElem? hc, .refl⟩)
  | start owner store? =>
    apply Moving.lift
    intro s T hs
    obtain ⟨rfl, H, hH, rfl⟩ := SessionM.store_ok hs
    refine ⟨rfl, .lift ?_⟩
    intro h T hh
    obtain rfl := SessionM.operand_ok hh
    refine ⟨rfl, .lift ?_⟩
    intro c T hc
    obtain ⟨rfl, hcursor⟩ := SessionM.fault_ok hc
    obtain ⟨r, rfl⟩ := Store.cursor_ofRef hcursor
    exact ⟨rfl, .add (.inr ⟨H, hH, r, .intro (.intro hcursor) .refl⟩)⟩
  | same i j => exact .cursor fun c hc => .cursor fun d hd => .pure _
  | malformed => exact .throw _

theorem moving_moves (store : Nat) (moves : List Move) :
    Moving S cs (moves.mapM (move (l := l) store)) := by
  induction moves generalizing cs with
  | nil => exact .pure []
  | cons m moves ih =>
    rw [List.mapM_cons]
    apply (moving_move store m).bind
    intro y ds
    exact ih.bind fun ys es => .pure (y :: ys)

end CursorM

end ModelExpr
