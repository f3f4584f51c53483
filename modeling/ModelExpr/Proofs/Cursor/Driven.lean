import ModelExpr.Proofs.Client.Sound
import ModelExpr.Proofs.Cursor.Queue

namespace ModelExpr

theorem Store.readOperands_view {s : Store} {v w : View} {r : Ref} {xs : Array Ref}
    (h : s.readOperands (.ofRef r : Handle v) = .ok xs) :
    s.readOperands (.ofRef r : Handle w) = .ok xs := by
  obtain ⟨p, hp, h⟩ := bind_eq_ok.1 h
  refine bind_eq_ok.2 ⟨p, hp, ?_⟩
  cases p with
  | list | call => exact h
  | _ => cases h

namespace Queue

variable {v : View}

def take (q : Queue v) : Take → Option (Handle v) × Queue v
  | .front k => q.nth k
  | .back k => q.nthBack k

def takeAll (q : Queue v) (ts : List Take) : Queue v := ts.foldl (fun q t => (q.take t).2) q

theorem Leads.take (q : Queue v) (t : Take) : q.Leads (q.take t).2 := by
  cases t with
  | front k => exact .nth q k
  | back k => exact .nthBack q k

end Queue

namespace Cursor

inductive Reaches {v : View} (c : Cursor v) : Cursor v → Prop where
  | refl : Reaches c c
  | take {d : Cursor v} (h : Reaches c d) (t : Take) : Reaches c (d.take t).2
  | rest {d : Cursor v} (h : Reaches c d) : Reaches c d.atBack
  | restBack {d : Cursor v} (h : Reaches c d) : Reaches c d.atFront

inductive Begins (s : Store) (r : Ref) : {v : View} → Cursor v → Prop where
  | intro {l : ListView} {c : Cursor l.element}
    (hc : s.cursor (.ofRef r : Handle l.view) = .ok c) : Begins s r c

/-- A cursor on the operands of `r`, after any moves. A copy is the cursor itself. -/
inductive Driven (s : Store) (r : Ref) {v : View} (d : Cursor v) : Prop where
  | intro {c : Cursor v} (hc : Begins s r c) (h : c.Reaches d)

variable {v : View} {c d e : Cursor v} {s : Store} {r u : Ref}

theorem Begins.queue_eq (h : Begins s r c) {xs : Array Ref}
    (hxs : s.readOperands (.ofRef r : Handle .expr) = .ok xs) :
    c.queue = .fresh (some r) (xs.toList.map .ofRef) := by
  cases h with
  | intro hc =>
    obtain ⟨ys, hys, rfl⟩ := map_eq_ok.1 hc
    obtain rfl := Except.ok.inj ((Store.readOperands_view hys).symm.trans hxs)
    exact queue_ofOperands (some r) ys

theorem take_owner (t : Take) : (c.take t).2.owner = c.owner := by
  cases t <;> simp only [take, nth, nthBack] <;> split <;> rfl

theorem take_queue (c : Cursor v) (t : Take) :
    c.queue.take t = ((c.take t).1, (c.take t).2.queue) := by
  cases t with
  | front k => exact nth_queue c k
  | back k => exact nthBack_queue c k

theorem takeAll_queue (c : Cursor v) (ts : List Take) :
    c.queue.takeAll ts = (c.takeAll ts).queue := by
  induction ts generalizing c with
  | nil => rfl
  | cons t ts ih =>
    rw [Queue.takeAll, List.foldl_cons, take_queue]
    exact ih (c.take t).2

theorem takeAll_append (c : Cursor v) (ts us : List Take) :
    c.takeAll (ts ++ us) = (c.takeAll ts).takeAll us :=
  List.foldl_append

theorem same_self (c : Cursor v) : c.same c = true := by simp [same]

namespace Reaches

theorem trans (h : c.Reaches d) (h' : d.Reaches e) : c.Reaches e := by
  induction h' with
  | refl => exact h
  | take _ t ih => exact ih.take t
  | rest _ ih => exact ih.rest
  | restBack _ ih => exact ih.restBack

theorem takeAll (c : Cursor v) (ts : List Take) : c.Reaches (c.takeAll ts) := by
  induction ts generalizing c with
  | nil => exact .refl
  | cons t ts ih => exact (refl.take t).trans (ih _)

theorem unchanged (h : c.Reaches d) : d.owner = c.owner ∧ d.operands = c.operands := by
  induction h with
  | refl => exact ⟨rfl, rfl⟩
  | take _ t ih => exact ⟨(take_owner t).trans ih.1, (take_operands t).trans ih.2⟩
  | rest _ ih | restBack _ ih => exact ih

theorem leads (h : c.Reaches d) : c.queue.Leads d.queue := by
  induction h with
  | refl => exact .refl _
  | @take d _ t ih =>
    have hstep := Queue.Leads.take d.queue t
    rw [take_queue] at hstep
    exact ih.trans hstep
  | @rest d _ ih =>
    rw [atBack_queue]
    exact ih.trans (.drain d.queue)
  | @restBack d _ ih =>
    rw [atFront_queue]
    exact ih.trans (.drainBack d.queue)

end Reaches

namespace Driven

theorem reaches (h : Driven s r c) (h' : c.Reaches d) : Driven s r d := by
  cases h with
  | intro hc h => exact .intro hc (h.trans h')

theorem unchanged (h : Driven s r c) :
    c.owner = some r ∧ s.readOperands (.ofRef r : Handle .expr) = .ok c.operands := by
  cases h with
  | intro hc h =>
    obtain ⟨howner, hoperands⟩ := h.unchanged
    cases hc with
    | intro hc =>
      obtain ⟨xs, hxs, rfl⟩ := map_eq_ok.1 hc
      rw [howner, hoperands]
      exact ⟨rfl, Store.readOperands_view hxs⟩

theorem whole_eq (h : Driven s r c) {xs : Array Ref}
    (hxs : s.readOperands (.ofRef r : Handle .expr) = .ok xs) :
    c.queue.whole = xs.toList.map .ofRef := by
  obtain rfl := Except.ok.inj (h.unchanged.2.symm.trans hxs)
  exact c.whole_queue

theorem same_iff (hc : Driven s r c) (hd : Driven s u d) : c.same d = true ↔
    r = u ∧ c.queue.passed.length = d.queue.passed.length ∧
      c.queue.taken.length = d.queue.taken.length := by
  obtain ⟨hcowner, hcoperands⟩ := hc.unchanged
  obtain ⟨hdowner, hdoperands⟩ := hd.unchanged
  have hfront : c.queue.passed.length = c.front := c.position_queue
  have hfront' : d.queue.passed.length = d.front := d.position_queue
  have hback : c.queue.taken.length = c.operands.size - c.back := by simp [queue]
  have hback' : d.queue.taken.length = d.operands.size - d.back := by simp [queue]
  have hcsize := c.back_le_size
  have hdsize := d.back_le_size
  simp only [same, hcowner, hdowner, Option.some.injEq, Bool.and_eq_true, decide_eq_true_eq,
    hfront, hfront', hback, hback', and_assoc]
  constructor
  · rintro ⟨rfl, hf, hb⟩
    have hoperands := Except.ok.inj (hcoperands.symm.trans hdoperands)
    exact ⟨rfl, hf, by rw [hoperands, hb]⟩
  · rintro ⟨rfl, hf, hb⟩
    have hoperands := Except.ok.inj (hcoperands.symm.trans hdoperands)
    rw [← hoperands] at hb hdsize
    exact ⟨rfl, hf, by omega⟩

theorem eq_of_same (hc : Driven s r c) (hd : Driven s u d) (h : c.same d = true) : c = d := by
  obtain ⟨hcowner, hcoperands⟩ := hc.unchanged
  obtain ⟨hdowner, hdoperands⟩ := hd.unchanged
  simp only [same, hcowner, hdowner, Option.some.injEq, Bool.and_eq_true, decide_eq_true_eq] at h
  obtain ⟨⟨rfl, hfront⟩, hback⟩ := h
  have hoperands := Except.ok.inj (hcoperands.symm.trans hdoperands)
  obtain ⟨owner, operands, front, back, _, _⟩ := c
  obtain ⟨owner', operands', front', back', _, _⟩ := d
  simp only at hcowner hdowner hfront hback hoperands
  subst hcowner hdowner hfront hback hoperands
  rfl

end Driven

/-- The cursor answers as a queue of `hs`, which is empty once a step finds too little. -/
structure Serves (c : Cursor v) (hs : List (Handle v)) : Prop where
  bounds : c.front ≤ c.back ∧ c.back ≤ hs.length
  whole : c.queue.passed ++ c.queue.remaining ++ c.queue.taken = hs
  position : c.position = c.queue.passed.length
  length : c.length = c.queue.remaining.length
  nth : ∀ k, (c.nth k).1 = c.queue.remaining[k]? ∧ (c.nth k).2.queue = c.queue.pass (k + 1)
  nthBack : ∀ k, (c.nthBack k).1 = c.queue.remaining.reverse[k]? ∧
    (c.nthBack k).2.queue = c.queue.passBack (k + 1)
  short : ∀ k, c.length ≤ k → (c.nth k).1 = none ∧ (c.nth k).2.length = 0 ∧
    (c.nthBack k).1 = none ∧ (c.nthBack k).2.length = 0
  exhausted : c.length = 0 → ∀ d, c.Reaches d → ∀ k, (d.nth k).1 = none ∧ (d.nthBack k).1 = none

theorem nth_short {k : Nat} (h : c.length ≤ k) : c.nth k = (none, c.atBack) := by
  have := c.front_le_back
  unfold length at h
  exact dif_neg (by omega)

theorem nthBack_short {k : Nat} (h : c.length ≤ k) : c.nthBack k = (none, c.atFront) := by
  have := c.front_le_back
  unfold length at h
  exact dif_neg (by omega)

theorem Reaches.length_le (h : c.Reaches d) : d.length ≤ c.length := by
  obtain ⟨-, hs, ts, -, hremaining, -⟩ := h.leads
  have hlength := congrArg List.length hremaining
  simp only [List.length_append] at hlength
  rw [← length_queue, ← length_queue]
  unfold Queue.length
  omega

theorem serves {hs : List (Handle v)} (h : c.queue.whole = hs) : c.Serves hs where
  bounds := by
    rw [← h, whole_queue, List.length_map]
    exact ⟨c.front_le_back, c.back_le_size⟩
  whole := h
  position := c.position_queue.symm
  length := c.length_queue.symm
  nth k := by
    have hnth := (nth_queue c k).symm.trans (Queue.nth_eq _ k)
    exact ⟨congrArg Prod.fst hnth, congrArg Prod.snd hnth⟩
  nthBack k := by
    have hnth := (nthBack_queue c k).symm.trans (Queue.nthBack_eq _ k)
    exact ⟨congrArg Prod.fst hnth, congrArg Prod.snd hnth⟩
  short k hk := by
    rw [nth_short hk, nthBack_short hk]
    exact ⟨rfl, Nat.sub_self _, rfl, Nat.sub_self _⟩
  exhausted hc d hd k := by
    have hlength := hd.length_le
    rw [nth_short (by omega), nthBack_short (by omega)]
    exact ⟨rfl, rfl⟩

end Cursor

end ModelExpr
