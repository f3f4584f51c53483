import ModelExpr.Cursor
/-!
Queues: what a cursor stands for. The operands that are left can be taken at both ends, and those
that were taken are kept before and after them, so that nothing is lost.
-/

namespace ModelExpr

structure Queue (view : View) where
  owner : Option Ref
  passed : List (Handle view)
  remaining : List (Handle view)
  taken : List (Handle view)
  deriving DecidableEq

namespace Queue

variable {v : View} {q : Queue v} {k m : Nat}

def fresh (owner : Option Ref) (hs : List (Handle v)) : Queue v := ⟨owner, [], hs, []⟩

def whole (q : Queue v) : List (Handle v) := q.passed ++ q.remaining ++ q.taken

def position (q : Queue v) : Nat := q.passed.length

def length (q : Queue v) : Nat := q.remaining.length

def next (q : Queue v) : Option (Handle v) × Queue v :=
  match q.remaining with
  | [] => (none, q)
  | h :: hs => (some h, { q with passed := q.passed ++ [h], remaining := hs })

def nextBack (q : Queue v) : Option (Handle v) × Queue v :=
  match q.remaining.getLast? with
  | none => (none, q)
  | some h => (some h, { q with remaining := q.remaining.dropLast, taken := h :: q.taken })

def repeated (step : Queue v → Option (Handle v) × Queue v) :
    Nat → Queue v → Option (Handle v) × Queue v
  | 0, q => step q
  | k + 1, q =>
    match step q with
    | (none, q) => (none, q)
    | (some _, q) => repeated step k q

def nth (q : Queue v) (k : Nat) : Option (Handle v) × Queue v := repeated next k q

def nthBack (q : Queue v) (k : Nat) : Option (Handle v) × Queue v := repeated nextBack k q

def collected (step : Queue v → Option (Handle v) × Queue v) :
    Nat → Queue v → List (Handle v) × Queue v
  | 0, q => ([], q)
  | k + 1, q =>
    match step q with
    | (none, q) => ([], q)
    | (some h, q) =>
      let (hs, q) := collected step k q
      (h :: hs, q)

def drain (q : Queue v) : List (Handle v) × Queue v := collected next (q.length + 1) q

def drainBack (q : Queue v) : List (Handle v) × Queue v := collected nextBack (q.length + 1) q

def same (q r : Queue v) : Bool :=
  q.owner = r.owner && q.position = r.position && q.length = r.length

def text (q : Queue v) : String :=
  s!"ArgIter \x7b position: {q.position}, remaining: {q.length} \x7d"

def pass (q : Queue v) (m : Nat) : Queue v :=
  { q with passed := q.passed ++ q.remaining.take m, remaining := q.remaining.drop m }

def passBack (q : Queue v) (m : Nat) : Queue v :=
  { q with
    remaining := q.remaining.take (q.length - m)
    taken := q.remaining.drop (q.length - m) ++ q.taken }

theorem nth_eq (q : Queue v) (k : Nat) : q.nth k = (q.remaining[k]?, q.pass (k + 1)) := by
  obtain ⟨owner, passed, remaining, taken⟩ := q
  induction k generalizing passed remaining with
  | zero => cases remaining <;> simp [nth, repeated, next, pass]
  | succ k ih =>
    cases remaining with
    | nil => simp [nth, repeated, next, pass]
    | cons h hs =>
      have hrest := ih (passed ++ [h]) hs
      simpa [nth, repeated, next, pass] using hrest

theorem nthBack_eq (q : Queue v) (k : Nat) :
    q.nthBack k = (q.remaining.reverse[k]?, q.passBack (k + 1)) := by
  obtain ⟨owner, passed, remaining, taken⟩ := q
  induction k generalizing remaining taken with
  | zero =>
    obtain rfl | ⟨hs, h, rfl⟩ := remaining.eq_nil_or_concat <;>
      simp [nthBack, repeated, nextBack, passBack, length]
  | succ k ih =>
    obtain rfl | ⟨hs, h, rfl⟩ := remaining.eq_nil_or_concat
    · simp [nthBack, repeated, nextBack, passBack, length]
    · have hrest := ih hs (h :: taken)
      have hle : hs.length - (k + 1) ≤ hs.length := Nat.sub_le _ _
      simp only [nthBack, repeated, nextBack, passBack, length] at hrest ⊢
      simp [hrest, List.take_append_of_le_length hle, List.drop_append_of_le_length hle]

theorem collected_next (h : q.length < k) : collected next k q =
    (q.remaining, { q with passed := q.passed ++ q.remaining, remaining := [] }) := by
  obtain ⟨owner, passed, remaining, taken⟩ := q
  induction k generalizing passed remaining with
  | zero => exact absurd h (Nat.not_lt_zero _)
  | succ k ih =>
    cases remaining with
    | nil => simp [collected, next]
    | cons x hs => simp [collected, next, ih (passed ++ [x]) hs (Nat.lt_of_succ_lt_succ h)]

theorem collected_nextBack (h : q.length < k) : collected nextBack k q =
    (q.remaining.reverse, { q with remaining := [], taken := q.remaining ++ q.taken }) := by
  obtain ⟨owner, passed, remaining, taken⟩ := q
  induction k generalizing remaining taken with
  | zero => exact absurd h (Nat.not_lt_zero _)
  | succ k ih =>
    obtain rfl | ⟨hs, x, rfl⟩ := remaining.eq_nil_or_concat
    · simp [collected, nextBack]
    · have hlength : hs.length < k := by simpa [length] using h
      simp [collected, nextBack, ih hs (x :: taken) hlength]

theorem drain_eq (q : Queue v) : q.drain = (q.remaining, q.pass q.length) := by
  rw [drain, collected_next (Nat.lt_succ_self _), pass, length, List.take_length, List.drop_length]

theorem drainBack_eq (q : Queue v) :
    q.drainBack = (q.remaining.reverse, q.passBack q.length) := by
  rw [drainBack, collected_nextBack (Nat.lt_succ_self _), passBack, Nat.sub_self]
  rfl

theorem pass_all (h : q.length ≤ m) : q.pass m = q.drain.2 := by
  rw [drain_eq, pass, pass, List.take_of_length_le h, List.drop_of_length_le h, length,
    List.take_length, List.drop_length]

theorem passBack_all (h : q.length ≤ m) : q.passBack m = q.drainBack.2 := by
  rw [drainBack_eq, passBack, passBack, Nat.sub_eq_zero_of_le h, Nat.sub_self]

def Leads (q r : Queue v) : Prop :=
  r.owner = q.owner ∧ ∃ hs ts, r.passed = q.passed ++ hs ∧ q.remaining = hs ++ r.remaining ++ ts ∧
    r.taken = ts ++ q.taken

namespace Leads

variable {r s : Queue v}

theorem refl (q : Queue v) : q.Leads q := ⟨rfl, [], [], by simp⟩

theorem trans (h : q.Leads r) (h' : r.Leads s) : q.Leads s := by
  obtain ⟨howner, hs, ts, hpassed, hremaining, htaken⟩ := h
  obtain ⟨howner', hs', ts', hpassed', hremaining', htaken'⟩ := h'
  refine ⟨howner'.trans howner, hs ++ hs', ts' ++ ts, ?_, ?_, ?_⟩
  · rw [hpassed', hpassed, List.append_assoc]
  · rw [hremaining, hremaining']
    simp only [List.append_assoc]
  · rw [htaken', htaken, List.append_assoc]

theorem pass (q : Queue v) (m : Nat) : q.Leads (q.pass m) := by
  refine ⟨rfl, q.remaining.take m, [], rfl, ?_, rfl⟩
  rw [List.append_nil]
  exact (List.take_append_drop m q.remaining).symm

theorem passBack (q : Queue v) (m : Nat) : q.Leads (q.passBack m) := by
  refine ⟨rfl, [], q.remaining.drop (q.length - m), (List.append_nil _).symm, ?_, rfl⟩
  exact (List.take_append_drop _ q.remaining).symm

theorem nth (q : Queue v) (k : Nat) : q.Leads (q.nth k).2 := by
  rw [nth_eq]
  exact .pass q (k + 1)

theorem nthBack (q : Queue v) (k : Nat) : q.Leads (q.nthBack k).2 := by
  rw [nthBack_eq]
  exact .passBack q (k + 1)

theorem drain (q : Queue v) : q.Leads q.drain.2 := by
  rw [drain_eq]
  exact .pass q q.length

theorem drainBack (q : Queue v) : q.Leads q.drainBack.2 := by
  rw [drainBack_eq]
  exact .passBack q q.length

theorem whole_eq (h : q.Leads r) : r.whole = q.whole := by
  obtain ⟨-, hs, ts, hpassed, hremaining, htaken⟩ := h
  simp only [whole, hpassed, hremaining, htaken, List.append_assoc]

end Leads

end Queue

theorem take_append_slice {α : Type} (xs : List α) {i j : Nat} (h : i ≤ j) :
    xs.take i ++ (xs.take j).drop i = xs.take j := by
  have htake : xs.take i = (xs.take j).take i := by rw [List.take_take, Nat.min_eq_left h]
  rw [htake, List.take_append_drop]

theorem take_slice {α : Type} (xs : List α) {i j k : Nat} (hij : i ≤ j) (hjk : j ≤ k) :
    ((xs.take k).drop i).take (j - i) = (xs.take j).drop i := by
  rw [List.take_drop, Nat.add_sub_cancel' hij, List.take_take, Nat.min_eq_left hjk]

theorem slice_append_drop {α : Type} (xs : List α) {i j : Nat} (h : i ≤ j) :
    (xs.take j).drop i ++ xs.drop j = xs.drop i := by
  have hdrop : xs.drop j = (xs.drop i).drop (j - i) := by
    rw [List.drop_drop, Nat.add_sub_cancel' h]
  rw [hdrop, List.drop_take, List.take_append_drop]

namespace Cursor

variable {v : View} {c : Cursor v} {k m : Nat}

def queue (c : Cursor v) : Queue v where
  owner := c.owner
  passed := (c.operands.toList.take c.front).map .ofRef
  remaining := ((c.operands.toList.take c.back).drop c.front).map .ofRef
  taken := (c.operands.toList.drop c.back).map .ofRef

theorem queue_ofOperands (owner : Option Ref) (xs : Array Ref) :
    (ofOperands owner xs : Cursor v).queue = .fresh owner (xs.toList.map .ofRef) := by
  have htake : xs.toList.take xs.size = xs.toList := List.take_of_length_le (Nat.le_refl _)
  have hdrop : xs.toList.drop xs.size = [] := List.drop_of_length_le (Nat.le_refl _)
  simp only [queue, ofOperands, htake, hdrop]
  rfl

theorem remaining_queue (c : Cursor v) : c.remaining.toList = c.queue.remaining := by
  simp [remaining, queue, List.drop_take]

theorem position_queue (c : Cursor v) : c.queue.position = c.position := by
  have := c.front_le_back
  have := c.back_le_size
  simp only [Queue.position, queue, position, List.length_map, List.length_take,
    Array.length_toList]
  omega

theorem length_queue (c : Cursor v) : c.queue.length = c.length := by
  have := c.back_le_size
  simp only [Queue.length, queue, length, List.length_map, List.length_drop, List.length_take,
    Array.length_toList]
  omega

theorem text_queue (c : Cursor v) : c.queue.text = c.text := by
  unfold Queue.text text
  rw [position_queue, length_queue]

theorem whole_queue (c : Cursor v) : c.queue.whole = c.operands.toList.map .ofRef := by
  rw [Queue.whole, queue, ← List.map_append, take_append_slice _ c.front_le_back,
    ← List.map_append, List.take_append_drop]

theorem same_queue (c d : Cursor v) : c.queue.same d.queue = c.same d := by
  have hc := c.front_le_back
  have hd := d.front_le_back
  rw [Queue.same, position_queue, position_queue, length_queue, length_queue]
  change (decide (c.owner = d.owner) && decide (c.front = d.front) &&
    decide (c.back - c.front = d.back - d.front)) = _
  rw [same]
  by_cases hfront : c.front = d.front
  · have hback : c.back - c.front = d.back - d.front ↔ c.back = d.back := by omega
    simp only [hback]
  · simp [hfront]

theorem queue_front {m : Nat} (hfront : c.front ≤ m) (hback : m ≤ c.back) :
    ({ c with front := m, front_le_back := hback } : Cursor v).queue =
      c.queue.pass (m - c.front) := by
  have hpassed := take_append_slice c.operands.toList hfront
  have hslice := take_slice c.operands.toList hfront hback
  simp only [queue, Queue.pass, ← List.map_take, ← List.map_drop, ← List.map_append, hslice,
    hpassed, List.drop_drop, Nat.add_sub_cancel' hfront]

theorem queue_back {m : Nat} (hfront : c.front ≤ m) (hback : m ≤ c.back) :
    ({ c with
      back := m
      front_le_back := hfront
      back_le_size := Nat.le_trans hback c.back_le_size } : Cursor v).queue =
        c.queue.passBack (c.back - m) := by
  have hlength : c.queue.length - (c.back - m) = m - c.front := by
    rw [length_queue, length]
    omega
  have htaken := slice_append_drop c.operands.toList hback
  have hslice := take_slice c.operands.toList hfront hback
  simp only [Queue.passBack, hlength]
  simp only [queue, ← List.map_take, ← List.map_drop, ← List.map_append, hslice, List.drop_drop,
    Nat.add_sub_cancel' hfront, htaken]

theorem atBack_queue (c : Cursor v) : c.atBack.queue = c.queue.drain.2 := by
  rw [atBack, queue_front c.front_le_back (Nat.le_refl _)]
  exact Queue.pass_all (Nat.le_of_eq (length_queue c))

theorem atFront_queue (c : Cursor v) : c.atFront.queue = c.queue.drainBack.2 := by
  rw [atFront, queue_back (Nat.le_refl _) c.front_le_back]
  exact Queue.passBack_all (Nat.le_of_eq (length_queue c))

theorem getElem?_remaining (c : Cursor v) (k : Nat) : c.queue.remaining[k]? =
    if c.front + k < c.back then c.operands[c.front + k]?.map .ofRef else none := by
  rw [queue, List.getElem?_map, List.getElem?_drop, List.getElem?_take, Array.getElem?_toList]
  split <;> rfl

theorem nth_queue (c : Cursor v) (k : Nat) :
    c.queue.nth k = ((c.nth k).1, (c.nth k).2.queue) := by
  rw [Queue.nth_eq, getElem?_remaining]
  have hsize := c.back_le_size
  unfold nth
  by_cases h : c.front + k < c.back
  case pos =>
    have hlt : c.front + k < c.operands.size := by omega
    have hm : c.front + k + 1 - c.front = k + 1 := by omega
    rw [dif_pos h, if_pos h, Array.getElem?_eq_getElem hlt, queue_front (by omega) h, hm]
    rfl
  case neg =>
    rw [dif_neg h, if_neg h, atBack_queue, Queue.pass_all]
    rw [length_queue, length]
    omega

theorem nthBack_queue (c : Cursor v) (k : Nat) :
    c.queue.nthBack k = ((c.nthBack k).1, (c.nthBack k).2.queue) := by
  have hlength : c.queue.remaining.length = c.back - c.front := length_queue c
  have hsize := c.back_le_size
  rw [Queue.nthBack_eq]
  unfold nthBack
  by_cases h : c.front + k < c.back
  case pos =>
    have hk : k < c.queue.remaining.length := by omega
    have hindex : c.front + (c.queue.remaining.length - 1 - k) = c.back - 1 - k := by omega
    have hlt : c.back - 1 - k < c.operands.size := by omega
    have hm : c.back - (c.back - 1 - k) = k + 1 := by omega
    have hqueue := queue_back (c := c) (m := c.back - 1 - k) (by omega) (by omega)
    rw [hm] at hqueue
    rw [dif_pos h, List.getElem?_reverse hk, getElem?_remaining, hindex, if_pos (by omega),
      Array.getElem?_eq_getElem hlt, ← hqueue]
    rfl
  case neg =>
    have hk : c.queue.remaining.reverse.length ≤ k := by
      rw [List.length_reverse]
      omega
    rw [dif_neg h, List.getElem?_eq_none hk, atFront_queue, Queue.passBack_all]
    rw [length_queue, length]
    omega

end Cursor

end ModelExpr
