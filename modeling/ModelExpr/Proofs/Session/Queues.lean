import ModelExpr.Proofs.Cursor.Queue
import ModelExpr.Session.Run

namespace ModelExpr

def Store.queue (s : Store) {l : ListView} (h : Handle l.view) : Except Fault (Queue l.element) :=
  (s.readOperands h).map fun xs => .fresh h.ref? (xs.toList.map .ofRef)

abbrev QueueM (v : View) := StateT (Array (Queue v)) SessionM

namespace QueueM

variable {l : ListView}

def queue (i : Nat) : QueueM l.element (Queue l.element) := do
  match (← get)[i]? with
  | some q => return q
  | none => throw .malformed

def set (i : Nat) (q : Queue l.element) : QueueM l.element Unit :=
  modify fun qs => qs.setIfInBounds i q

def add (q : Queue l.element) : QueueM l.element Datum :=
  modifyGet fun qs => (.count qs.size, qs.push q)

def take (i : Nat) (step : Queue l.element → Option (Handle l.element) × Queue l.element) :
    QueueM l.element Datum := do
  let (h?, q) := step (← queue i)
  set i q
  return .ofOption (h?.map fun h => .text h.text)

def takeAll (i : Nat) (step : Queue l.element → List (Handle l.element) × Queue l.element) :
    QueueM l.element Datum := do
  let (hs, q) := step (← queue i)
  set i q
  return .texts (hs.map Handle.text)

def move (store : Nat) : Move → QueueM l.element Datum
  | .next i => take i Queue.next
  | .nextBack i => take i Queue.nextBack
  | .nth i k => take i (·.nth k)
  | .nthBack i k => take i (·.nthBack k)
  | .length i => return .count (← queue i).length
  | .position i => return .count (← queue i).position
  | .text i => return .text (← queue i).text
  | .rest i => takeAll i Queue.drain
  | .restBack i => takeAll i Queue.drainBack
  | .copy i => do add (← queue i)
  | .start owner store? => do
    let s ← liftM (SessionM.store (store?.getD store))
    let h ← liftM (SessionM.operand l.view owner)
    add (← liftM (m := Except Fault) (n := SessionM) (s.queue h))
  | .same i j => return .truth ((← queue i).same (← queue j))
  | .malformed => throw .malformed

end QueueM

theorem Store.queue_eq (s : Store) {l : ListView} (h : Handle l.view) :
    s.queue h = (s.cursor h).map Cursor.queue := by
  unfold queue cursor
  cases s.readOperands h with
  | error e => rfl
  | ok xs => exact congrArg Except.ok (Cursor.queue_ofOperands h.ref? xs).symm

/-- `n` does on the queues what `m` does on the cursors, and its results are those of `m` after `φ`. -/
def Mirrors {v : View} {α β : Type} (φ : α → β) (m : CursorM v α) (n : QueueM v β) : Prop :=
  ∀ cs : Array (Cursor v), n.run (cs.map Cursor.queue) =
    (fun p => (φ p.1, p.2.map Cursor.queue)) <$> m.run cs

namespace Mirrors

variable {v : View} {l : ListView} {α β γ δ : Type}

theorem pure (φ : α → β) (a : α) : Mirrors φ (pure a : CursorM v α) (pure (φ a) : QueueM v β) :=
  fun _ => rfl

theorem bind {φ : α → β} {ψ : γ → δ} {m : CursorM v α} {n : QueueM v β} {k : α → CursorM v γ}
    {j : β → QueueM v δ} (h : Mirrors φ m n) (hk : ∀ a, Mirrors ψ (k a) (j (φ a))) :
    Mirrors ψ (m >>= k) (n >>= j) := by
  intro cs
  rw [StateT.run_bind, StateT.run_bind, h cs, map_bind, bind_map_left]
  apply congrArg
  funext p
  exact hk p.1 p.2

theorem lift (m : SessionM α) : Mirrors (v := v) id (liftM m) (liftM m) := by
  intro cs
  change (m >>= fun a => Pure.pure (a, cs.map Cursor.queue)) =
    (fun p => (id p.1, p.2.map Cursor.queue)) <$> (m >>= fun a => Pure.pure (a, cs))
  rw [map_bind]
  rfl

theorem throw (φ : α → β) (e : Refusal) :
    Mirrors φ (throw e : CursorM v α) (throw e : QueueM v β) :=
  fun _ => rfl

theorem fault {φ : α → β} {x : Except Fault α} {y : Except Fault β} (h : y = x.map φ) :
    Mirrors φ (liftM (liftM x : SessionM α) : CursorM v α)
      (liftM (liftM y : SessionM β) : QueueM v β) := by
  subst h
  cases x with
  | error e => exact fun _ => rfl
  | ok a => exact fun _ => rfl

theorem get : Mirrors (v := v) (·.map Cursor.queue) get get := fun _ => rfl

theorem cursor (i : Nat) :
    Mirrors Cursor.queue (CursorM.cursor i : CursorM l.element _) (QueueM.queue i) := by
  apply get.bind
  intro cs
  rw [Array.getElem?_map]
  cases cs[i]? with
  | none => exact throw _ _
  | some c => exact pure _ _

theorem set (i : Nat) (c : Cursor l.element) :
    Mirrors id (CursorM.set i c) (QueueM.set i c.queue) := by
  intro cs
  change Pure.pure ((), (cs.map Cursor.queue).setIfInBounds i c.queue) =
    (Pure.pure ((), (cs.setIfInBounds i c).map Cursor.queue) : SessionM _)
  rw [Array.map_setIfInBounds]

theorem add (c : Cursor l.element) : Mirrors id (CursorM.add c) (QueueM.add c.queue) := by
  intro cs
  change Pure.pure (Datum.count (cs.map Cursor.queue).size, (cs.map Cursor.queue).push c.queue) =
    (Pure.pure (Datum.count cs.size, (cs.push c).map Cursor.queue) : SessionM _)
  rw [Array.size_map, Array.map_push]

theorem take (i : Nat) {step : Cursor l.element → Option (Handle l.element) × Cursor l.element}
    {step' : Queue l.element → Option (Handle l.element) × Queue l.element}
    (h : ∀ c : Cursor l.element, step' c.queue = ((step c).1, (step c).2.queue)) :
    Mirrors id (CursorM.take i step) (QueueM.take i step') := by
  apply (cursor i).bind
  intro c
  simp only [h]
  apply (set i (step c).2).bind
  intro _
  exact pure id _

theorem move (store : Nat) (m : Move) :
    Mirrors id (CursorM.move store m : CursorM l.element Datum) (QueueM.move store m) := by
  cases m with
  | next i => exact take i fun c => c.nth_queue 0
  | nextBack i => exact take i fun c => c.nthBack_queue 0
  | nth i k => exact take i fun c => c.nth_queue k
  | nthBack i k => exact take i fun c => c.nthBack_queue k
  | length i =>
    apply (cursor i).bind
    intro c
    rw [Cursor.length_queue]
    exact pure id _
  | position i =>
    apply (cursor i).bind
    intro c
    rw [Cursor.position_queue]
    exact pure id _
  | text i =>
    apply (cursor i).bind
    intro c
    rw [Cursor.text_queue]
    exact pure id _
  | rest i =>
    apply (cursor i).bind
    intro c
    have hdrain : c.queue.drain = (c.remaining.toList, c.atBack.queue) := by
      rw [Cursor.remaining_queue, Cursor.atBack_queue, Queue.drain_eq]
    simp only [hdrain]
    apply (set i c.atBack).bind
    intro _
    exact pure id _
  | restBack i =>
    apply (cursor i).bind
    intro c
    have hdrain : c.queue.drainBack = (c.remaining.reverse.toList, c.atFront.queue) := by
      rw [Array.toList_reverse, Cursor.remaining_queue, Cursor.atFront_queue, Queue.drainBack_eq]
    simp only [hdrain]
    apply (set i c.atFront).bind
    intro _
    exact pure id _
  | copy i => exact (cursor i).bind add
  | start owner store? =>
    apply (lift _).bind
    intro s
    apply (lift _).bind
    intro h
    apply Mirrors.bind _ add
    exact fault (s.queue_eq h)
  | same i j =>
    apply (cursor i).bind
    intro c
    apply (cursor j).bind
    intro d
    rw [Cursor.same_queue]
    exact pure id _
  | malformed => exact throw id _

theorem mapM {k : α → CursorM v β} {j : α → QueueM v β} (h : ∀ a, Mirrors id (k a) (j a))
    (xs : List α) : Mirrors id (xs.mapM k) (xs.mapM j) := by
  induction xs with
  | nil => exact pure id []
  | cons x xs ih =>
    rw [List.mapM_cons, List.mapM_cons]
    apply (h x).bind
    intro y
    apply ih.bind
    intro ys
    exact pure id (y :: ys)

end Mirrors

end ModelExpr
