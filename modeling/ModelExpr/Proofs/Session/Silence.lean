import ModelExpr.Session.Run

namespace ModelExpr

def Command.makes : Command → Bool
  | .construct _ | .finish _ _ => true
  | _ => false

namespace SessionM

variable {α β : Type}

def Silent (m : SessionM α) : Prop := ∀ S, (m.run S).2.log = S.log

theorem silent_pure (a : α) : Silent (pure a) := fun _ => rfl

theorem silent_throw (r : Refusal) : Silent (throw r : SessionM α) := fun _ => rfl

theorem silent_get : Silent (get : SessionM Session) := fun _ => rfl

theorem silent_modify {g : Session → Session} (h : ∀ S, (g S).log = S.log) :
    Silent (modify g : SessionM Unit) := h

theorem silent_refusal (x : Except Refusal α) : Silent (liftM x : SessionM α) := by
  cases x <;> exact fun _ => rfl

theorem silent_rejection (x : Except Rejection α) : Silent (liftM x : SessionM α) := by
  cases x <;> exact fun _ => rfl

theorem silent_fault (x : Except Fault α) : Silent (liftM x : SessionM α) := by
  cases x <;> exact fun _ => rfl

theorem silent_failure (x : Except Failure α) : Silent (liftM x : SessionM α) := by
  cases x <;> exact fun _ => rfl

theorem run_bind (m : SessionM α) (k : α → SessionM β) (S : Session) : (m >>= k).run S =
    match m.run S with
    | (.ok a, T) => (k a).run T
    | (.error r, T) => (.error r, T) := by
  simp only [ExceptT.run, Bind.bind, ExceptT.bind, ExceptT.mk, StateT.bind, ExceptT.bindCont]
  cases m S with
  | mk result T => cases result <;> rfl

theorem Silent.bind {m : SessionM α} {k : α → SessionM β} (hm : Silent m)
    (hk : ∀ a, Silent (k a)) : Silent (m >>= k) := by
  intro S
  have hfirst := hm S
  rw [run_bind]
  split
  case h_1 a T hT =>
    rw [hT] at hfirst
    exact (hk a T).trans hfirst
  case h_2 r T hT =>
    rw [hT] at hfirst
    exact hfirst

theorem Silent.last {m : SessionM α} (hm : Silent m) (k : α → β) :
    Silent (do return k (← m)) :=
  hm.bind fun a => silent_pure (k a)

theorem silent_mapM {k : α → SessionM β} (hk : ∀ a, Silent (k a)) (xs : List α) :
    Silent (xs.mapM k) := by
  induction xs with
  | nil => exact silent_pure []
  | cons x xs ih =>
    rw [List.mapM_cons]
    exact (hk x).bind fun y => ih.last (y :: ·)

theorem silent_product (name : String) : Silent (product name) := by
  refine silent_get.bind fun S => ?_
  split
  · exact silent_pure _
  · exact silent_throw _

theorem silent_find (ofProduct? : Product → Option α) (x : Source α) :
    Silent (find ofProduct? x) := by
  cases x with
  | register name =>
    refine (silent_product name).bind fun p => ?_
    split
    · exact silent_pure _
    · exact silent_throw _
  | given x => exact silent_pure x
  | malformed => exact silent_throw _

theorem silent_operand (v : View) (x : HandleSource) : Silent (operand v x) :=
  (silent_find Product.handle? x).bind fun h => silent_rejection (h.2.cast v)

theorem silent_assign (name : String) (p : Product) : Silent (assign name p) :=
  silent_modify fun _ => rfl

theorem silent_release (name : String) : Silent (release name) := silent_modify fun _ => rfl

theorem silent_holding (i : Nat) : Silent (holding i) := by
  refine silent_get.bind fun S => ?_
  split
  · exact silent_pure _
  · exact silent_throw _

theorem silent_store (i : Nat) : Silent (store i) := (silent_holding i).last _

theorem silent_factory (i : Nat) : Silent (factory i) := by
  refine (silent_holding i).bind fun h => ?_
  split
  · exact silent_pure _
  · exact silent_throw _

theorem silent_setHolding (i : Nat) (h : Holding) : Silent (setHolding i h) :=
  silent_modify fun _ => rfl

theorem silent_addHolding (h : Holding) : Silent (addHolding h) := fun _ => rfl

def Calm {v : View} (m : CursorM v α) : Prop := ∀ cs, Silent (m.run cs)

section Cursors

variable {v : View} {l : ListView}

theorem Calm.bind {m : CursorM v α} {k : α → CursorM v β} (hm : Calm m) (hk : ∀ a, Calm (k a)) :
    Calm (m >>= k) := fun cs => (hm cs).bind fun p => hk p.1 p.2

theorem calm_pure (a : α) : Calm (pure a : CursorM v α) := fun cs => silent_pure (a, cs)

theorem calm_lift {m : SessionM α} (hm : Silent m) : Calm (liftM m : CursorM v α) :=
  fun cs => hm.last fun a => (a, cs)

theorem calm_modifyGet (g : Array (Cursor v) → α × Array (Cursor v)) :
    Calm (modifyGet g : CursorM v α) := fun cs => silent_pure (g cs)

theorem calm_get : Calm (get : CursorM v (Array (Cursor v))) := fun cs => silent_pure (cs, cs)

theorem calm_cursor (i : Nat) : Calm (CursorM.cursor i : CursorM l.element _) := by
  refine calm_get.bind fun cs => ?_
  split
  · exact calm_pure _
  · exact calm_lift (silent_throw _)

theorem calm_take (i : Nat) (step : Cursor l.element → Option (Handle l.element) × Cursor l.element) :
    Calm (CursorM.take i step) :=
  (calm_cursor i).bind fun _ => (calm_modifyGet _).bind fun _ => calm_pure _

theorem calm_move (i : Nat) (m : Move) : Calm (CursorM.move i m : CursorM l.element Datum) := by
  cases m with
  | next | nextBack | nth | nthBack => exact calm_take _ _
  | length | position | text => exact (calm_cursor _).bind fun _ => calm_pure _
  | rest | restBack =>
    exact (calm_cursor _).bind fun _ => (calm_modifyGet _).bind fun _ => calm_pure _
  | copy => exact (calm_cursor _).bind fun _ => calm_modifyGet _
  | start owner store? =>
    refine (calm_lift (silent_store _)).bind fun s => ?_
    refine (calm_lift (silent_operand l.view owner)).bind fun h => ?_
    exact (calm_lift (silent_fault (s.cursor h))).bind fun _ => calm_modifyGet _
  | same => exact (calm_cursor _).bind fun _ => (calm_cursor _).bind fun _ => calm_pure _
  | malformed => exact fun cs => silent_throw _

theorem calm_mapM {k : α → CursorM v β} (hk : ∀ a, Calm (k a)) (xs : List α) :
    Calm (xs.mapM k) := by
  induction xs with
  | nil => exact calm_pure []
  | cons x xs ih =>
    rw [List.mapM_cons]
    exact (hk x).bind fun y => ih.bind fun ys => calm_pure (y :: ys)

end Cursors

theorem silent_onDraft (name : String) {δ : Type} (wrap : δ → Product) (d : δ)
    (m : ExceptT Rejection (StateM δ) Unit) : Silent (onDraft name wrap d m) := by
  refine (silent_release name).bind fun _ => ?_
  refine (silent_assign name (wrap (m.run d).2)).bind fun _ => ?_
  exact (silent_rejection (m.run d).1).bind fun _ => silent_pure _

theorem silent_add (name : String) (x : HandleSource) : Silent (add name x) := by
  refine (silent_find Product.handle? x).bind fun h => (silent_product name).bind fun p => ?_
  split
  · exact (silent_rejection _).bind fun _ => silent_onDraft _ _ _ _
  · exact silent_throw _

theorem silent_onTerm (name : String) (m : ExceptT Rejection (StateM TermDraft) Unit) :
    Silent (onTerm name m) := by
  refine (silent_product name).bind fun p => ?_
  split
  · exact silent_onDraft _ _ _ _
  · exact silent_throw _

theorem silent_viewed (x : HandleSource) (view? : Option View) : Silent (viewed x view?) := by
  refine (silent_find Product.handle? x).bind fun h => ?_
  cases view? with
  | some w => exact (silent_rejection _).last _
  | none => exact silent_pure _

theorem silent_field (i : Nat) (x : HandleSource) (view? : Option View) (name : String)
    (i? : Option Nat) : Silent (field i x view? name i?) := by
  refine (silent_viewed x view?).bind fun h => (silent_store i).bind fun s => ?_
  split
  · exact (silent_fault h.2.kind).last _
  · exact silent_pure _
  · exact silent_pure _
  · exact (silent_refusal _).bind fun f => (silent_failure (s.read h.2 f.2)).last _

theorem silent_function (i : Nat) (x : FunctionSource) (query : FunctionQuery) :
    Silent (function i x query) := by
  have hx (x : FunctionSource) : Silent (functionRef x) := silent_find Product.function? x
  cases query with
  | name => exact (hx x).bind fun f => (silent_store i).bind fun s => (silent_fault _).last _
  | id | isNull => exact (hx x).last _
  | same y => exact (hx x).bind fun f => (hx y).last _

theorem silent_operands (i : Nat) (x : HandleSource) (moves : List Move) :
    Silent (operands i x moves) := by
  refine (silent_find Product.handle? x).bind fun h => (silent_store i).bind fun s => ?_
  split
  · exact silent_throw _
  · refine (silent_fault _).bind fun c => Silent.last ?_ _
    exact (calm_mapM (calm_move i) moves #[c]).last _

theorem silent_single (i : Nat) {c : Command} (h : c.makes = false) : Silent (single i c) := by
  cases c with
  | construct | finish => cases h
  | add name x => exact silent_add name x
  | addSlope | addBreakpoint => exact silent_onTerm _ _
  | draft name =>
    refine (silent_product name).bind fun p => ?_
    split
    · exact silent_pure _
    · exact silent_throw _
  | cast x v => exact (silent_viewed x (some v)).last _
  | same x y =>
    exact (silent_find Product.handle? x).bind fun a => (silent_find Product.handle? y).last _
  | distinct xs =>
    exact (silent_mapM (fun x => (silent_find Product.handle? x).last _) xs).last _
  | field => exact silent_field _ _ _ _ _
  | function => exact silent_function _ _ _
  | operands => exact silent_operands _ _ _
  | traverse x start observer =>
    refine (silent_find Product.handle? x).bind fun h => (silent_store i).bind fun s => ?_
    exact (silent_rejection _).bind fun h => (silent_fault _).last _
  | summary | kindAt | exprAt | functionAt => exact (silent_store i).last _
  | text => exact (silent_holding i).last _
  | dump => exact (silent_store i).bind fun s => (silent_failure s.dump).last _
  | openFactory | openEmpty =>
    exact (silent_fault _).bind fun f => (silent_addHolding _).last _
  | copyStore => exact (silent_store i).bind fun s => (silent_addHolding _).last _
  | copyShared =>
    refine (silent_holding i).bind fun h => ?_
    split
    · exact (silent_addHolding _).last _
    · exact silent_throw _
  | close | share =>
    exact (silent_factory i).bind fun f => (silent_setHolding i _).bind fun _ => silent_pure _
  | idle => exact silent_pure _
  | again | malformed => exact silent_throw _

end SessionM

end ModelExpr
