import ModelExpr.Proofs.Client.Steps
import ModelExpr.Proofs.Factory.Aim
/-!
Outlooks: what a client sees of its products when references stand for something else. A chain is
followed by the forms of what it passes alone, so that clients who see the same reach the same, in
whatever stores.
-/

namespace ModelExpr

def Take.pass (front back : Nat) : Take → Option Nat × Nat × Nat
  | .front k =>
    if front + k < back then (some (front + k), front + k + 1, back) else (none, back, back)
  | .back k =>
    if front + k < back then (some (back - 1 - k), front, back - 1 - k) else (none, front, front)

def Take.position? (n : Nat) (earlier : List Take) (last : Take) : Option Nat :=
  let p := earlier.foldl (fun p t => (t.pass p.1 p.2).2) (0, n)
  (last.pass p.1 p.2).1

namespace Cursor

variable {v : View}

theorem take_pass (c : Cursor v) (t : Take) :
    (c.take t).1 = ((t.pass c.front c.back).1.bind (c.operands[·]?)).map .ofRef ∧
      ((c.take t).2.front, (c.take t).2.back) = (t.pass c.front c.back).2 := by
  have hsize := c.back_le_size
  cases t with
  | front k =>
    simp only [take, nth, Take.pass]
    split
    case isTrue h =>
      have hlt : c.front + k < c.operands.size := by omega
      simp [Array.getElem?_eq_getElem hlt]
    case isFalse => exact ⟨rfl, rfl⟩
  | back k =>
    simp only [take, nthBack, Take.pass]
    split
    case isTrue h =>
      have hlt : c.back - 1 - k < c.operands.size := by omega
      simp [Array.getElem?_eq_getElem hlt]
    case isFalse => exact ⟨rfl, rfl⟩

theorem takeAll_pass (c : Cursor v) (ts : List Take) :
    ((c.takeAll ts).front, (c.takeAll ts).back) =
      ts.foldl (fun p t => (t.pass p.1 p.2).2) (c.front, c.back) := by
  induction ts generalizing c with
  | nil => rfl
  | cons t ts ih =>
    rw [List.foldl_cons, ← (c.take_pass t).2]
    exact ih (c.take t).2

theorem takeAll_take (owner : Option Ref) (rs : List Ref) (ts : List Take) (t : Take) :
    (((ofOperands owner rs.toArray : Cursor v).takeAll ts).take t).1 =
      ((Take.position? rs.length ts t).bind (rs[·]?)).map .ofRef := by
  have hpositions := takeAll_pass (ofOperands owner rs.toArray : Cursor v) ts
  rw [(take_pass _ t).1, takeAll_operands, Take.position?]
  simp only [ofOperands, List.size_toArray, List.getElem?_toArray] at hpositions ⊢
  rw [← hpositions]

end Cursor

inductive Root where
  | null
  | made (product : Nat)
  | expr (id : ExprId)
  | function (index : Nat)
  deriving DecidableEq

def Access.root : {v : View} → Access v → Root
  | _, .null _ => .null
  | _, .made _ i => .made i
  | _, .lookup i => .expr i
  | _, .cast a _ => a.root
  | _, .field a _ => a.root
  | _, .operand a _ _ => a.root

def Callee.root : Callee → Root
  | .null => .null
  | .made i => .made i
  | .lookup i => .function i
  | .field a => a.root

def Construction.roots : Construction Access Callee → List Root
  | .unary _ a | .beginNumberOf _ a => [a.root]
  | .negation a => [a.root]
  | .binary _ a b | .relational _ a b => [a.root, b.root]
  | .binaryLogical _ a b => [a.root, b.root]
  | .logicalCount _ a b => [a.root, b.root]
  | .conditional c t e => [c.root, t.root, e.root]
  | .implication c t e => [c.root, t.root, e.root]
  | .beginCall f _ => [f.root]
  | _ => []

def Action.roots : Action Access Callee → List Root
  | .construct c => c.roots
  | .add _ x => [x.root]
  | .finishTerm _ x => [x.root]
  | _ => []

section Mapping

variable {H K L : View → Type} {F G J : Type}

theorem Construction.mapM_congr {h h' : (v : View) → Access v → Option (K v)}
    {f f' : Callee → Option G} {c : Construction Access Callee}
    (hh : ∀ v (x : Access v), x.root ∈ c.roots → h v x = h' v x)
    (hf : ∀ x : Callee, x.root ∈ c.roots → f x = f' x) : c.mapM h f = c.mapM h' f' := by
  cases c with
  | unary k a | negation a | beginNumberOf n a =>
    have ha := hh _ a List.mem_cons_self
    simp only [mapM, ha]
  | binary k a b | relational k a b | binaryLogical k a b | logicalCount k a b =>
    have ha := hh _ a List.mem_cons_self
    have hb := hh _ b (List.mem_cons_of_mem _ List.mem_cons_self)
    simp only [mapM, ha, hb]
  | conditional a b d | implication a b d =>
    have ha := hh _ a List.mem_cons_self
    have hb := hh _ b (List.mem_cons_of_mem _ List.mem_cons_self)
    have hd := hh _ d (List.mem_cons_of_mem _ (List.mem_cons_of_mem _ List.mem_cons_self))
    simp only [mapM, ha, hb, hd]
  | beginCall x n =>
    have hx := hf x List.mem_cons_self
    simp only [mapM, hx]
  | _ => rfl

theorem Action.mapM_congr {h h' : (v : View) → Access v → Option (K v)}
    {f f' : Callee → Option G} {a : Action Access Callee}
    (hh : ∀ v (x : Access v), x.root ∈ a.roots → h v x = h' v x)
    (hf : ∀ x : Callee, x.root ∈ a.roots → f x = f' x) : a.mapM h f = a.mapM h' f' := by
  cases a with
  | construct c => simp only [mapM, Construction.mapM_congr (c := c) hh hf]
  | add i x | finishTerm i x =>
    have hx := hh _ x List.mem_cons_self
    simp only [mapM, hx]
  | _ => rfl

variable (h : (v : View) → H v → Option (K v)) (f : F → Option G) (g : (v : View) → K v → L v)
  (k : G → J)

theorem Construction.map_mapM (c : Construction H F) :
    ((c.mapM h f).map fun c => c.mapM (m := Id) g k) =
      c.mapM (fun v x => (h v x).map (g v)) (fun x => (f x).map k) := by
  cases c with
  | unary k a | negation a | beginNumberOf n a =>
    simp only [mapM]
    cases h _ a <;> rfl
  | binary k a b | relational k a b | binaryLogical k a b | logicalCount k a b =>
    simp only [mapM]
    cases h _ a <;> cases h _ b <;> rfl
  | conditional a b d | implication a b d =>
    simp only [mapM]
    cases h _ a <;> cases h _ b <;> cases h _ d <;> rfl
  | beginCall x n =>
    simp only [mapM]
    cases f x <;> rfl
  | _ => rfl

theorem Action.map_mapM (a : Action H F) :
    ((a.mapM h f).map fun a => a.mapM (m := Id) g k) =
      a.mapM (fun v x => (h v x).map (g v)) (fun x => (f x).map k) := by
  cases a with
  | construct c =>
    have hc := c.map_mapM h f g k
    simp only [mapM, ← hc]
    cases c.mapM h f <;> rfl
  | add i x | finishTerm i x =>
    simp only [mapM]
    cases h _ x <;> rfl
  | _ => rfl

end Mapping

structure Outlook (M : Type) where
  kind : M → Kind
  form? : M → Option (Form M)
  lookup? : ExprId → Option M
  meaning? : Nat → Option (Meaning M)

namespace Meaning

variable {M : Type}

def handle? (v : View) : Meaning M → Option (Option M)
  | .handle w x => if w = v then some x else none
  | _ => none

def function? : Meaning M → Option (Option String)
  | .function name => some name
  | _ => none

end Meaning

section Values

variable {M : Type} (E : Outlook M)

def Outlook.recast (v w : View) (x : Option M) : Option (Option M) :=
  if v.widensTo w then some x
  else match x with
    | none => some none
    | some a => if w.accepts (E.kind a) then some (some a) else none

def Access.value : {v : View} → Access v → Option (Option M)
  | _, .null _ => some none
  | _, .made v i => do (← E.meaning? i).handle? v
  | _, .lookup i => (E.lookup? i).map some
  | _, @Access.cast v a w => do E.recast v w (← a.value)
  | _, .field a f => do (← E.form? (← (← a.value))).child? f
  | _, .operand a earlier last => do
    let xs ← (← E.form? (← (← a.value))).list?
    ((Take.position? xs.length earlier last).bind (xs[·]?)).map some

def Callee.value : Callee → Option (Option String)
  | .null => some none
  | .made i => do (← E.meaning? i).function?
  | .lookup _ => none
  | .field a => do (← E.form? (← (← a.value E))).callee?

end Values

namespace Client

variable {M : Type} {μ : Ref → M} {E : Outlook M} {C : Client}

structure Seen (C : Client) (μ : Ref → M) (E : Outlook M) : Prop where
  kind_eq : ∀ r, E.kind (μ r) = r.kind
  form_eq : ∀ r, C.store.Holds r → E.form? (μ r) = C.store.form? μ r
  meaning_eq : ∀ i, E.meaning? i = (C.product? i).map (·.meaning C.store μ)

def Shows (C : Client) (μ : Ref → M) (E : Outlook M) : Root → Prop
  | .expr i => E.lookup? i = (C.store.kind? i).map fun k => μ ⟨i, k⟩
  | .function _ => False
  | _ => True

end Client

section Chains

variable {M : Type} {μ : Ref → M} {E : Outlook M} {C : Client}

theorem Product.handle?_meaning {s : Store} (p : Product) (v : View) :
    (p.meaning s μ).handle? v = (p.handleOf? v).map (·.value μ) := by
  cases p with
  | @handle w h =>
    simp only [meaning, Meaning.handle?, handleOf?]
    split
    case isTrue e =>
      subst e
      rfl
    case isFalse => rfl
  | _ => rfl

theorem Product.function?_meaning {s : Store} (p : Product) :
    (p.meaning s μ).function? = p.function?.map s.name? := by
  cases p <;> rfl

theorem Handle.recast_value (hkind : ∀ r, E.kind (μ r) = r.kind) {v w : View} (h : Handle v) :
    (h.recast w).toOption.map (·.value μ) = E.recast v w (h.value μ) := by
  unfold recast Outlook.recast
  split
  · rfl
  · obtain ⟨_ | r⟩ := h
    · rfl
    · simp only [cast, value, Option.map_some, hkind]
      split <;> rfl

theorem Access.eval_value (hC : C.Sound) (hE : C.Seen μ E) {v : View} (a : Access v)
    (ha : C.Shows μ E a.root) : (a.eval C).map (·.value μ) = a.value E := by
  have hs : C.store.WellFormed := hC.factory.wellFormed
  induction a with
  | null v => rfl
  | made v i =>
    simp only [eval, value, hE.meaning_eq]
    cases C.product? i with
    | none => rfl
    | some p => exact (p.handle?_meaning v).symm
  | lookup i =>
    have hlookup : E.lookup? i = (C.store.kind? i).map fun k => μ ⟨i, k⟩ := ha
    simp only [eval, value, Store.expr?, hlookup, Option.map_map]
    rfl
  | @cast v a w ih =>
    simp only [eval, value, ← ih ha]
    cases a.eval C with
    | none => rfl
    | some h => exact h.recast_value hE.kind_eq
  | field a f ih =>
    simp only [eval, value, ← ih ha]
    cases hx : a.eval C with
    | none => rfl
    | some h =>
      have hknown := hC.access_known a hx
      obtain ⟨_ | r⟩ := h
      -- reads of null are refused, and there is no form to read
      · obtain ⟨e, he⟩ := Store.read_null (s := C.store) f
        change (C.store.read .null f).toOption.map (·.value μ) = none
        rw [he]
        rfl
      · have hread := hs.read_child (μ := μ) hknown f
        have hform := hE.form_eq r (Handle.Known.of_ofRef hknown).2
        simp only [Option.map_some, Handle.value, Option.bind_eq_bind, Option.bind_some, hform]
        exact hread
  | @operand l a earlier last ih =>
    simp only [eval, value, ← ih ha]
    cases hx : a.eval C with
    | none => rfl
    | some h =>
      have hknown := hC.access_known a hx
      obtain ⟨_ | r⟩ := h
      · rfl
      · obtain ⟨rs, hcursor, hlist⟩ := hs.cursor_form (μ := μ) hknown
        have hform := hE.form_eq r (Handle.Known.of_ofRef hknown).2
        change ((C.store.cursor (.ofRef r : Handle l.view)).toOption.bind fun c =>
            ((c.takeAll earlier).take last).1).map (·.value μ) =
          (E.form? (μ r)).bind fun n => n.list?.bind fun xs =>
            ((Take.position? xs.length earlier last).bind (xs[·]?)).map some
        rw [← Option.bind_assoc, hform, hlist, hcursor]
        change ((((Cursor.ofOperands (some r) rs.toArray : Cursor l.element).takeAll earlier).take
          last).1).map (·.value μ) = _
        rw [Cursor.takeAll_take, Option.bind_some, List.length_map]
        cases Take.position? rs.length earlier last with
        | none => rfl
        | some i =>
          simp only [Option.bind_some, List.getElem?_map, Option.map_map]
          rfl

theorem Callee.eval_value (hC : C.Sound) (hE : C.Seen μ E) (a : Callee)
    (ha : C.Shows μ E a.root) : (a.eval C).map C.store.name? = a.value E := by
  have hs : C.store.WellFormed := hC.factory.wellFormed
  cases a with
  | null => rfl
  | made i =>
    simp only [eval, value, hE.meaning_eq]
    cases C.product? i with
    | none => rfl
    | some p => exact p.function?_meaning.symm
  | lookup i => exact ha.elim
  | field a =>
    simp only [eval, value, ← a.eval_value hC hE ha]
    cases hx : a.eval C with
    | none => rfl
    | some h =>
      have hknown := hC.access_known a hx
      obtain ⟨_ | r⟩ := h
      · rfl
      · have hform := hE.form_eq r (Handle.Known.of_ofRef hknown).2
        have hread := hs.read_callee (μ := μ) hknown
        simp only [Option.map_some, Handle.value, Option.bind_eq_bind, Option.bind_some, hform]
        exact hread

def Action.meaning (s : Store) (μ : Ref → M) (a : Action Handle FunctionRef) :
    Action (fun _ => Option M) (Option String) :=
  a.mapM (m := Id) (fun _ h => h.value μ) s.name?

theorem Action.mapM_value (hC : C.Sound) (hE : C.Seen μ E) {a : Action Access Callee}
    (ha : ∀ r ∈ a.roots, C.Shows μ E r) :
    (a.mapM (fun _ => Access.eval C) (Callee.eval C)).map (·.meaning C.store μ) =
      a.mapM (fun _ => Access.value E) (Callee.value E) := by
  have hmap := a.map_mapM (fun _ => Access.eval C) (Callee.eval C)
    (fun v (h : Handle v) => h.value μ) C.store.name?
  refine hmap.trans ?_
  apply Action.mapM_congr
  · intro v x hx
    exact x.eval_value hC hE (ha _ hx)
  · intro x hx
    exact x.eval_value hC hE (ha _ hx)

end Chains

end ModelExpr
