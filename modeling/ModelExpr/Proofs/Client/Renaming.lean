import ModelExpr.Proofs.Client.Result

namespace ModelExpr

section Names

variable (ρ : Nat → Nat)

def Access.rename : {v : View} → Access v → Access v
  | _, .null v => .null v
  | _, .made v i => .made v (ρ i)
  | _, .lookup i => .lookup i
  | _, .cast a w => .cast a.rename w
  | _, .field a f => .field a.rename f
  | _, .operand a earlier last => .operand a.rename earlier last

def Callee.rename : Callee → Callee
  | .null => .null
  | .made i => .made (ρ i)
  | .lookup i => .lookup i
  | .field a => .field (a.rename ρ)

def Action.renumber {H : View → Type} {F : Type} : Action H F → Action H F
  | .construct c => .construct c
  | .add i x => .add (ρ i) x
  | .addSlope i x => .addSlope (ρ i) x
  | .addBreakpoint i x => .addBreakpoint (ρ i) x
  | .finish i => .finish (ρ i)
  | .finishTerm i x => .finishTerm (ρ i) x

def Construction.rename (c : Construction Access Callee) : Construction Access Callee :=
  c.mapM (m := Id) (fun _ x => x.rename ρ) (·.rename ρ)

def Action.rename (a : Action Access Callee) : Action Access Callee :=
  renumber ρ (a.mapM (m := Id) (fun _ x => x.rename ρ) (·.rename ρ))

theorem Action.draft?_rename (a : Action Access Callee) : (a.rename ρ).draft? = a.draft?.map ρ := by
  cases a <;> rfl

def Root.own : Root → Bool
  | .null | .made _ => true
  | .expr _ | .function _ => false

theorem Access.own_rename {v : View} (a : Access v) : (a.rename ρ).root.own = a.root.own := by
  induction a with
  | null | made | lookup => rfl
  | cast a w ih => exact ih
  | field a f ih => exact ih
  | operand a earlier last ih => exact ih

theorem Callee.own_rename (a : Callee) : (a.rename ρ).root.own = a.root.own := by
  cases a with
  | null | made | lookup => rfl
  | field a => exact a.own_rename ρ

theorem Construction.own_rename (c : Construction Access Callee) :
    (c.rename ρ).roots.map Root.own = c.roots.map Root.own := by
  cases c with
  | unary k a | negation a | beginNumberOf n a =>
    change [(a.rename ρ).root.own] = [a.root.own]
    rw [a.own_rename]
  | binary k a b | relational k a b | binaryLogical k a b | logicalCount k a b =>
    change [(a.rename ρ).root.own, (b.rename ρ).root.own] = [a.root.own, b.root.own]
    rw [a.own_rename, b.own_rename]
  | conditional a b d | implication a b d =>
    change [(a.rename ρ).root.own, (b.rename ρ).root.own, (d.rename ρ).root.own] =
      [a.root.own, b.root.own, d.root.own]
    rw [a.own_rename, b.own_rename, d.own_rename]
  | beginCall f n =>
    change [(f.rename ρ).root.own] = [f.root.own]
    rw [f.own_rename]
  | _ => rfl

theorem Action.own_rename (a : Action Access Callee) :
    (a.rename ρ).roots.map Root.own = a.roots.map Root.own := by
  cases a with
  | construct c => exact c.own_rename ρ
  | add i x | finishTerm i x => exact congrArg (fun x => [x]) (x.own_rename ρ)
  | _ => rfl

end Names

section Results

variable {M : Type} (E : Outlook M) (ρ : Nat → Nat)

def Outlook.rename : Outlook M := { E with meaning? := fun i => E.meaning? (ρ i) }

theorem Access.value_rename {v : View} (a : Access v) :
    (a.rename ρ).value E = a.value (E.rename ρ) := by
  induction a with
  | null | made | lookup => rfl
  | cast a w ih =>
    simp only [rename, value, ih]
    rfl
  | field a f ih =>
    simp only [rename, value, ih]
    rfl
  | operand a earlier last ih =>
    simp only [rename, value, ih]
    rfl

theorem Callee.value_rename (a : Callee) : (a.rename ρ).value E = a.value (E.rename ρ) := by
  cases a with
  | null | made | lookup => rfl
  | field a =>
    simp only [rename, value, a.value_rename]
    rfl

theorem Construction.mapM_rename (c : Construction Access Callee) :
    (c.rename ρ).mapM (fun _ => Access.value E) (Callee.value E) =
      c.mapM (fun _ => Access.value (E.rename ρ)) (Callee.value (E.rename ρ)) := by
  cases c with
  | unary k a | negation a | beginNumberOf n a =>
    simp only [mapM, ← a.value_rename]
    rfl
  | binary k a b | relational k a b | binaryLogical k a b | logicalCount k a b =>
    simp only [mapM, ← a.value_rename, ← b.value_rename]
    rfl
  | conditional a b d | implication a b d =>
    simp only [mapM, ← a.value_rename, ← b.value_rename, ← d.value_rename]
    rfl
  | beginCall f n =>
    simp only [mapM, ← f.value_rename]
    rfl
  | _ => rfl

theorem Action.mapM_rename (a : Action Access Callee) :
    (a.rename ρ).mapM (fun _ => Access.value E) (Callee.value E) =
      (a.mapM (fun _ => Access.value (E.rename ρ)) (Callee.value (E.rename ρ))).map
        (·.renumber ρ) := by
  cases a with
  | construct c =>
    simp only [mapM, ← c.mapM_rename]
    change ((c.rename ρ).mapM (fun _ => Access.value E) (Callee.value E)).bind _ = _
    cases (c.rename ρ).mapM (fun _ => Access.value E) (Callee.value E) <;> rfl
  | add i x | finishTerm i x =>
    simp only [mapM, ← x.value_rename]
    change ((x.rename ρ).value E).bind _ = _
    cases (x.rename ρ).value E <;> rfl
  | _ => rfl

theorem Action.result_renumber (a : Action (fun _ => Option M) (Option String))
    (draft? : Option (Meaning M)) : (a.renumber ρ).result draft? = a.result draft? := by
  cases a with
  | construct c => rfl
  | _ => rcases draft? with _ | (_ | _ | _ | _) <;> rfl

theorem Outlook.result_rename (a : Action Access Callee) :
    E.result (a.rename ρ) = (E.rename ρ).result a := by
  have hdraft : (a.rename ρ).draft?.bind E.meaning? = a.draft?.bind (E.rename ρ).meaning? := by
    rw [a.draft?_rename, Option.bind_map]
    rfl
  rw [result, result, a.mapM_rename, hdraft]
  cases a.mapM (fun _ => Access.value (E.rename ρ)) (Callee.value (E.rename ρ)) with
  | none => rfl
  | some b => exact b.result_renumber ρ _

end Results

end ModelExpr
