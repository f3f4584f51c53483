import ModelExpr.Proofs.Store.Growth
import ModelExpr.Cursor

namespace ModelExpr

def Carries {α : Type} (x y : Except Fault α) : Prop := ∀ a, x = .ok a → y = .ok a

namespace Carries

variable {α β : Type} {x y : Except Fault α}

theorem refl (x : Except Fault α) : Carries x x := fun _ h => h

theorem bind (h : Carries x y) {f g : α → Except Fault β} (hf : ∀ a, Carries (f a) (g a)) :
    Carries (x >>= f) (y >>= g) := by
  intro b hb
  obtain ⟨a, ha, hfa⟩ := bind_eq_ok.1 hb
  exact bind_eq_ok.2 ⟨a, h a ha, hf a b hfa⟩

theorem map (h : Carries x y) (f : α → β) : Carries (x.map f) (y.map f) := by
  intro b hb
  obtain ⟨a, ha, rfl⟩ := map_eq_ok.1 hb
  exact map_eq_ok.2 ⟨a, h a ha, rfl⟩

theorem lift (h : Carries x y) {z : Except Rejection α}
    (hz : (liftM x : Except Failure α) = z.mapError .rejected) :
    (liftM y : Except Failure α) = z.mapError .rejected := by
  cases x with
  | error e => cases z <;> cases hz
  | ok a => rwa [h a rfl]

theorem entry {x y : Except Fault (Array α)} (h : Carries x y) {i : Nat} {z : Except Rejection α}
    (hz : Store.entry x i = z.mapError .rejected) : Store.entry y i = z.mapError .rejected := by
  cases x with
  | error e => cases z <;> cases hz
  | ok a => rwa [h a rfl]

end Carries

namespace Store.Extends

variable {s t : Store} {v : View}

section Shapes

variable (h : s.Extends t) (x : Handle v)

include h

theorem payload : Carries (s.payload x) (t.payload x) := by
  intro p hp
  unfold Store.payload node at hp ⊢
  split at hp
  case h_1 r hr =>
    split at hp <;> cases hp
    rw [h.node_eq ‹_›]
  case h_2 => cases hp

theorem readNumber : Carries (s.readNumber x) (t.readNumber x) :=
  (h.payload x).bind fun _ => .refl _

theorem readTruth : Carries (s.readTruth x) (t.readTruth x) :=
  (h.payload x).bind fun _ => .refl _

theorem readIndex : Carries (s.readIndex x) (t.readIndex x) :=
  (h.payload x).bind fun _ => .refl _

theorem readUnary : Carries (s.readUnary x) (t.readUnary x) :=
  (h.payload x).bind fun _ => .refl _

theorem readBinary : Carries (s.readBinary x) (t.readBinary x) :=
  (h.payload x).bind fun _ => .refl _

theorem readBranches : Carries (s.readBranches x) (t.readBranches x) :=
  (h.payload x).bind fun _ => .refl _

theorem readTerm : Carries (s.readTerm x) (t.readTerm x) :=
  (h.payload x).bind fun _ => .refl _

theorem readFunction : Carries (s.readFunction x) (t.readFunction x) :=
  (h.payload x).bind fun _ => .refl _

theorem readSlopes : Carries (s.readSlopes x) (t.readSlopes x) :=
  (h.readTerm x).bind fun _ _ => h.numbersIn

theorem readBreakpoints : Carries (s.readBreakpoints x) (t.readBreakpoints x) :=
  (h.readTerm x).bind fun _ _ => h.numbersIn

theorem readTermVariable : Carries (s.readTermVariable x) (t.readTermVariable x) :=
  (h.readTerm x).bind fun _ => .refl _

theorem readOperands : Carries (s.readOperands x) (t.readOperands x) := by
  apply (h.payload x).bind
  intro p
  cases p with
  | list r => exact fun _ => h.operandsIn
  | call f r => exact fun _ => h.operandsIn
  | _ => exact .refl _

theorem readReference : Carries (s.readReference x) (t.readReference x) :=
  (h.readOperands x).bind fun _ => .refl _

end Shapes

variable (h : s.Extends t)

include h

theorem read {x : Handle v} {c : Content} {f : Field v c} {z : Except Rejection c.Value}
    (hz : s.read x f = z.mapError .rejected) : t.read x f = z.mapError .rejected := by
  cases f with
  | number => exact (h.readNumber x).lift hz
  | truth => exact (h.readTruth x).lift hz
  | index => exact (h.readIndex x).lift hz
  | argument => exact ((h.readUnary x).map _).lift hz
  | left | right => exact ((h.readBinary x).map _).lift hz
  | condition | consequent | alternative => exact ((h.readBranches x).map _).lift hz
  | slopes => exact (h.readSlopes x).lift hz
  | breakpoints => exact (h.readBreakpoints x).lift hz
  | slopeCount => exact ((h.readSlopes x).map _).lift hz
  | breakpointCount => exact ((h.readBreakpoints x).map _).lift hz
  | slope e i => exact (h.readSlopes x).entry hz
  | breakpoint e i => exact (h.readBreakpoints x).entry hz
  | termVariable => exact (h.readTermVariable x).lift hz
  | termVariableIndex =>
    exact ((h.readTermVariable x).bind fun r => h.readIndex r).lift hz
  | function => exact (h.readFunction x).lift hz
  | reference => exact ((h.readReference x).map _).lift hz
  | operandCount => exact ((h.readOperands x).map _).lift hz
  | operand e i =>
    change (entry (s.readOperands x) i).map Handle.ofRef = _ at hz
    change (entry (t.readOperands x) i).map Handle.ofRef = _
    cases ho : s.readOperands x with
    | error e =>
      rw [ho] at hz
      cases z <;> cases hz
    | ok rs => rwa [h.readOperands x rs ho, ← ho]
  | operands => exact ((h.readOperands x).map _).lift hz

theorem cursor {l : ListView} (x : Handle l.view) : Carries (s.cursor x) (t.cursor x) :=
  (h.readOperands x).map _

theorem functionName (f : FunctionRef) : Carries (s.functionName f) (t.functionName f) := by
  intro name hname
  unfold Store.functionName at hname ⊢
  split at hname
  · cases hname
  · split at hname <;> cases hname
    rename_i hf
    rw [if_neg ‹_›, getElem?_of_prefix h.functions hf]

theorem expr? {i : ExprId} {x : Handle .expr} (hx : s.expr? i = some x) : t.expr? i = some x := by
  obtain ⟨k, hk, rfl⟩ := Option.map_eq_some_iff.1 hx
  exact Option.map_eq_some_iff.2 ⟨k, h.kind_eq hk, rfl⟩

theorem function? {i : Nat} {f : FunctionRef} (hf : s.function? i = some f) :
    t.function? i = some f := by
  unfold Store.function? at hf ⊢
  split at hf
  case isTrue hi =>
    rw [if_pos (Nat.lt_of_lt_of_le hi h.functions_le)]
    exact hf
  case isFalse => cases hf

end Store.Extends

end ModelExpr
