import ModelExpr.Proofs.Client.Access
import ModelExpr.Proofs.Store.Spelling
import ModelExpr.Proofs.Store.Tables
import ModelExpr.Proofs.Traversal.Unfolding

namespace ModelExpr

theorem FunctionRef.Registered.mono {s t : Store} {f : FunctionRef} (hf : f.Registered s)
    (h : s.Extends t) : f.Registered t :=
  ⟨hf.1, Nat.lt_of_lt_of_le hf.2 h.functions_le⟩

namespace Store

def Callable (s : Store) : Prop :=
  ∀ (i : Nat) (f : FunctionId) (xs : Span), s.nodes[i]? = some (.call f xs) →
    FunctionRef.Registered s ⟨f⟩

variable {s : Store} {ns : List PlainNode}

theorem Spells.callable_iff (hs : s.Spells ns) :
    s.Callable ↔ ∀ n ∈ ns, ∀ f ∈ n.content.function?, f.Registered s := by
  constructor
  · intro hcalls n hn f hf
    obtain ⟨i, hi⟩ := List.mem_iff_getElem?.1 hn
    obtain ⟨p, -, hp, hinline⟩ := hs.node hi
    cases hcontent : n.content <;> rw [hcontent] at hf hinline <;> cases hf
    cases p <;> cases shape_inline hinline
    obtain ⟨_, -, he⟩ := inline_eq_ok_call.1 hinline
    cases he
    exact hcalls i _ _ hp
  · intro hall i f xs hi
    obtain ⟨n, hn, hinline⟩ := hs.exists_node hi
    obtain ⟨_, -, hcontent⟩ := inline_eq_ok_call.1 hinline
    apply hall n (List.mem_of_getElem? hn)
    rw [← hcontent]
    rfl

theorem Callable.name {v : View} {h : Handle v} {f : FunctionRef} (hs : s.Callable)
    (hf : s.readFunction h = .ok f) : ∃ name, s.functionName f = .ok name := by
  obtain ⟨p, hp, hf⟩ := bind_eq_ok.1 hf
  cases p with
  | call g xs =>
    cases hf
    unfold payload at hp
    split at hp
    case h_2 => cases hp
    case h_1 r hr =>
      unfold node at hp
      split at hp <;> cases hp
      exact functionName_registered (hs _ _ _ ‹_›)
  | _ => cases hf

theorem Shaped.readFunction (hs : s.Shaped) {r : Ref} (hr : s.kind? r.id = some .call) :
    ∃ f, s.read (.ofRef r : Handle .call) (.function rfl) = .ok f := by
  obtain ⟨p, hp, hcall⟩ := hs.exists_payload hr
  cases p <;> cases hcall
  case call.refl f xs =>
    refine ⟨⟨f⟩, ?_⟩
    rw [read, Store.readFunction, payload_ofRef hp]
    rfl

end Store

namespace Visitor

variable {σ : Type} {V : Visitor σ} {s : Store}

def naming (V : Visitor σ) (s : Store) : Visitor σ :=
  { V with onFunction := fun f a => do
      let _ ← s.functionName f
      V.onFunction f a }

theorem naming_openNode (hs : s.Callable) (r : Ref) (a : σ) :
    (V.naming s).openNode s r a = V.openNode s r a := by
  unfold openNode
  cases hp : s.node r.id with
  | error e => rfl
  | ok p =>
    have hstop : (V.naming s).stopAtFunction p a = V.stopAtFunction p a := by
      cases p with
      | call f xs =>
        unfold Store.node at hp
        split at hp <;> cases hp
        obtain ⟨name, hname⟩ := Store.functionName_registered (hs _ _ _ ‹_›)
        simp only [stopAtFunction, naming, hname]
        rfl
      | _ => rfl
    change ((V.naming s).stopAtFunction p a >>= _) = (V.stopAtFunction p a >>= _)
    rw [hstop]

theorem naming_enterCategory (hs : s.Callable) (r : Ref) (a : σ) :
    (V.naming s).enterCategory s r a = V.enterCategory s r a := by
  simp only [enterCategory, naming_openNode hs]
  rfl

theorem naming_enter (hs : s.Callable) (r : Ref) (a : σ) :
    (V.naming s).enter s r a = V.enter s r a := by
  simp only [enter, naming_enterCategory hs]
  rfl

theorem naming_nested (hs : s.Callable) (d : Nat) (r : Ref) (a : σ) :
    (V.naming s).nested s d r a = V.nested s d r a := by
  induction d generalizing r a with
  | zero => rfl
  | succ d ih => simp only [nested, naming_enter hs, ih]

theorem naming_run (hs : s.Callable) (work : List (Ref × Nat)) (a : σ) :
    (V.naming s).run s work a = V.run s work a := by
  induction work generalizing a with
  | nil => rw [run_nil, run_nil]
  | cons p work ih =>
    obtain ⟨r, d⟩ := p
    rw [run_cons, run_cons, naming_nested hs]
    apply congrArg
    funext b
    exact ih b

theorem naming_walkExpr (hs : s.Callable) (h : Handle .expr) (a : σ) :
    (V.naming s).walkExpr s h a = V.walkExpr s h a := by
  simp only [walkExpr, runOperands, naming_enterCategory hs, naming_run hs]

theorem naming_walkOperands (hs : s.Callable) {v : View} (h : Handle v) (a : σ) :
    (V.naming s).walkOperands s h a = V.walkOperands s h a := by
  simp only [walkOperands, runOperands, naming_openNode hs, naming_run hs]

theorem visit_congr {x : Except Fault σ} {ref? : Option Ref} {p : Kind → Bool}
    {walk walk' : σ → Except Fault σ} (h : ∀ b, walk b = walk' b) :
    (do
      let b ← x
      match ref? with
      | none => return b
      | some r => if p r.kind then walk b else return b) =
    (do
      let b ← x
      match ref? with
      | none => return b
      | some r => if p r.kind then walk' b else return b) := by
  rw [funext h]

theorem naming_start (hs : s.Callable) (e : Start) (h : Handle e.view) (a : σ) :
    e.run (V.naming s) s h a = e.run V s h a := by
  cases e with
  | walkExpr => exact naming_walkExpr hs h a
  | walkNumeric | walkLogical => exact naming_walkOperands hs h a
  | visitExpr => exact visit_congr (naming_walkExpr hs h)
  | visitNumeric | visitLogical => exact visit_congr (naming_walkOperands hs h)

end Visitor

end ModelExpr
