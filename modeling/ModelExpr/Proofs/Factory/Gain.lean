import ModelExpr.Proofs.Factory.Exact
import ModelExpr.Proofs.Draft.Within

namespace ModelExpr

structure Gain where
  kinds : List Kind := []
  nodes : List Payload := []
  operands : List Ref := []
  numbers : List Binary64 := []
  functions : List String := []
  deriving DecidableEq

namespace Gain

def append (a b : Gain) : Gain :=
  { kinds := a.kinds ++ b.kinds
    nodes := a.nodes ++ b.nodes
    operands := a.operands ++ b.operands
    numbers := a.numbers ++ b.numbers
    functions := a.functions ++ b.functions }

instance : Append Gain := ⟨append⟩

end Gain

/-- Each list of `t` is that of `s` and then that of the gain. -/
structure Store.GrowsBy (s t : Store) (a : Gain) : Prop where
  kinds : t.kinds.toList = s.kinds.toList ++ a.kinds
  nodes : t.nodes.toList = s.nodes.toList ++ a.nodes
  operands : t.operands.toList = s.operands.toList ++ a.operands
  numbers : t.numbers.toList = s.numbers.toList ++ a.numbers
  functions : t.functions.toList = s.functions.toList ++ a.functions

namespace Store.GrowsBy

variable {s t u : Store} {a b : Gain}

theorem refl (s : Store) : s.GrowsBy s {} := by
  constructor <;> exact (List.append_nil _).symm

theorem trans (h : s.GrowsBy t a) (h' : t.GrowsBy u b) : s.GrowsBy u (a ++ b) := by
  constructor
  · rw [h'.kinds, h.kinds, List.append_assoc]; rfl
  · rw [h'.nodes, h.nodes, List.append_assoc]; rfl
  · rw [h'.operands, h.operands, List.append_assoc]; rfl
  · rw [h'.numbers, h.numbers, List.append_assoc]; rfl
  · rw [h'.functions, h.functions, List.append_assoc]; rfl

theorem lay (k : Kind) (n : Plain) : s.GrowsBy (s.lay k n)
    { kinds := [k], nodes := [s.layout n], operands := n.listed, numbers := n.numbers } := by
  constructor
  · exact Array.toList_push
  · exact Array.toList_push
  · exact Array.toList_append
  · exact Array.toList_append
  · exact (List.append_nil _).symm

theorem pushFunction (name : String) : s.GrowsBy (s.pushFunction name) { functions := [name] } := by
  constructor
  · exact (List.append_nil _).symm
  · exact (List.append_nil _).symm
  · exact (List.append_nil _).symm
  · exact (List.append_nil _).symm
  · exact Array.toList_push

end Store.GrowsBy

def Construction.gain? (f : Factory) : Construction Handle FunctionRef → Option Gain
  | .addFunction name => some (if (f.known? name).isSome then {} else { functions := [name] })
  | .beginCall _ _ | .beginVararg _ _ | .beginSum _ | .beginNumberOf _ _ | .beginCount _
  | .beginIteratedLogical _ _ | .beginAllDiff _ | .beginTerm _ => some {}
  | c => c.node?.map fun n => { kinds := [n.kind], nodes := [f.store.layout n.content] }

def Call.gain? (f : Factory) : Call → Option Gain
  | .construct c => c.gain? f
  | .finish d => some
    { kinds := [d.kind], nodes := [f.store.layout d.plain], operands := d.operands.toList }
  | .finishTerm d x => x.ref?.map fun r =>
    { kinds := [.piecewiseLinear]
      nodes := [f.store.layout (d.plain r)]
      numbers := d.slopes.toList ++ d.breakpoints.toList }

def Call.Filled : Call → Prop
  | .construct _ => True
  | .finish d => d.operands.size = d.declared
  | .finishTerm d _ => d.slopes.size = d.declared + 1 ∧ d.breakpoints.size = d.declared

def Call.Within : Call → Prop
  | .construct _ => True
  | .finish d => d.Within
  | .finishTerm d _ => d.Within

theorem Construction.gain?_node {c : Construction Handle FunctionRef} {f : Factory} {n : PlainNode}
    (h : c.node? = some n) :
    c.gain? f = some { kinds := [n.kind], nodes := [f.store.layout n.content] } := by
  cases c with
  | addFunction | beginCall | beginVararg | beginSum | beginNumberOf | beginCount
  | beginIteratedLogical | beginAllDiff | beginTerm => cases h
  | constant | decisionVariable | logicalConstant =>
    cases h
    rfl
  | _ => exact Option.map_eq_some_iff.2 ⟨n, h, rfl⟩

theorem Call.gain?_node {c : Call} {f : Factory} {k : Kind} {n : Plain}
    (h : c.node? = some ⟨k, n⟩) : c.gain? f = some
      { kinds := [k], nodes := [f.store.layout n], operands := n.listed, numbers := n.numbers } := by
  cases c with
  | construct c =>
    obtain ⟨hlist, hterm⟩ := Construction.node?_flat h
    rw [Plain.listed_eq_nil hlist, Plain.numbers_eq_nil hterm]
    exact Construction.gain?_node h
  | finish d =>
    obtain ⟨hlisted, hnumbers⟩ := Factory.listed_plain d
    cases h
    rw [hlisted, hnumbers]
    rfl
  | finishTerm d x =>
    obtain ⟨r, hr, h⟩ := Option.map_eq_some_iff.1 h
    cases h
    rw [gain?, hr]
    rfl

theorem Construction.gain?_draft {c : Construction Handle FunctionRef} {f : Factory} {m : Nat}
    {q : Product} (h : c.plan m = .ok (.draft q)) : c.gain? f = some {} := by
  cases plan_opens h <;> rfl

theorem Call.Ends.grows {c : Call} {f g : Factory} {q : Product} (h : c.Ends f g (.ok q)) :
    ∃ a, c.gain? f = some a ∧ f.store.GrowsBy g.store a ∧
      (a.functions = [] → g.names? = f.names?) := by
  cases h with
  | laid v k n hn h =>
    refine ⟨_, gain?_node hn, ?_, fun _ => h.names_eq⟩
    rw [h.store_eq]
    exact .lay k n
  | known name x hc hx hg =>
    subst hc hg
    refine ⟨{}, ?_, .refl _, fun _ => rfl⟩
    rw [gain?, Construction.gain?, hx]
    rfl
  | registered name x hc h =>
    subst hc
    refine ⟨{ functions := [name] }, ?_, ?_, ?_⟩
    · rw [gain?, Construction.gain?, h.unknown]
      rfl
    · rw [h.store_eq]
      exact .pushFunction name
    · intro hnone
      cases hnone
  | drafted b q hc hq hg =>
    subst hc hg
    exact ⟨{}, Construction.gain?_draft hq, .refl _, fun _ => rfl⟩

theorem Call.filled {c : Call} {f g : Factory} {q : Product} (hc : c.Within)
    (h : c.perform.run f = (.ok q, g)) : c.Filled := by
  cases c with
  | construct c => trivial
  | finish d =>
    obtain ⟨x, f₁, hrun, -⟩ := FactoryM.run_bind_ok h
    obtain ⟨hcomplete, -⟩ := Factory.finish_eq_ok.1 hrun
    exact (Draft.requireComplete_eq_ok hc.added).1 hcomplete
  | finishTerm d x =>
    obtain ⟨y, f₁, hrun, -⟩ := FactoryM.run_bind_ok h
    obtain ⟨hcomplete, -⟩ := Factory.finishTerm_eq_ok.1 hrun
    obtain ⟨hbreakpoints, hslopes⟩ :=
      (TermDraft.requireComplete_eq_ok hc.slopes hc.breakpoints).1 hcomplete
    exact ⟨hslopes, hbreakpoints⟩

end ModelExpr
