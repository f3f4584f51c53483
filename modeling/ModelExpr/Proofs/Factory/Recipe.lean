import Mathlib.Data.List.Induction
import ModelExpr.Proofs.Client.Sound
import ModelExpr.Proofs.Factory.Exact

namespace ModelExpr

inductive Recipe (H : View → Type) (F : Type) where
  | make (construction : Construction H F)
  | list {l : ListView} (start : Construction H F) (operands : List (H l.element))
  | term (slopes breakpoints : List Binary64) (argument : H .decisionVariable)

theorem foldlM_full {ε δ α : Type} (add : δ → α → Except ε δ) (full : List α → δ) (xs : List α)
    (h : ∀ ys x, ys ++ [x] <+: xs → add (full ys) x = .ok (full (ys ++ [x]))) :
    xs.foldlM add (full []) = .ok (full xs) := by
  induction xs using List.reverseRecOn with
  | nil => rfl
  | append_singleton xs x ih =>
    have hfirst := ih fun ys y hy => h ys y (hy.trans (List.prefix_append xs [x]))
    rw [List.foldlM_append, hfirst]
    change ([x].foldlM add (full xs)) = _
    rw [List.foldlM_cons, h xs x List.prefix_rfl]
    rfl

namespace Draft

variable {l : ListView}

def adding (d : Draft l) (x : Handle l.element) : Except Rejection (Draft l) :=
  let (y, d') := (add x).run d
  y.map fun _ => d'

def holding (d : Draft l) (rs : List Ref) : Draft l :=
  { d with operands := d.operands ++ rs.toArray }

theorem foldlM_adding {d : Draft l} {rs : List Ref} (h : d.operands.size + rs.length ≤ d.declared) :
    (rs.map .ofRef).foldlM adding d = .ok (d.holding rs) := by
  rw [List.foldlM_map]
  have hstart : d.holding [] = d := by simp [holding]
  have hfull := foldlM_full (fun d r => adding d (.ofRef r)) d.holding rs
  rw [hstart] at hfull
  apply hfull
  intro ys r hr
  have hlt := hr.length_le
  simp only [List.length_append, List.length_singleton] at hlt
  have hroom : ¬(d.holding ys).operands.size = (d.holding ys).declared := by
    simp only [holding, Array.size_append, List.size_toArray]
    omega
  rw [adding, add_run]
  simp only [Handle.require, Handle.ofRef, if_neg hroom]
  simp [holding, Except.map]

end Draft

namespace TermDraft

def addingSlope (d : TermDraft) (x : Binary64) : Except Rejection TermDraft :=
  let (y, d') := (addSlope x).run d
  y.map fun _ => d'

def addingBreakpoint (d : TermDraft) (x : Binary64) : Except Rejection TermDraft :=
  let (y, d') := (addBreakpoint x).run d
  y.map fun _ => d'

theorem foldlM_addingSlope {n : Nat} {xs : List Binary64} (h : xs.length ≤ n + 1) :
    xs.foldlM addingSlope { declared := n } = .ok { declared := n, slopes := xs.toArray } := by
  apply foldlM_full addingSlope fun xs => { declared := n, slopes := xs.toArray }
  intro ys x hx
  have hlt := hx.length_le
  simp only [List.length_append, List.length_singleton] at hlt
  have hroom : ¬ys.length = n + 1 := by omega
  simp [addingSlope, addSlope_run, declaredSlopes, hroom, Except.map]

theorem foldlM_addingBreakpoint {n : Nat} (xs : Array Binary64) {ys : List Binary64}
    (h : ys.length ≤ n) : ys.foldlM addingBreakpoint { declared := n, slopes := xs } =
      .ok { declared := n, slopes := xs, breakpoints := ys.toArray } := by
  apply foldlM_full addingBreakpoint fun ys =>
    { declared := n, slopes := xs, breakpoints := ys.toArray }
  intro ys y hy
  have hlt := hy.length_le
  simp only [List.length_append, List.length_singleton] at hlt
  have hroom : ¬ys.length = n := by omega
  simp [addingBreakpoint, addBreakpoint_run, hroom, Except.map]

end TermDraft

theorem Product.draftOf?_draft {l : ListView} {d : Draft l} :
    (Product.draft d).draftOf? l = some d :=
  dif_pos rfl

namespace Recipe

def mapM {m : Type → Type} [Monad m] {H K : View → Type} {F G : Type}
    (h : (v : View) → H v → m (K v)) (f : F → m G) : Recipe H F → m (Recipe K G)
  | .make c => return .make (← c.mapM h f)
  | .list start xs => return .list (← start.mapM h f) (← xs.mapM (h _))
  | .term xs ys x => return .term xs ys (← h _ x)

def answered : Product → FactoryM (Handle .expr)
  | .handle h => return h.upcast
  | _ => throw (Failure.rejected (.invalidArgument .argument))

def perform : Recipe Handle FunctionRef → FactoryM (Handle .expr)
  | .make c => do answered (← c.perform)
  | @Recipe.list _ _ l start xs => do
    match (← start.perform).draftOf? l with
    | some d => do
      let d ← liftM (xs.foldlM Draft.adding d)
      return (← Factory.finish d).upcast
    | none => throw (Failure.rejected (.invalidArgument .argument))
  | .term xs ys x => do
    match ← (Construction.beginTerm ys.length : Construction Handle FunctionRef).perform with
    | .termDraft d => do
      let d ← liftM (xs.foldlM TermDraft.addingSlope d)
      let d ← liftM (ys.foldlM TermDraft.addingBreakpoint d)
      return (← Factory.finishTerm d x).upcast
    | _ => throw (Failure.rejected (.invalidArgument .argument))

inductive Makes (functions : Nat) (k : Kind) : Recipe Handle FunctionRef → Plain → Prop where
  | make (c : Construction Handle FunctionRef) (n : Plain) (v : View) (p : Payload)
    (hn : c.node? = some ⟨k, n⟩) (hp : c.plan functions = .ok (.node v k p)) :
    Makes functions k (.make c) n
  | list {l : ListView} (start : Construction Handle FunctionRef) (d : Draft l) (rs : List Ref)
    (hd : start.plan functions = .ok (.draft (.draft d))) (hk : d.kind = k)
    (hdeclared : d.declared = d.operands.size + rs.length) :
    Makes functions k (.list start (rs.map .ofRef : List (Handle l.element)))
      (d.holding rs).plain
  | term (xs ys : List Binary64) (r : Ref) (hk : k = .piecewiseLinear) (hys : 1 ≤ ys.length)
    (hcount : ys.length < UInt32.size - 1) (hxs : xs.length = ys.length + 1) :
    Makes functions k (.term xs ys (.ofRef r)) (.piecewiseLinear xs ys r)

theorem run_make {c : Construction Handle FunctionRef} {f : Factory} {v : View} {k : Kind}
    {p : Payload} (hp : c.plan f.store.functions.size = .ok (.node v k p))
    (hroom : f.store.nodes.size < UInt32.size) :
    ∃ g, c.perform.run f = (.ok (.handle (.ofRef (f.store.next k) : Handle v)), g) ∧
      g.store = f.store.pushNode k p ∧ g.names? = f.names? := by
  rw [Construction.perform_run, hp]
  exact ⟨_, Plan.fulfil_node.2 ⟨hroom, rfl, rfl⟩, rfl, rfl⟩

theorem run_begin {c : Construction Handle FunctionRef} {f : Factory} {q : Product}
    (hq : c.plan f.store.functions.size = .ok (.draft q)) : c.perform.run f = (.ok q, f) := by
  rw [Construction.perform_run, hq]
  rfl

theorem Makes.perform {f : Factory} {k : Kind} {R : Recipe Handle FunctionRef} {n : Plain}
    (h : R.Makes f.store.functions.size k n) (hroom : f.store.Room n) :
    ∃ g, R.perform.run f = (.ok (.ofRef (f.store.next k)), g) ∧ f.Lays g k n := by
  cases h with
  | make c n v p hn hp =>
    obtain ⟨g, hrun, hstore, hnames⟩ := run_make hp hroom.node
    refine ⟨g, FactoryM.run_bind_eq_ok.2 ⟨_, _, hrun, rfl⟩, hroom, ?_, hnames⟩
    exact hstore.trans (Construction.lay_node? hn hp)
  | @list l start d rs hd hk hdeclared =>
    subst hk
    have hfilled := Draft.foldlM_adding (Nat.le_of_eq hdeclared.symm)
    have hcomplete : (d.holding rs).requireComplete = .ok () := by
      apply if_neg
      simp only [Draft.holding, Array.size_append, List.size_toArray]
      omega
    let g := (f.laid d.kind (d.holding rs).plain).noting
      (.finishedList d.kind (f.store.next d.kind).id (d.holding rs).added)
    have hfinish : (Factory.finish (d.holding rs)).run f = (.ok (.ofRef (f.store.next d.kind)), g) :=
      Factory.finish_eq_ok.2 ⟨hcomplete, hroom, rfl, rfl⟩
    refine ⟨g, FactoryM.run_bind_eq_ok.2 ⟨_, _, run_begin hd, ?_⟩, hroom, rfl, rfl⟩
    rw [Product.draftOf?_draft]
    refine FactoryM.run_lift_bind_eq_ok.2 ⟨_, hfilled, ?_⟩
    exact FactoryM.run_bind_eq_ok.2 ⟨_, _, hfinish, rfl⟩
  | term xs ys r hk hys hcount hxs =>
    subst hk
    let d : TermDraft := ⟨ys.length, xs.toArray, ys.toArray⟩
    have hbegun : (Construction.beginTerm ys.length : Construction Handle FunctionRef).plan
        f.store.functions.size = .ok (.draft (.termDraft { declared := ys.length })) := by
      have hok : requireCount .breakpoint ys.length 1 = .ok () :=
        requireCount_eq_ok.2 ⟨hys, hcount⟩
      simp only [Construction.plan, TermDraft.ofBreakpoints, hok]
      rfl
    have hslopes := TermDraft.foldlM_addingSlope (Nat.le_of_eq hxs)
    have hbreakpoints := TermDraft.foldlM_addingBreakpoint xs.toArray (Nat.le_refl ys.length)
    have hcomplete : d.requireComplete = .ok () := by
      simp [d, TermDraft.requireComplete, TermDraft.declaredSlopes, hxs]
    let g := (f.laid .piecewiseLinear (d.plain r)).noting
      (.finishedTerm (f.store.next .piecewiseLinear).id d.declared)
    have hfinish : (Factory.finishTerm d (.ofRef r)).run f =
        (.ok (.ofRef (f.store.next .piecewiseLinear)), g) :=
      Factory.finishTerm_eq_ok.2 ⟨hcomplete, r, rfl, hroom, rfl, rfl⟩
    refine ⟨g, FactoryM.run_bind_eq_ok.2 ⟨_, _, run_begin hbegun, ?_⟩, hroom, rfl, rfl⟩
    refine FactoryM.run_lift_bind_eq_ok.2 ⟨_, hslopes, ?_⟩
    refine FactoryM.run_lift_bind_eq_ok.2 ⟨_, hbreakpoints, ?_⟩
    exact FactoryM.run_bind_eq_ok.2 ⟨_, _, hfinish, rfl⟩

end Recipe

end ModelExpr
