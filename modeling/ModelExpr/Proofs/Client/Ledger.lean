import ModelExpr.Proofs.Client.Sound
/-!
Ledgers: what a client was told, read from its history alone. A ledger lists a plain node for every
handle that a call answered, made of what the client gave to that call or to the draft it finished.
The store of the client holds exactly these nodes, in this order, and reads back each of them.
-/

namespace ModelExpr

inductive Sketch where
  | list (kind : Kind) (operands : List Ref)
  | call (function : FunctionId) (operands : List Ref)
  | term (slopes breakpoints : List Binary64)

namespace Sketch

def addOperand (r? : Option Ref) : Sketch → Sketch
  | .list k rs => .list k (rs ++ r?.toList)
  | .call f rs => .call f (rs ++ r?.toList)
  | .term xs ys => .term xs ys

def addSlope (x : Binary64) : Sketch → Sketch
  | .term xs ys => .term (xs ++ [x]) ys
  | k => k

def addBreakpoint (x : Binary64) : Sketch → Sketch
  | .term xs ys => .term xs (ys ++ [x])
  | k => k

def list? : Sketch → Option PlainNode
  | .list k rs => some ⟨k, .list rs⟩
  | .call f rs => some ⟨.call, .call f rs⟩
  | .term _ _ => none

def term? (argument : Ref) : Sketch → Option PlainNode
  | .term xs ys => some ⟨.piecewiseLinear, .piecewiseLinear xs ys argument⟩
  | _ => none

end Sketch

def Construction.sketch? : Construction Handle FunctionRef → Option Sketch
  | .beginCall f _ => some (.call f.id [])
  | .beginVararg k _ => some (.list k [])
  | .beginSum _ => some (.list .sum [])
  | .beginNumberOf _ x => some (.list .numberOf x.ref?.toList)
  | .beginCount _ => some (.list .count [])
  | .beginIteratedLogical k _ => some (.list k [])
  | .beginAllDiff _ => some (.list .allDiff [])
  | .beginTerm _ => some (.term [] [])
  | _ => none

structure Ledger where
  entries : List (AnyHandle × PlainNode) := []
  sketches : List (Option Sketch) := []

namespace Ledger

def sketch? (L : Ledger) (i : Nat) : Option Sketch := L.sketches[i]?.join

def enter (L : Ledger) (n? : Option PlainNode) (k? : Option Sketch) :
    Except Failure (Option Product) → Ledger
  | .ok (some p) =>
    { entries := L.entries ++ (do return (← p.handle?, ← n?)).toList
      sketches := L.sketches ++ [k?] }
  | _ => L

def change (L : Ledger) (i : Nat) (g : Sketch → Sketch) : Except Failure (Option Product) → Ledger
  | .ok _ => { L with sketches := L.sketches.modify i (·.map g) }
  | .error _ => L

def release (L : Ledger) (i : Nat) : Ledger := { L with sketches := L.sketches.set i none }

def record (L : Ledger) (d : Deed) : Ledger :=
  match d.action with
  | .construct c => L.enter c.node? c.sketch? d.answer
  | .add i x => L.change i (.addOperand x.ref?) d.answer
  | .addSlope i x => L.change i (.addSlope x) d.answer
  | .addBreakpoint i x => L.change i (.addBreakpoint x) d.answer
  | .finish i => (L.release i).enter ((L.sketch? i).bind (·.list?)) none d.answer
  | .finishTerm i x =>
    (L.release i).enter (do (← L.sketch? i).term? (← x.ref?)) none d.answer

def variableIndex? (L : Ledger) (r : Ref) : Option UInt32 :=
  match L.entries[r.id.index]? with
  | some (_, ⟨_, .decisionVariable i⟩) => some i
  | _ => none

end Ledger

def Client.ledger (C : Client) : Ledger := C.history.foldl Ledger.record {}

/-! ### Drafts and their sketches -/

def Product.sketch? : Product → Option Sketch
  | .draft d => some
    (if d.kind = .call then .call d.function d.operands.toList else .list d.kind d.operands.toList)
  | .termDraft d => some (.term d.slopes.toList d.breakpoints.toList)
  | _ => none

theorem Construction.sketch?_draft {c : Construction Handle FunctionRef} {m : Nat} {q : Product}
    (h : c.plan m = .ok (.draft q)) : q.sketch? = c.sketch? ∧ q.handle? = none := by
  cases plan_opens h with
  | vararg k n hk hn | iteratedLogical k n hk hn =>
    have hcall : k ≠ .call := by
      intro he
      subst he
      cases hk
    refine ⟨?_, rfl⟩
    simp only [Product.sketch?, if_neg hcall]
    rfl
  | _ => exact ⟨rfl, rfl⟩

theorem Construction.sketch?_function {c : Construction Handle FunctionRef} {m : Nat} {name : String}
    (h : c.plan m = .ok (.function name)) : c.sketch? = none := by
  cases c <;> first | rfl | simp [plan, bind_eq_ok, pure, Except.pure] at h

theorem Construction.sketch?_node {c : Construction Handle FunctionRef} {n : PlainNode}
    (h : c.node? = some n) : c.sketch? = none := by
  cases c <;> first | rfl | cases h

theorem Draft.list?_sketch {l : ListView} (d : Draft l) :
    (Product.draft d).sketch?.bind (·.list?) = some ⟨d.kind, d.plain⟩ := by
  simp only [Product.sketch?, Draft.plain]
  split
  case isTrue hk => simp [Sketch.list?, hk]
  case isFalse => rfl

/-! ### The balance of a ledger and a store -/

namespace Ledger

/-- The store holds the nodes of the entries, every handle is to its node, and the sketches are those
of the drafts at hand. -/
structure Balances (L : Ledger) (s : Store) (products : List (Option Product)) : Prop where
  nodes : s.plainNodes = L.entries.map fun e => .ok e.2
  handles : ∀ i e, L.entries[i]? = some e → i < UInt32.size ∧
    e.1.2.ref? = some ⟨⟨i.toUInt32⟩, e.2.kind⟩ ∧ e.1.1.accepts e.2.kind = true
  sketches : L.sketches = products.map (·.bind Product.sketch?)

namespace Balances

variable {L : Ledger} {s t : Store} {ps : List (Option Product)} {i : Nat} {p q : Product}

theorem length_entries (h : L.Balances s ps) (hs : s.WellFormed) :
    L.entries.length = s.nodes.size := by
  have hlength := congrArg List.length h.nodes
  simp only [Store.plainNodes, List.length_map, List.length_zip, Array.length_toList,
    hs.size_eq, Nat.min_self] at hlength
  exact hlength.symm

theorem sketch?_eq (h : L.Balances s ps) (hp : ps[i]?.join = some p) :
    L.sketch? i = p.sketch? := by
  rw [Option.join_eq_some_iff] at hp
  rw [sketch?, h.sketches, List.getElem?_map, hp]
  rfl

theorem pads (h : L.Balances s ps) (hs : s.WellFormed) (ht : s.Pads t) : L.Balances t ps :=
  ⟨(ht.plainNodes hs).trans h.nodes, h.handles, h.sketches⟩

theorem release (h : L.Balances s ps) (i : Nat) : (L.release i).Balances s (ps.set i none) :=
  ⟨h.nodes, h.handles, by simp [Ledger.release, h.sketches, List.map_set]⟩

theorem enter_other (h : L.Balances s ps) {n? : Option PlainNode} (hq : q.handle? = none) :
    (L.enter n? q.sketch? (.ok (some q))).Balances s (ps ++ [some q]) := by
  constructor
  · simpa [enter, hq] using h.nodes
  · intro i e he
    apply h.handles i e
    simpa [enter, hq] using he
  · simp [enter, h.sketches]

theorem enter_node (h : L.Balances s ps) (hs : s.WellFormed) {v : View} {k : Kind} {n : Plain}
    (hadds : s.Adds t k n) (hroom : s.nodes.size < UInt32.size) (hv : v.accepts k = true) :
    (L.enter (some ⟨k, n⟩) none (.ok (some (.handle (.ofRef (s.next k) : Handle v))))).Balances t
      (ps ++ [some (.handle (.ofRef (s.next k) : Handle v))]) := by
  have hlength := h.length_entries hs
  constructor
  · simp [enter, Product.handle?, hadds.plainNodes hs, h.nodes]
  · intro i e he
    change (L.entries ++ [(⟨v, .ofRef (s.next k)⟩, ⟨k, n⟩)])[i]? = some e at he
    rw [List.getElem?_append] at he
    split at he
    case isTrue => exact h.handles i e he
    case isFalse hi =>
      have hlast : i = L.entries.length := by
        have hlt := (List.getElem?_eq_some_iff.1 he).1
        simp only [List.length_singleton] at hlt
        omega
      rw [hlast, Nat.sub_self] at he
      cases he
      rw [hlast, hlength]
      exact ⟨hroom, rfl, hv⟩
  · simp [enter, h.sketches, Product.sketch?]

theorem change (h : L.Balances s ps) (hp : ps[i]?.join = some p) {g : Sketch → Sketch}
    (hq : q.sketch? = p.sketch?.map g) {m : Option Product} :
    (L.change i g (.ok m)).Balances s (ps.set i (some q)) := by
  refine ⟨h.nodes, h.handles, ?_⟩
  apply List.ext_getElem?
  intro j
  rw [Option.join_eq_some_iff] at hp
  simp only [Ledger.change, h.sketches, List.getElem?_modify, List.getElem?_map, List.getElem?_set]
  by_cases hj : i = j
  · subst hj
    obtain ⟨hi, hp⟩ := List.getElem?_eq_some_iff.1 hp
    simp [hi, hp, hq]
  · simp [hj]

theorem keep (h : L.Balances s ps) (hp : ps[i]?.join = some p) :
    L.Balances s (ps.set i (some p)) := by
  rw [Option.join_eq_some_iff] at hp
  obtain ⟨hi, hp⟩ := List.getElem?_eq_some_iff.1 hp
  rw [← hp, List.set_getElem_self]
  exact h

end Balances

end Ledger

namespace Client

variable {C : Client} {a : Action Handle FunctionRef} {i : Nat}

def Balances (C : Client) : Prop := C.ledger.Balances C.store C.products

theorem ledger_keep {y : Except Failure Product} {f : Factory} :
    (C.keep a (y, f)).ledger = C.ledger.record ⟨a, y.map some⟩ := by
  simp [ledger, keep, List.foldl_append]

theorem ledger_update {y : Except Rejection Unit} {q : Product} :
    (C.update a i (y, q)).ledger =
      C.ledger.record ⟨a, (y.map fun _ => none).mapError .rejected⟩ := by
  simp [ledger, update, List.foldl_append]

namespace Balances

theorem construct (h : C.Balances) (hC : C.Sound) (c : Construction Handle FunctionRef) :
    (C.perform (.construct c)).Balances := by
  simp only [Client.perform]
  cases hrun : (Call.construct c).perform.run C.factory with
  | mk y f =>
    rw [Balances, ledger_keep]
    cases y with
    | error e =>
      obtain rfl := Construction.perform_error hrun
      have hstay : C.ledger.Balances C.store (C.products ++ []) := by rwa [List.append_nil]
      exact hstay
    | ok q =>
      obtain ⟨p, hp, hmakes⟩ := Construction.perform_ok hrun
      cases p with
      | node v k p =>
        obtain ⟨rfl, hadds⟩ := hmakes
        obtain ⟨hv, n, hn, hs⟩ := Construction.plan_node hp
        have hall := hadds n (hs C.store).1
        simp only [Ledger.record, hn, Construction.sketch?_node hn]
        exact h.enter_node hC.factory.wellFormed hall.store hall.room hv
      | function name =>
        obtain ⟨x, rfl, hx⟩ := hmakes
        have hpads : C.store.Pads f.store := by
          obtain ⟨-, rfl⟩ | ⟨-, -, hstore, -⟩ := Factory.addFunction_ok hx
          · rfl
          · exact hstore ▸ Store.pads_pushFunction name
        simp only [Ledger.record, Construction.sketch?_function hp]
        exact (Ledger.Balances.pads h hC.factory.wellFormed hpads).enter_other (q := .function x) rfl
      | draft d =>
        obtain ⟨rfl, rfl⟩ := hmakes
        obtain ⟨hsketch, hhandle⟩ := Construction.sketch?_draft hp
        simp only [Ledger.record, ← hsketch]
        exact h.enter_other hhandle

section Update

variable {g : Sketch → Sketch} {p q : Product} (h : C.Balances)
  (ha : ∀ L answer, Ledger.record L ⟨a, answer⟩ = L.change i g answer)
  (hp : C.product? i = some p)

include h ha hp

theorem accepted (hq : q.sketch? = p.sketch?.map g) : (C.update a i (.ok (), q)).Balances := by
  rw [Balances, ledger_update, ha]
  exact Ledger.Balances.change h hp hq

theorem refused (e : Rejection) : (C.update a i (.error e, p)).Balances := by
  rw [Balances, ledger_update, ha]
  exact Ledger.Balances.keep h hp

end Update

theorem add (h : C.Balances) {l : ListView} (x : Handle l.element) :
    (C.perform (.add i x)).Balances := by
  simp only [Client.perform]
  split
  case h_1 d hd =>
    obtain ⟨p, hp, hd⟩ := Option.bind_eq_some_iff.1 hd
    obtain rfl := Product.draftOf?_eq_some hd
    cases hrun : (Draft.add x).run d with
    | mk y d' =>
      cases y with
      | error e =>
        obtain rfl := Draft.add_error hrun
        exact h.refused (fun _ _ => rfl) hp e
      | ok _ =>
        obtain ⟨r, rfl, rfl⟩ := Draft.add_ok hrun
        apply h.accepted (fun _ _ => rfl) hp
        simp only [Product.sketch?, Array.toList_push, Option.map_some]
        split <;> rfl
  case h_2 => exact h

theorem addSlope (h : C.Balances) (x : Binary64) : (C.perform (.addSlope i x)).Balances := by
  simp only [Client.perform]
  split
  case h_1 d hd =>
    rw [TermDraft.addSlope_run]
    split
    · exact h.refused (fun _ _ => rfl) hd _
    · apply h.accepted (fun _ _ => rfl) hd
      simp [Product.sketch?, Sketch.addSlope]
  case h_2 => exact h

theorem addBreakpoint (h : C.Balances) (x : Binary64) :
    (C.perform (.addBreakpoint i x)).Balances := by
  simp only [Client.perform]
  split
  case h_1 d hd =>
    rw [TermDraft.addBreakpoint_run]
    split
    · exact h.refused (fun _ _ => rfl) hd _
    · apply h.accepted (fun _ _ => rfl) hd
      simp [Product.sketch?, Sketch.addBreakpoint]
  case h_2 => exact h

theorem ends (h : C.Balances) (hC : C.Sound) {v : View} {n? : Option PlainNode}
    {y : Except Failure (Handle v)} {f : Factory}
    (ha : ∀ answer, C.ledger.record ⟨a, answer⟩ = (C.ledger.release i).enter n? none answer)
    (hok : ∀ x, y = .ok x → ∃ k n, n? = some ⟨k, n⟩ ∧ v.accepts k = true ∧
      x = .ofRef (C.store.next k) ∧ C.factory.Adds f k n)
    (herror : ∀ e, y = .error e → C.factory.Pads f) :
    ((C.release i).keep a (y.map .handle, f)).Balances := by
  have hreleased := Ledger.Balances.release h i
  rw [Balances, ledger_keep]
  change (C.ledger.record _).Balances _ _
  rw [ha]
  cases y with
  | error e =>
    have hpadded := hreleased.pads hC.factory.wellFormed (herror e rfl).store
    have hstay : (C.ledger.release i).Balances f.store ((C.release i).products ++ []) := by
      rwa [List.append_nil]
    exact hstay
  | ok x =>
    obtain ⟨k, n, rfl, hv, rfl, hadds⟩ := hok x rfl
    exact hreleased.enter_node hC.factory.wellFormed hadds.store hadds.room hv

theorem finish (h : C.Balances) (hC : C.Sound) : (C.perform (.finish i)).Balances := by
  simp only [Client.perform]
  split
  case h_1 l d hd =>
    have hsketch : (C.ledger.sketch? i).bind (·.list?) = some ⟨d.kind, d.plain⟩ := by
      rw [Ledger.Balances.sketch?_eq h hd, d.list?_sketch]
    have hsound : d.Sound C.store := hC.product i _ hd
    rw [Call.perform, FactoryM.run_map]
    apply h.ends hC
    · intro answer
      rfl
    · intro x hx
      obtain ⟨-, hnext, hadds⟩ := Factory.finish_ok (Prod.ext hx rfl)
      exact ⟨_, _, hsketch, hsound.kind, hnext, hadds⟩
    · intro e he
      exact Factory.finish_error (Prod.ext he rfl)
  case h_2 => exact h

theorem finishTerm (h : C.Balances) (hC : C.Sound) (x : Handle .decisionVariable) :
    (C.perform (.finishTerm i x)).Balances := by
  simp only [Client.perform]
  split
  case h_1 d hd =>
    rw [Call.perform, FactoryM.run_map]
    apply h.ends hC
    · intro answer
      rfl
    · intro y hy
      obtain ⟨-, hnext, r, hr, hadds⟩ := Factory.finishTerm_ok (Prod.ext hy rfl)
      obtain rfl := Handle.require_eq_ok.1 hr
      rw [Ledger.Balances.sketch?_eq h hd]
      exact ⟨_, _, rfl, rfl, hnext, hadds⟩
    · intro e he
      exact Factory.finishTerm_error (Prod.ext he rfl)
  case h_2 => exact h

theorem perform (h : C.Balances) (hC : C.Sound) : (C.perform a).Balances := by
  cases a with
  | construct c => exact h.construct hC c
  | add i x => exact h.add x
  | addSlope i x => exact h.addSlope x
  | addBreakpoint i x => exact h.addBreakpoint x
  | finish i => exact h.finish hC
  | finishTerm i x => exact h.finishTerm hC x

theorem step (h : C.Balances) (hC : C.Sound) (a : Action Access Callee) : (C.step a).Balances := by
  unfold Client.step
  split
  · exact h.perform hC
  · exact h

theorem run (h : C.Balances) (hC : C.Sound) (as : List (Action Access Callee)) :
    (C.run as).Balances := by
  induction as generalizing C with
  | nil => exact h
  | cons a as ih => exact ih (h.step hC a) (hC.step a).sound

theorem start {o : Options} (h : start o = .ok C) : C.Balances := by
  obtain ⟨f, hf, h⟩ := bind_eq_ok.1 h
  obtain rfl := Factory.ofOptions_eq hf
  cases h
  constructor
  · rfl
  · intro i e he
    cases he
  · rfl

end Balances

end Client

end ModelExpr
