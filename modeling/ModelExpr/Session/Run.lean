import ModelExpr.Session.Naming
import ModelExpr.Session.State
import ModelExpr.Traversal.Visitors
/-!
Running commands: operands are found and cast in the order of a command's parts, then the store is
checked, and then the call makes its own checks. A traversal and a list of operands check the store
before they look at what was found, and a further cursor before it looks for its owner.
-/

namespace ModelExpr

structure Outcome where
  datum : Datum
  product? : Option Product := none

namespace Outcome

def ofProduct (p : Product) : Outcome := ⟨.text p.text, some p⟩

def ofOption (p? : Option Product) : Outcome :=
  match p? with
  | some p => ofProduct p
  | none => ⟨.nothing, none⟩

end Outcome

abbrev CursorM (v : View) := StateT (Array (Cursor v)) SessionM

namespace CursorM

variable {l : ListView}

def cursor (i : Nat) : CursorM l.element (Cursor l.element) := do
  match (← get)[i]? with
  | some c => return c
  | none => throw .malformed

def set (i : Nat) (c : Cursor l.element) : CursorM l.element Unit :=
  modify fun cs => cs.setIfInBounds i c

def add (c : Cursor l.element) : CursorM l.element Datum :=
  modifyGet fun cs => (.count cs.size, cs.push c)

def take (i : Nat) (step : Cursor l.element → Option (Handle l.element) × Cursor l.element) :
    CursorM l.element Datum := do
  let (h?, c) := step (← cursor i)
  set i c
  return .ofOption (h?.map fun h => .text h.text)

def handles (hs : Array (Handle l.element)) : Datum := .texts (hs.toList.map Handle.text)

def move (store : Nat) : Move → CursorM l.element Datum
  | .next i => take i Cursor.next
  | .nextBack i => take i Cursor.nextBack
  | .nth i k => take i (·.nth k)
  | .nthBack i k => take i (·.nthBack k)
  | .length i => return .count (← cursor i).length
  | .position i => return .count (← cursor i).position
  | .text i => return .text (← cursor i).text
  | .rest i => do
    let c ← cursor i
    set i c.atBack
    return handles c.remaining
  | .restBack i => do
    let c ← cursor i
    set i c.atFront
    return handles c.remaining.reverse
  | .copy i => do add (← cursor i)
  | .start owner store? => do
    let s ← liftM (SessionM.store (store?.getD store))
    let h ← liftM (SessionM.operand l.view owner)
    add (← liftM (m := Except Fault) (n := SessionM) (s.cursor h))
  | .same i j => return .truth ((← cursor i).same (← cursor j))
  | .malformed => throw .malformed

end CursorM

namespace Observer

def observe (s : Store) (start : Start) (h : Handle start.view) : Observer → Except Fault Datum
  | .recorder quiet stopExpr stop => do
    let r ← start.run (.recorder s quiet (!stopExpr.contains ·) (!stop.contains ·)) s h {}
    return .record
      [("counts", .list [.count r.expressions, .count r.numerics, .count r.logicals,
          .count r.functions]),
        ("events", .texts r.stops.toList)]
  | .decisionVariables => do
    let xs ← start.run (.decisionVariables s) s h #[]
    return .list (xs.toList.map fun i => .count i.toNat)
  | .logicals => do
    let xs ← start.run .logicals s h #[]
    return .list (xs.toList.map fun i => .count i.index)
  | .functions => do
    let xs ← start.run (.functions s) s h #[]
    return .texts xs.toList

end Observer

namespace Product

def describeDraft : Product → Option Datum
  | .draft d =>
    some (.record [("kind", .text d.kind.name), ("num_args", .count d.declared),
      ("num_added", .count d.added), ("debug", .text d.text)])
  | .termDraft d =>
    some (.record [("num_breakpoints", .count d.declared), ("num_slopes", .count d.declaredSlopes),
      ("debug", .text d.text)])
  | _ => none

end Product

namespace SessionM

/-- Runs an operation on the draft in a register. While it runs the register is empty, so that the
draft has a single owner and grows in place. -/
def onDraft (name : String) {δ : Type} (wrap : δ → Product) (d : δ)
    (m : ExceptT Rejection (StateM δ) Unit) : SessionM Outcome := do
  release name
  let (result, d) := m.run d
  assign name (wrap d)
  liftM result
  return ⟨.nothing, none⟩

def add (name : String) (x : HandleSource) : SessionM Outcome := do
  let ⟨_, h⟩ ← handle x
  match ← product name with
  | @Product.draft l d =>
    let operand ← liftM (h.cast l.element)
    onDraft name .draft d (Draft.add operand)
  | _ => throw .malformed

def onTerm (name : String) (m : ExceptT Rejection (StateM TermDraft) Unit) : SessionM Outcome := do
  match ← product name with
  | .termDraft d => onDraft name .termDraft d m
  | _ => throw .malformed

def finish (store : Nat) (name : String) (argument : HandleSource) : SessionM Outcome := do
  let v ← operand .decisionVariable argument
  let call : Call ← match ← product name with
    | .draft d => pure (.finish d)
    | .termDraft d => pure (.finishTerm d v)
    | _ => throw .malformed
  discard (factory store)
  release name
  return .ofProduct (← SessionM.call store call.perform)

def viewed (x : HandleSource) (view? : Option View) : SessionM AnyHandle := do
  let ⟨v, h⟩ ← handle x
  match view? with
  | some w => return ⟨w, ← liftM (h.recast w)⟩
  | none => return ⟨v, h⟩

def field (store : Nat) (x : HandleSource) (view? : Option View) (name : String) (i? : Option Nat) :
    SessionM Outcome := do
  let ⟨v, h⟩ ← viewed x view?
  let s ← SessionM.store store
  match name with
  | "kind" => do
    let k ← liftM (m := Except Fault) h.kind
    return ⟨.text k.name, none⟩
  | "id" => return ⟨.text h.id.text, none⟩
  | "is_null" => return ⟨.truth h.isNull, none⟩
  | _ => do
    let ⟨c, f⟩ ← liftM (Field.named v name i?)
    let x ← liftM (m := Except Failure) (s.read h f)
    return ⟨c.toDatum x, c.toProduct? x⟩

def function (store : Nat) (x : FunctionSource) : FunctionQuery → SessionM Outcome
  | .name => do
    let f ← functionRef x
    let s ← SessionM.store store
    return ⟨.text (← liftM (m := Except Fault) (s.functionName f)), none⟩
  | .id => return ⟨.text (← functionRef x).id.text, none⟩
  | .isNull => return ⟨.truth (← functionRef x).isNull, none⟩
  | .same y => do
    let f ← functionRef x
    return ⟨.truth (f = (← functionRef y)), none⟩

def operands (store : Nat) (x : HandleSource) (moves : List Move) : SessionM Outcome := do
  let ⟨v, h⟩ ← handle x
  let s ← SessionM.store store
  match v.list? with
  | none => throw .noField
  | some l =>
    let owner : Handle l.view := ⟨h.ref?⟩
    let c ← liftM (m := Except Fault) (s.cursor owner)
    let answers ← (moves.mapM (CursorM.move (l := l) store)).run' #[c]
    return ⟨.list answers, none⟩

def single (store : Nat) : Command → SessionM Outcome
  | .construct c => do
    let c ← c.mapM operand functionRef
    return .ofProduct (← call store c.perform)
  | .add name x => add name x
  | .addSlope name x => onTerm name (TermDraft.addSlope x)
  | .addBreakpoint name x => onTerm name (TermDraft.addBreakpoint x)
  | .draft name => do
    match (← product name).describeDraft with
    | some d => return ⟨d, none⟩
    | none => throw .malformed
  | .finish name x => finish store name x
  | .cast x v => return .ofProduct (.handle (← viewed x (some v)).2)
  | .same x y => do
    let ⟨_, a⟩ ← handle x
    let ⟨_, b⟩ ← handle y
    return ⟨.truth (a.upcast = b.upcast), none⟩
  | .distinct xs => do
    let hs ← xs.mapM fun x => return (← handle x).2.upcast
    return ⟨.count hs.eraseDups.length, none⟩
  | .field x view? name i? => field store x view? name i?
  | .function x query => function store x query
  | .operands x moves => operands store x moves
  | .traverse x start observer => do
    let ⟨_, h⟩ ← handle x
    let s ← SessionM.store store
    let h ← liftM (h.cast start.view)
    return ⟨← liftM (m := Except Fault) (observer.observe s start h), none⟩
  | .summary => do
    let s ← SessionM.store store
    return ⟨.record [("len", .count s.nodes.size), ("is_empty", .truth s.nodes.isEmpty),
      ("num_functions", .count s.functions.size), ("debug", .text s.text)], none⟩
  | .text => return ⟨.text (← holding store).text, none⟩
  | .kindAt i => do
    let s ← SessionM.store store
    return ⟨.ofOption ((s.kind? i).map fun k => .text k.name), none⟩
  | .exprAt i => do
    let s ← SessionM.store store
    return .ofOption ((s.expr? i).map .handle)
  | .functionAt i => do
    let s ← SessionM.store store
    return .ofOption ((s.function? i).map .function)
  | .dump => do
    let s ← SessionM.store store
    return ⟨← liftM (m := Except Failure) s.dump, none⟩
  | .openFactory o => do
    let f ← liftM (m := Except Fault) (Factory.ofOptions o)
    return ⟨.count (← addHolding (.factory f)), none⟩
  | .openEmpty nodes operands => do
    let s ← liftM (m := Except Fault) (Store.withRoom nodes operands)
    return ⟨.count (← addHolding (.finished s)), none⟩
  | .copyStore => do
    let s ← SessionM.store store
    return ⟨.count (← addHolding (.finished s)), none⟩
  | .copyShared => do
    match ← holding store with
    | .shared s => return ⟨.count (← addHolding (.shared s)), none⟩
    | _ => throw .malformed
  | .close => do
    let f ← factory store
    setHolding store (.finished f.store)
    return ⟨.nothing, none⟩
  | .share => do
    let f ← factory store
    setHolding store (.shared f.store)
    return ⟨.nothing, none⟩
  | .idle => return ⟨.nothing, none⟩
  | .again _ _ | .malformed => throw .malformed

end SessionM

abbrev Answer := Except Refusal Datum

namespace Answer

def parts : Answer → List (String × Datum)
  | .ok d => [("r", d)]
  | .error r => r.parts

def isError : Answer → Bool
  | .ok _ => false
  | .error _ => true

end Answer

structure Rounds where
  errors : Nat := 0
  last : List Answer := []

namespace Rounds

def run (round : StateM Session (List Answer)) : Nat → Rounds → StateM Session Rounds
  | 0, r => return r
  | n + 1, r => do
    let answers ← round
    run round n ⟨r.errors + answers.countP Answer.isError, answers⟩

def datum (r : Rounds) : Datum :=
  .record [("errors", .count r.errors), ("last", .list (r.last.map fun a => .record a.parts))]

end Rounds

mutual

def Command.run (store : Nat) (target? : Option String) : Command → StateM Session Answer
  | .again n steps => do
    let rounds ← Rounds.run (Step.runAll steps) n {}
    return .ok rounds.datum
  | c => do
    match ← (SessionM.single store c).run with
    | .error r => return .error r
    | .ok outcome =>
      if let some name := target? then
        if let some p := outcome.product? then
          modify fun S => { S with registers := S.registers.insert name p }
      return .ok outcome.datum

def Step.run : Step → StateM Session Answer
  | .mk store target? c => c.run store target?

def Step.runAll : List Step → StateM Session (List Answer)
  | [] => return []
  | s :: rest => do
    let a ← s.run
    let as ← Step.runAll rest
    return a :: as

end

def Step.report (trace : Bool) : Step → StateM Session Datum
  | .mk store target? c => do
    modify fun S => { S with log := #[] }
    let answer ← c.run store target?
    let S ← get
    let log := if trace then [("log", Datum.texts (S.log.toList.map Event.text))] else []
    return .record (answer.parts ++ ("s", S.sizes store) :: log)

def Session.play (o : Options) (trace : Bool) (steps : List Step) : Except Fault Datum := do
  let S ← Session.ofOptions o
  return .list ((steps.mapM (Step.report trace)).run S).1

end ModelExpr
