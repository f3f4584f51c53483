import ModelExpr.Proofs.Draft.Filling
import ModelExpr.Proofs.Factory.Requirement

namespace ModelExpr

structure Beginning where
  list : ListView
  kind : Kind
  function : FunctionId := .invalid
  declared : Nat
  operands : List Ref := []

def Construction.beginning? : Construction Handle FunctionRef → Option Beginning
  | .beginCall f n => some { list := .call, kind := .call, function := f.id, declared := n }
  | .beginVararg k n => some { list := .vararg, kind := k, declared := n }
  | .beginSum n => some { list := .sum, kind := .sum, declared := n }
  | .beginNumberOf n x =>
    some { list := .numberOf, kind := .numberOf, declared := n, operands := x.ref?.toList }
  | .beginCount n => some { list := .count, kind := .count, declared := n }
  | .beginIteratedLogical k n => some { list := .iteratedLogical, kind := k, declared := n }
  | .beginAllDiff n => some { list := .allDiff, kind := .allDiff, declared := n }
  | _ => none

namespace Beginning

def draft (b : Beginning) : Draft b.list :=
  { kind := b.kind, function := b.function, declared := b.declared, operands := b.operands.toArray }

def plain (b : Beginning) (rs : List Ref) : Plain :=
  if b.kind = .call then .call b.function rs else .list rs

structure Valid (b : Beginning) : Prop where
  kind : b.list.view.accepts b.kind = true
  initial : b.operands.length = if b.kind = .numberOf then 1 else 0
  within : b.draft.Within

end Beginning

theorem Construction.perform_beginning {c : Construction Handle FunctionRef} {b : Beginning}
    {f g : Factory} {q : Product} (hb : c.beginning? = some b) (h : c.perform.run f = (.ok q, g)) :
    g = f ∧ q = .draft b.draft ∧ b.Valid := by
  obtain ⟨p, hp, hmakes⟩ := perform_ok h
  have hdraft : ∃ q, p = .draft q := by
    cases c with
    | beginCall | beginVararg | beginSum | beginNumberOf | beginCount | beginIteratedLogical
    | beginAllDiff =>
      obtain ⟨d, -, hp⟩ := bind_eq_ok.1 hp
      cases hp
      exact ⟨_, rfl⟩
    | _ => cases hb
  obtain ⟨q, rfl⟩ := hdraft
  obtain ⟨rfl, rfl⟩ := hmakes
  refine ⟨rfl, ?_⟩
  have hvararg : ∀ k : Kind, k.isVararg = true → k ≠ .numberOf := by decide
  have hlogical : ∀ k : Kind, k.isIteratedLogical = true → k ≠ .numberOf := by decide
  have hwithin := plan_within hp
  cases plan_opens hp with
  | numberOf | call | sum | count | allDiff =>
    cases hb
    exact ⟨rfl, rfl, rfl, hwithin⟩
  | vararg k n hk =>
    cases hb
    exact ⟨rfl, hk, (if_neg (hvararg k hk)).symm, hwithin⟩
  | iteratedLogical k n hk =>
    cases hb
    exact ⟨rfl, hk, (if_neg (hlogical k hk)).symm, hwithin⟩
  | term => cases hb

theorem Construction.perform_beginTerm {n : Nat} {f g : Factory} {q : Product}
    (h : (Construction.beginTerm n).perform.run f = (.ok q, g)) :
    g = f ∧ q = .termDraft { declared := n } := by
  obtain ⟨p, hp, hmakes⟩ := perform_ok h
  obtain ⟨d, -, hd⟩ := bind_eq_ok.1 hp
  cases hd
  obtain ⟨rfl, rfl⟩ := hmakes
  cases plan_opens hp
  exact ⟨rfl, rfl⟩

namespace Store

variable {s : Store} {k : Kind} {n : Plain}

theorem plain?_lay (h : s.Room n) : (s.lay k n).plain? (s.next k).id.index = some n := by
  rw [next_index h.node]
  exact plain?_eq_some_iff.2 ⟨s.layout n, Array.getElem?_push_size, inline_layout h rfl rfl⟩

theorem kind?_lay (h : s.nodes.size < UInt32.size) (hsize : s.kinds.size = s.nodes.size) :
    (s.lay k n).kind? (s.next k).id = some k := by
  rw [kind?, next_index h, ← hsize]
  exact Array.getElem?_push_size

end Store

structure Factory.Finishes (f g : Factory) (r : Ref) (k : Kind) (n : Plain) : Prop where
  ref_eq : r = f.store.next k
  lays : f.Lays g k n
  reads : g.store.plain? r.id.index = some n
  kind : f.store.kinds.size = f.store.nodes.size → g.store.kind? r.id = some k

theorem Factory.Lays.finishes {f g : Factory} {k : Kind} {n : Plain} (h : f.Lays g k n) :
    f.Finishes g (f.store.next k) k n := by
  refine ⟨rfl, h, ?_, ?_⟩
  · rw [h.store_eq]
    exact Store.plain?_lay h.room
  · rw [h.store_eq]
    exact Store.kind?_lay h.room.node

/-- What is known of a draft after these attempts to add to it. -/
structure Beginning.Filled (b : Beginning) (xs : List (Handle b.list.element))
    (d : Draft b.list) : Prop where
  declared : d.declared = b.declared
  held : d.operands.toList = (b.draft.given xs).take b.declared
  added_le : d.added ≤ b.declared
  full_iff : d.added = b.declared ↔ b.declared ≤ (b.draft.given xs).length
  null : ((Draft.add .null).run d).1 = .error (.invalidArgument .argument)
  next : ∀ r, ((Draft.add (.ofRef r)).run d).1 =
    if d.added = b.declared then .error (.overflow .argument) else .ok ()
  finish_iff : ∀ f : Factory,
    f.store.nodes.size < UInt32.size → f.store.operands.size < UInt32.size →
      ((∃ x g, (Factory.finish d).run f = (.ok x, g)) ↔ d.added = b.declared)
  refused : ∀ f : Factory, d.added ≠ b.declared → ∃ g,
    (Factory.finish d).run f = (.error (.rejected (.underflow .argument)), g) ∧ g.store = f.store
  finished : ∀ (f g : Factory) x, (Factory.finish d).run f = (.ok x, g) →
    ∃ rs, rs = (b.draft.given xs).take b.declared ∧ rs.length = b.declared ∧
      ∃ r, x = .ofRef r ∧ f.Finishes g r b.kind (b.plain rs) ∧
        (∀ e : b.list.view.list? = some b.list,
          g.store.read x (.operands e) = .ok (rs.map .ofRef).toArray) ∧
          ∀ e, g.store.read x (.function e) = .ok ⟨b.function⟩

namespace Beginning

variable {b : Beginning} {s : Store} {r : Ref} {rs : List Ref}

theorem read_operands (hr : s.plain? r.id.index = some (b.plain rs))
    (e : b.list.view.list? = some b.list) :
    s.read (.ofRef r) (.operands e) = .ok (rs.map .ofRef).toArray := by
  apply Store.read_of_plain (x := .ok _) hr
  unfold plain
  split <;> rfl

theorem Valid.read_function (hb : b.Valid) (hr : s.plain? r.id.index = some (b.plain rs))
    (e : b.list.view = .call) :
    s.read (.ofRef r : Handle b.list.view) (.function e) = .ok ⟨b.function⟩ := by
  have hkind := hb.kind
  rw [e] at hkind
  apply Store.read_of_plain (x := .ok _) hr
  rw [plain, if_pos (of_decide_eq_true hkind)]
  rfl

theorem Valid.filled (hb : b.Valid) (xs : List (Handle b.list.element)) :
    b.Filled xs (b.draft.offered xs) := by
  have hlength := List.length_take_le b.declared (b.draft.given xs)
  rw [Draft.offered_eq hb.within.added]
  generalize hd : ({ b.draft with operands := _ } : Draft b.list) = d
  have hdeclared : d.declared = b.declared := hd ▸ rfl
  have hheld : d.operands.toList = (b.draft.given xs).take b.declared := hd ▸ rfl
  have hplain : d.plain = b.plain ((b.draft.given xs).take b.declared) := hd ▸ rfl
  have hkind : d.kind = b.kind := hd ▸ rfl
  have hadded : d.added = ((b.draft.given xs).take b.declared).length := hd ▸ rfl
  have hwithin : d.operands.size ≤ d.declared := by
    change d.added ≤ d.declared
    rw [hadded, hdeclared]
    exact hlength
  have hcomplete : d.requireComplete = .ok () ↔ d.added = b.declared :=
    hdeclared ▸ Draft.requireComplete_eq_ok hwithin
  constructor
  · exact hdeclared
  · exact hheld
  · exact hadded ▸ hlength
  · rw [hadded, List.length_take]
    omega
  · rw [Draft.add_run]
    rfl
  · intro r
    rw [Draft.add_run, ← hdeclared]
    change (if d.added = d.declared then (Except.error _, d) else (Except.ok (), _)).1 = _
    split <;> rfl
  · intro f hnodes hoperands
    constructor
    · rintro ⟨x, g, hx⟩
      exact hcomplete.1 (Factory.finish_eq_ok.1 hx).1
    · intro hfull
      have hsmall : d.operands.size < UInt32.size := by
        have hmost : b.declared < UInt32.size - 1 := hb.within.declared
        omega
      have hroom := Factory.room_draft.2 ⟨hnodes, fun _ => ⟨hoperands, hsmall⟩⟩
      exact ⟨_, _, Factory.finish_eq_ok.2 ⟨hcomplete.2 hfull, hroom, rfl, rfl⟩⟩
  · intro f hne
    have hmissing : d.requireComplete = .error (.underflow .argument) :=
      if_pos (Nat.lt_of_le_of_ne hwithin (hdeclared ▸ hne))
    obtain ⟨g, hg⟩ := Factory.finish_refused (f := f) hmissing
    obtain ⟨r, -, -, hstays⟩ | ⟨hfilled, -⟩ := Factory.finish_failed hg
    · exact ⟨g, hg, hstays.store_eq⟩
    · cases hmissing.symm.trans hfilled
  · intro f g x hx
    obtain ⟨hfilled, hroom, rfl, hg⟩ := Factory.finish_eq_ok.1 hx
    have hfull := hcomplete.1 hfilled
    have hlays : f.Lays g d.kind d.plain := hg ▸ ⟨hroom, rfl, rfl⟩
    have hfinishes := hlays.finishes
    rw [hkind, hplain] at hfinishes
    refine ⟨_, rfl, hadded.symm.trans hfull, _, congrArg Handle.ofRef ?_,
      hfinishes, ?_, ?_⟩
    · rw [hkind]
    · rw [hkind]
      exact read_operands hfinishes.reads
    · rw [hkind]
      exact hb.read_function hfinishes.reads

end Beginning

namespace TermDraft

/-- What is known of a draft for `n` breakpoints after these attempts to add to it. -/
structure Filled (n : Nat) (os : List Offer) (d : TermDraft) : Prop where
  declared : d.declared = n
  slopes : d.slopes.toList = (values true os).take (n + 1)
  breakpoints : d.breakpoints.toList = (values false os).take n
  slope : ∀ x, ((addSlope x).run d).1 =
    if d.slopes.size = n + 1 then .error (.overflow .slope) else .ok ()
  breakpoint : ∀ x, ((addBreakpoint x).run d).1 =
    if d.breakpoints.size = n then .error (.overflow .breakpoint) else .ok ()
  finish_iff : ∀ (f : Factory) v,
    f.store.nodes.size < UInt32.size → f.store.numbers.size + (n + 1) < UInt32.size →
      ((∃ x g, (Factory.finishTerm d v).run f = (.ok x, g)) ↔
        n ≤ (values false os).length ∧ n + 1 ≤ (values true os).length ∧ v.isNull = false)
  finished : ∀ (f g : Factory) v x, (Factory.finishTerm d v).run f = (.ok x, g) →
    ∃ xs ys, xs = (values true os).take (n + 1) ∧ xs.length = n + 1 ∧
      ys = (values false os).take n ∧ ys.length = n ∧
        ∃ a r, v = .ofRef a ∧ x = .ofRef r ∧
          f.Finishes g r .piecewiseLinear (.piecewiseLinear xs ys a) ∧
            g.store.read x (.slopes rfl) = .ok xs.toArray ∧
              g.store.read x (.breakpoints rfl) = .ok ys.toArray ∧
                g.store.read x (.termVariable rfl) = .ok v

variable {d : TermDraft} {n : Nat}

theorem filled (n : Nat) (os : List Offer) :
    Filled n os (offered { declared := n } os) := by
  have hxs := List.length_take_le (n + 1) (values true os)
  have hys := List.length_take_le n (values false os)
  rw [offered_eq (Nat.zero_le _) (Nat.zero_le _)]
  generalize hd : TermDraft.mk _ _ _ = d
  have hdeclared : d.declared = n := hd ▸ rfl
  have hslopes : d.slopes.toList = (values true os).take (n + 1) := hd ▸ rfl
  have hbreakpoints : d.breakpoints.toList = (values false os).take n := hd ▸ rfl
  have hslopesSize : d.slopes.size = ((values true os).take (n + 1)).length := hd ▸ rfl
  have hbreakpointsSize : d.breakpoints.size = ((values false os).take n).length := hd ▸ rfl
  have hdeclaredSlopes : d.declaredSlopes = n + 1 := hd ▸ rfl
  have hcomplete : d.requireComplete = .ok () ↔
      ((values false os).take n).length = n ∧ ((values true os).take (n + 1)).length = n + 1 := by
    rw [requireComplete_eq_ok (by omega) (by omega), hbreakpointsSize, hslopesSize, hdeclared,
      hdeclaredSlopes]
  have hplain (a : Ref) : d.plain a = .piecewiseLinear ((values true os).take (n + 1))
      ((values false os).take n) a := hd ▸ rfl
  constructor
  · exact hdeclared
  · exact hslopes
  · exact hbreakpoints
  · intro x
    rw [addSlope_answer, hdeclaredSlopes]
  · intro x
    rw [addBreakpoint_answer, hdeclared]
  · intro f v hnodes hnumbers
    constructor
    · rintro ⟨x, g, hx⟩
      obtain ⟨hfull, a, ha, -⟩ := Factory.finishTerm_eq_ok.1 hx
      obtain ⟨hys, hxs⟩ := hcomplete.1 hfull
      rw [List.length_take] at hys hxs
      obtain rfl := Handle.require_eq_ok.1 ha
      exact ⟨by omega, by omega, rfl⟩
    · rintro ⟨hys, hxs, hv⟩
      obtain ⟨_ | a⟩ := v
      · cases hv
      have hfull := hcomplete.2 ⟨List.length_take_of_le hys, List.length_take_of_le hxs⟩
      have hroom : f.store.Room (d.plain a) := Factory.room_term.2 ⟨hnodes, by omega, by omega⟩
      exact ⟨_, _, Factory.finishTerm_eq_ok.2 ⟨hfull, a, rfl, hroom, rfl, rfl⟩⟩
  · intro f g v x hx
    obtain ⟨hfull, a, ha, hroom, rfl, hg⟩ := Factory.finishTerm_eq_ok.1 hx
    obtain ⟨hys, hxs⟩ := hcomplete.1 hfull
    obtain rfl := Handle.require_eq_ok.1 ha
    have hlays : f.Lays g .piecewiseLinear (d.plain a) := hg ▸ ⟨hroom, rfl, rfl⟩
    have hfinishes := hlays.finishes
    rw [hplain] at hfinishes
    refine ⟨_, _, rfl, hxs, rfl, hys, a, _, rfl, rfl, hfinishes, ?_, ?_, ?_⟩
    · exact Store.read_of_plain (x := .ok _) hfinishes.reads rfl
    · exact Store.read_of_plain (x := .ok _) hfinishes.reads rfl
    · exact Store.read_of_plain (c := .handle .decisionVariable) (x := .ok (.ofRef a))
        hfinishes.reads rfl

end TermDraft

end ModelExpr
