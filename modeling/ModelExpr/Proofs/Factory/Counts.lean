import ModelExpr.Proofs.Factory.Filling

namespace ModelExpr

structure Declaration where
  operand : Operand
  count : Nat
  least : Nat
  lengths : List Nat

namespace Declaration

def Fits (D : Declaration) : Prop := D.least ≤ D.count ∧ ∀ n ∈ D.lengths, n < UInt32.size

/-- The greatest length of a span is refused where operands are counted. -/
def Accepted (D : Declaration) : Prop :=
  D.Fits ∧ (D.operand = .argument → D.count ≠ UInt32.size - 1)

end Declaration

namespace Construction

def declaration? {H : View → Type} {F : Type} : Construction H F → Option Declaration
  | .beginCall _ n | .beginVararg _ n | .beginSum n | .beginCount n | .beginIteratedLogical _ n
  | .beginAllDiff n => some ⟨.argument, n, 0, [n]⟩
  | .beginNumberOf n _ => some ⟨.argument, n, 1, [n]⟩
  | .beginTerm n => some ⟨.breakpoint, n, 1, [n, n + 1]⟩
  | _ => none

end Construction

def Requirement.counts : Requirement → Bool
  | .count _ _ _ => true
  | _ => false

def Construction.OtherwiseValid (c : Construction Handle FunctionRef) (functions : Nat) : Prop :=
  ∀ q ∈ c.requirements functions, q.counts = false → q.Met

namespace Construction

variable {c : Construction Handle FunctionRef} {D : Declaration} {m : Nat} {f : Factory}

theorem count_required (hD : c.declaration? = some D) (m : Nat) :
    .count D.operand D.count D.least ∈ c.requirements m ∧
      ∀ q ∈ c.requirements m, q.counts = true → q = .count D.operand D.count D.least := by
  cases c <;> cases hD <;> simp [requirements, Requirement.counts]

theorem declared_lists (hD : c.declaration? = some D) :
    D.operand = .argument ∧ D.lengths = [D.count] ∨
      D.operand = .breakpoint ∧ D.lengths = [D.count, D.count + 1] := by
  cases c <;> cases hD <;> simp

theorem count_met_iff (hD : c.declaration? = some D) :
    (Requirement.count D.operand D.count D.least).Met ↔ D.Accepted := by
  unfold Requirement.Met Declaration.Accepted Declaration.Fits
  obtain ⟨hoperand, hlengths⟩ | ⟨hoperand, hlengths⟩ := declared_lists hD
  · rw [hoperand, hlengths, List.forall_mem_singleton]
    simp only [true_implies]
    omega
  · -- a term has one slope more than breakpoints, which makes up for the count that is refused
    rw [hoperand, hlengths, List.forall_mem_cons, List.forall_mem_singleton]
    simp only [reduceCtorEq, false_implies, and_true]
    omega

theorem plan_declared {p : Plan} (hD : c.declaration? = some D) (hp : c.plan m = .ok p) :
    ∃ q, p = .draft q := by
  cases c with
  | beginCall | beginVararg | beginSum | beginNumberOf | beginCount | beginIteratedLogical
  | beginAllDiff | beginTerm =>
    obtain ⟨d, -, hp⟩ := bind_eq_ok.1 hp
    cases hp
    exact ⟨_, rfl⟩
  | _ => cases hD

theorem perform_accepted (hD : c.declaration? = some D)
    (hvalid : c.OtherwiseValid f.store.functions.size) (h : D.Accepted) :
    ∃ q, c.perform.run f = (.ok q, f) := by
  have hmet : ∀ q ∈ c.requirements f.store.functions.size, q.Met := by
    intro q hq
    cases hcounts : q.counts with
    | false => exact hvalid q hq hcounts
    | true =>
      rw [(count_required hD _).2 q hq hcounts]
      exact (count_met_iff hD).2 h
  obtain ⟨p, hp⟩ := (c.plan_governed _).accepted (Requirement.first?_eq_none.2 hmet)
  obtain ⟨q, rfl⟩ := plan_declared hD hp
  refine ⟨q, ?_⟩
  rw [perform_run, hp]
  rfl

theorem perform_refused (hD : c.declaration? = some D)
    (hvalid : c.OtherwiseValid f.store.functions.size) (h : ¬D.Accepted) :
    c.perform.run f = (.error (.rejected (.invalidCount D.operand D.count)), f) := by
  obtain ⟨hmem, hunique⟩ := count_required hD f.store.functions.size
  cases hq : Requirement.first? (c.requirements f.store.functions.size) with
  | none =>
    have hmet := Requirement.first?_eq_none.1 hq _ hmem
    exact absurd ((count_met_iff hD).1 hmet) h
  | some q =>
    have hcount : q = .count D.operand D.count D.least := by
      have hq' := List.mem_of_find?_eq_some hq
      apply hunique q hq'
      by_contra hcounts
      have hmet := hvalid q hq' (Bool.eq_false_iff.2 hcounts)
      have hunmet := List.find?_some hq
      simp [hmet] at hunmet
    rw [perform_run, (c.plan_governed _).rejected q hq, hcount]
    rfl

end Construction

structure Draft.EndsWhole {l : ListView} (d : Draft l) (n : Nat) : Prop where
  finish_iff : ∀ f : Factory, (∃ x g, (Factory.finish d).run f = (.ok x, g)) ↔
    f.store.nodes.size < UInt32.size ∧ (n ≠ 0 → f.store.operands.size < UInt32.size)
  counted : ∀ (f g : Factory) x (e : l.view.list? = some l),
    (Factory.finish d).run f = (.ok x, g) → g.store.read x (.operandCount e) = .ok n

structure TermDraft.EndsWhole (d : TermDraft) (n : Nat) : Prop where
  finish_iff : ∀ (f : Factory) v, v.isNull = false →
    ((∃ x g, (Factory.finishTerm d v).run f = (.ok x, g)) ↔
      f.store.nodes.size < UInt32.size ∧ f.store.numbers.size + (n + 1) < UInt32.size)
  counted : ∀ (f g : Factory) v x, (Factory.finishTerm d v).run f = (.ok x, g) →
    g.store.read x (.slopeCount rfl) = .ok (n + 1) ∧ g.store.read x (.breakpointCount rfl) = .ok n

theorem Draft.Within.endsWhole {l : ListView} {d : Draft l} (hd : d.Within)
    (h : d.requireComplete = .ok ()) : d.EndsWhole d.declared := by
  have hsize : d.operands.size = d.declared := (Draft.requireComplete_eq_ok hd.added).1 h
  have hdeclared := hd.declared
  have hempty : d.operands.toList ≠ [] ↔ d.declared ≠ 0 := by
    rw [← hsize, ← Array.length_toList, ne_eq, ne_eq, List.length_eq_zero_iff]
  constructor
  · intro f
    constructor
    · rintro ⟨x, g, hx⟩
      obtain ⟨hnodes, hoperands⟩ := Factory.room_draft.1 (Factory.finish_eq_ok.1 hx).2.1
      exact ⟨hnodes, fun hne => (hoperands (hempty.2 hne)).1⟩
    · rintro ⟨hnodes, hoperands⟩
      have hroom : f.store.Room d.plain := by
        apply Factory.room_draft.2 ⟨hnodes, _⟩
        intro hne
        exact ⟨hoperands (hempty.1 hne), by omega⟩
      exact ⟨_, _, Factory.finish_eq_ok.2 ⟨h, hroom, rfl, rfl⟩⟩
  · intro f g x e hx
    obtain ⟨-, hroom, rfl, hg⟩ := Factory.finish_eq_ok.1 hx
    have hlays : f.Lays g d.kind d.plain := hg ▸ ⟨hroom, rfl, rfl⟩
    apply Store.read_of_plain (c := .count) (x := .ok d.declared) hlays.finishes.reads
    rw [← hsize, ← Array.length_toList]
    unfold Draft.plain
    split <;> rfl

theorem TermDraft.Within.endsWhole {d : TermDraft} (hd : d.Within)
    (h : d.requireComplete = .ok ()) : d.EndsWhole d.declared := by
  have hcomplete := (TermDraft.requireComplete_eq_ok hd.slopes hd.breakpoints).1 h
  obtain ⟨hbreakpoints, hslopes⟩ := hcomplete
  have hdeclared := hd.declared
  have hone : d.declaredSlopes = d.declared + 1 := rfl
  constructor
  · intro f v hv
    obtain ⟨_ | a⟩ := v
    · cases hv
    constructor
    · rintro ⟨x, g, hx⟩
      obtain ⟨-, r, -, hroom, -⟩ := Factory.finishTerm_eq_ok.1 hx
      obtain ⟨hnodes, hnumbers, -⟩ := Factory.room_term.1 hroom
      exact ⟨hnodes, by omega⟩
    · rintro ⟨hnodes, hnumbers⟩
      have hroom : f.store.Room (d.plain a) := Factory.room_term.2 ⟨hnodes, by omega, by omega⟩
      exact ⟨_, _, Factory.finishTerm_eq_ok.2 ⟨h, a, rfl, hroom, rfl, rfl⟩⟩
  · intro f g v x hx
    obtain ⟨-, r, -, hroom, rfl, hg⟩ := Factory.finishTerm_eq_ok.1 hx
    have hlays : f.Lays g .piecewiseLinear (d.plain r) := hg ▸ ⟨hroom, rfl, rfl⟩
    constructor
    · rw [← hone, ← hslopes]
      exact Store.read_of_plain (x := .ok _) hlays.finishes.reads rfl
    · rw [← hbreakpoints]
      exact Store.read_of_plain (x := .ok _) hlays.finishes.reads rfl

namespace Construction

variable {c : Construction Handle FunctionRef} {D : Declaration}

theorem declared_eq {b : Beginning} (hD : c.declaration? = some D) (hb : c.beginning? = some b) :
    b.declared = D.count := by
  cases c <;> cases hD <;> cases hb <;> rfl

/-- If nothing else is wrong, a draft is begun exactly for the counts that are accepted, and every other
count is refused by its name. When such a draft has been filled, the length of no list is in the way. -/
theorem counts_exact (hD : c.declaration? = some D) (f : Factory)
    (hvalid : c.OtherwiseValid f.store.functions.size) :
    ((∃ q, c.perform.run f = (.ok q, f)) ↔ D.Accepted) ∧
      (¬D.Accepted →
        c.perform.run f = (.error (.rejected (.invalidCount D.operand D.count)), f)) ∧
      (D.Accepted →
        (∀ b, c.beginning? = some b → ∀ xs, (b.draft.offered xs).requireComplete = .ok () →
          (b.draft.offered xs).EndsWhole D.count) ∧
        ∀ n, c = .beginTerm n → ∀ os, ((TermDraft.mk n #[] #[]).offered os).requireComplete = .ok () →
          ((TermDraft.mk n #[] #[]).offered os).EndsWhole D.count) := by
  refine ⟨⟨?_, perform_accepted hD hvalid⟩, perform_refused hD hvalid, ?_⟩
  · rintro ⟨q, hq⟩
    by_contra hrefused
    cases hq.symm.trans (perform_refused hD hvalid hrefused)
  · intro haccepted
    obtain ⟨q, hq⟩ := perform_accepted hD hvalid haccepted
    constructor
    · intro b hb xs hfull
      obtain ⟨-, -, hvalid⟩ := perform_beginning hb hq
      obtain ⟨hwithin, hdeclared⟩ := hvalid.within.offered xs
      have hends := hwithin.endsWhole hfull
      rw [hdeclared] at hends
      exact declared_eq hD hb ▸ hends
    · rintro n rfl os hfull
      obtain ⟨-, rfl⟩ := perform_beginTerm hq
      have hbegun : (TermDraft.mk n #[] #[]).Within :=
        Call.perform_within (c := .construct (.beginTerm n)) hq
      obtain ⟨hwithin, hdeclared⟩ := hbegun.offered os
      have hends := hwithin.endsWhole hfull
      rw [hdeclared] at hends
      cases hD
      exact hends

theorem counts_exact_term :
    (∃ q, (Construction.beginTerm (UInt32.size - 2)).perform.run {} = (.ok q, {})) ∧
      (Construction.beginTerm (UInt32.size - 1)).perform.run {} =
        (.error (.rejected (.invalidCount .breakpoint (UInt32.size - 1))), {}) := by
  have hvalid (n : Nat) : (Construction.beginTerm n).OtherwiseValid 0 := by
    intro q hq hcounts
    obtain rfl := List.mem_singleton.1 hq
    cases hcounts
  obtain ⟨haccepted, -⟩ := counts_exact (c := .beginTerm (UInt32.size - 2)) rfl {} (hvalid _)
  obtain ⟨-, hrefused, -⟩ := counts_exact (c := .beginTerm (UInt32.size - 1)) rfl {} (hvalid _)
  refine ⟨haccepted.2 ?_, hrefused ?_⟩
  · simp [Declaration.Accepted, Declaration.Fits, UInt32.size]
  · simp [Declaration.Accepted, Declaration.Fits, UInt32.size]

/-- A span can have the length of this sum, and a term with as many slopes is begun, but the sum is
not. -/
theorem longest_sum_refused :
    let c : Construction Handle FunctionRef := .beginSum (UInt32.size - 1)
    let D : Declaration := ⟨.argument, UInt32.size - 1, 0, [UInt32.size - 1]⟩
    c.declaration? = some D ∧ c.OtherwiseValid 0 ∧ D.Fits ∧
      c.perform.run {} = (.error (.rejected (.invalidCount .argument (UInt32.size - 1))), {}) ∧
      ∃ q, (Construction.beginTerm (UInt32.size - 2)).perform.run {} = (.ok q, {}) := by
  refine ⟨rfl, ?_, ?_, rfl, ⟨_, rfl⟩⟩
  · intro q hq hcounts
    obtain rfl := List.mem_singleton.1 hq
    cases hcounts
  · simp [Declaration.Fits, UInt32.size]

end Construction

end ModelExpr
