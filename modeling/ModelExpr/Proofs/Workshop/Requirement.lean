import ModelExpr.Proofs.Factory.Requirement
import ModelExpr.Proofs.Workshop.Turns

namespace ModelExpr.Workshop

open Requirement

def requirements? (W : Workshop) (j : Nat) (a : Action Handle FunctionRef) :
    Option (List Requirement) := do
  let f ← W.factories[j]?
  match (W.client f).call? a with
  | some c => return c.requirements f.store.functions.size
  | none => do a.requirements? (← W.product? (← a.adds?))

def HasRoom (W : Workshop) (j : Nat) (a : Action Handle FunctionRef) : Prop :=
  ∀ f c, W.call? j (.act j a) = some (f, c) → c.HasRoom f.store

variable {W : Workshop} {j : Nat} {a : Action Handle FunctionRef} {qs : List Requirement}

theorem requirements?_call {f : Factory} {c : Call} (hj : W.factories[j]? = some f)
    (hc : (W.client f).call? a = some c) :
    W.requirements? j a = some (c.requirements f.store.functions.size) := by
  simp [requirements?, hj, hc]

theorem requirements?_addition {f : Factory} (hj : W.factories[j]? = some f)
    (hc : (W.client f).call? a = none) : W.requirements? j a =
      a.adds?.bind fun i => (W.product? i).bind fun p => a.requirements? p := by
  simp [requirements?, hj, hc]

theorem perform_unrequired (h : W.requirements? j a = none) : (W.perform (.act j a)).1 = none := by
  cases hj : W.factories[j]? with
  | none => simp only [perform, hj]
  | some f =>
    obtain ⟨C, hgoes, hperform⟩ := perform_act (a := a) hj
    rw [hperform]
    cases hgoes with
    | idle => rfl
    | changed i p q y hi hp hq =>
      have hp : W.product? i = some p := hp
      have hsome := a.isSome_requirements? p
      rw [requirements?_addition hj (Client.call?_of_adds? hi), hi, Option.bind_some, hp,
        Option.bind_some] at h
      rw [h, hq] at hsome
      cases hsome
    | called c y g hc hrun => cases (requirements?_call hj hc).symm.trans h

theorem perform_governed (hW : W.Within) (h : W.requirements? j a = some qs) :
    (∀ q, first? qs = some q →
      (W.perform (.act j a)).1 = some (.error (.rejected q.rejection))) ∧
        (W.HasRoom j a → first? qs = none → ∃ p?, (W.perform (.act j a)).1 = some (.ok p?)) := by
  obtain ⟨f, hj, -⟩ := Option.bind_eq_some_iff.1 h
  obtain ⟨C, hgoes, hperform⟩ := perform_act (a := a) hj
  rw [hperform]
  cases hgoes with
  | idle hcall hchange =>
    rw [requirements?_addition hj hcall] at h
    obtain ⟨i, hi, h⟩ := Option.bind_eq_some_iff.1 h
    obtain ⟨p, hp, hqs⟩ := Option.bind_eq_some_iff.1 h
    have hnone := hchange i hi
    have hsome := a.isSome_requirements? p
    have hp : (W.client f).product? i = some p := hp
    rw [hp, Option.bind_some] at hnone
    rw [hqs, hnone] at hsome
    cases hsome
  | changed i p q y hi hp hq =>
    have hp : W.product? i = some p := hp
    rw [requirements?_addition hj (Client.call?_of_adds? hi), hi, Option.bind_some, hp,
      Option.bind_some] at h
    have hgoverns := Action.change_governed (hW i p hp) hq h
    constructor
    · intro q' hq'
      obtain rfl := hgoverns.rejected q' hq'
      rfl
    · intro _ hnone
      obtain ⟨_, rfl⟩ := hgoverns.accepted hnone
      exact ⟨none, rfl⟩
  | called c y g hc hrun =>
    obtain rfl := Option.some.inj ((requirements?_call hj hc).symm.trans h)
    obtain ⟨hrejected, haccepted⟩ := c.perform_governed f
    constructor
    · intro q hq
      obtain ⟨g', hg'⟩ := hrejected q hq
      obtain ⟨rfl, -⟩ := Prod.ext_iff.1 (hrun.symm.trans hg')
      rfl
    · intro hroom hnone
      have hcall : W.call? j (.act j a) = some (f, c) := by
        rw [call?_act hj, hc]
        rfl
      obtain ⟨p, g', hg'⟩ := haccepted hnone (hroom f c hcall)
      obtain ⟨rfl, -⟩ := Prod.ext_iff.1 (hrun.symm.trans hg')
      exact ⟨some p, rfl⟩

/-- In every state that can be reached, the first requirement that is not met is the one reported.
Where there is room nothing else fails, and an action without requirements did nothing. -/
theorem run_governed (jobs : List Job) (j : Nat) (a : Action Handle FunctionRef) :
    let W := Workshop.run {} jobs
    let y := (W.perform (.act j a)).1
    (W.requirements? j a = none → y = none) ∧ ∀ qs, W.requirements? j a = some qs →
      (∀ q, first? qs = some q → y = some (.error (.rejected q.rejection))) ∧
        (W.HasRoom j a → ((∃ e, y = some (.error e)) ↔ ∃ q ∈ qs, ¬q.Met) ∧
          ((∀ q ∈ qs, q.Met) → ∃ p?, y = some (.ok p?))) := by
  intro W y
  refine ⟨perform_unrequired, ?_⟩
  intro qs hqs
  obtain ⟨hrejected, haccepted⟩ := perform_governed (Within.empty.run jobs) hqs
  refine ⟨hrejected, fun hroom => ⟨⟨?_, ?_⟩, ?_⟩⟩
  · rintro ⟨e, he⟩
    by_contra hmet
    have hnone : first? qs = none := first?_eq_none.2 fun q hq => by
      by_contra hunmet
      exact hmet ⟨q, hq, hunmet⟩
    obtain ⟨p?, hp⟩ := haccepted hroom hnone
    cases he.symm.trans hp
  · rintro ⟨q, hq, hunmet⟩
    cases hfirst : first? qs with
    | none => exact absurd (first?_eq_none.1 hfirst q hq) hunmet
    | some q' => exact ⟨_, hrejected q' hfirst⟩
  · intro hmet
    exact haccepted hroom (first?_eq_none.2 hmet)

theorem run_governed_sample :
    let W := Workshop.run {} sample
    (W.perform (.act 1 (.construct (.beginNumberOf 0 .null)))).1 =
        some (.error (.rejected (.invalidCount .argument 0))) ∧
      ∃ p?, (W.perform (.act 1 (.finish 1))).1 = some (.ok p?) := by
  intro W
  obtain ⟨-, hcounted⟩ := run_governed sample 1 (.construct (.beginNumberOf 0 .null))
  obtain ⟨-, hfilled⟩ := run_governed sample 1 (.finish 1)
  refine ⟨(hcounted _ rfl).1 (.count .argument 0 1) rfl, ((hfilled _ rfl).2 ?_).2 ?_⟩
  · intro f c hc
    cases hc
    refine ⟨?_, fun name h => by cases h⟩
    intro n hn
    cases hn
    exact (Factory.room_draft (s := .empty) (d := (⟨.sum, .invalid, 1,
      #[⟨⟨0⟩, .decisionVariable⟩]⟩ : Draft .sum))).2 ⟨by decide, fun _ => by decide⟩
  · intro q hq
    obtain rfl := List.mem_singleton.1 hq
    exact Nat.le_refl 1

end ModelExpr.Workshop
