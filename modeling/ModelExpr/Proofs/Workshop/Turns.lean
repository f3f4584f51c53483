import ModelExpr.Proofs.Factory.Shape
import ModelExpr.Proofs.Workshop.AllOrNothing

namespace ModelExpr

theorem Product.Formed.change {a : Action Handle FunctionRef} {p q : Product}
    {y : Except Rejection Unit} (hp : p.Formed) (h : a.change? p = some (y, q)) : q.Formed := by
  cases Action.changes_of_change? h with
  | @add l i x d d' y hrun =>
    obtain ⟨rs, hrs⟩ := Draft.exists_operands_add x d
    obtain rfl := (congrArg Prod.snd hrun).symm.trans hrs
    exact hp
  | addSlope | addBreakpoint => trivial

theorem Client.eq_construct {C : Client} {a : Action Handle FunctionRef}
    {c : Construction Handle FunctionRef} (h : C.call? a = some (.construct c)) :
    a = .construct c := by
  cases a with
  | construct =>
    cases h
    rfl
  | finish | finishTerm =>
    simp only [call?] at h
    split at h <;> cases h
  | _ => cases h

namespace Job

def factory? : Job → Option Nat
  | .equip _ => none
  | .act j _ => some j

end Job

namespace Workshop

variable {W : Workshop} {job : Job} {jobs : List Job} {i j : Nat} {f g : Factory}

def answer? (W : Workshop) (j : Nat) (job : Job) : Option (Except Failure (Option Product)) :=
  if job.factory? = some j then (W.perform job).1 else none

def answers (W : Workshop) (j : Nat) : List Job → List (Except Failure (Option Product))
  | [] => []
  | job :: jobs => (W.answer? j job).toList ++ (W.perform job).2.answers j jobs

def faulted {α : Type} : Except Failure α → Bool
  | .error (.faulty _) => true
  | _ => false

/-- No job on factory `j` ends in a fault, after which a program does not go on. -/
def FaultlessOn (W : Workshop) (j : Nat) (jobs : List Job) : Prop :=
  ∀ y ∈ W.answers j jobs, faulted y = false

instance : Decidable (W.FaultlessOn j jobs) :=
  inferInstanceAs (Decidable (∀ y ∈ W.answers j jobs, faulted y = false))

inductive Turns (W : Workshop) (job : Job) (j : Nat) (g : Factory) : Prop where
  | idle (hg : W.factories[j]? = some g) (hc : W.call? j job = none) (hy : W.answer? j job = none)
  | equipped (o : Options) (hnone : W.factories[j]? = none) (hg : Factory.ofOptions o = .ok g)
    (hy : W.answer? j job = none)
  | changed (a : Action Handle FunctionRef) (p q : Product) (y : Except Rejection Unit)
    (hg : W.factories[j]? = some g) (hc : W.call? j job = none) (hq : a.change? p = some (y, q))
    (hy : W.answer? j job = some ((y.map fun _ => none).mapError .rejected))
  | called (f : Factory) (c : Call) (y : Except Failure Product) (hf : W.factories[j]? = some f)
    (hc : W.call? j job = some (f, c)) (hrun : c.perform.run f = (y, g))
    (hy : W.answer? j job = some (y.map some))

theorem answer?_other {a : Action Handle FunctionRef} (h : i ≠ j) :
    W.answer? j (.act i a) = none :=
  if_neg fun he => h (Option.some.inj he)

theorem answer?_absent (h : W.factories[j]? = none) : W.answer? j job = none := by
  cases job with
  | equip o => rfl
  | act i a =>
    by_cases hij : i = j
    · subst hij
      simp only [answer?, perform, h, ite_self]
    · exact answer?_other hij

theorem perform_stays (hf : W.factories[j]? = some f) (job : Job) :
    ∃ g, (W.perform job).2.factories[j]? = some g :=
  (perform_extends hf).imp fun _ h => h.1

theorem perform_absent (h : (W.perform job).2.factories[j]? = none) : W.factories[j]? = none := by
  by_contra hsome
  obtain ⟨f, hf⟩ := Option.ne_none_iff_exists'.1 hsome
  obtain ⟨g, hg⟩ := perform_stays hf job
  cases h.symm.trans hg

theorem perform_turns (hg : (W.perform job).2.factories[j]? = some g) : W.Turns job j g := by
  cases job with
  | equip o =>
    simp only [perform] at hg
    split at hg
    case h_1 f hf =>
      obtain ⟨-, hj⟩ | ⟨rfl, rfl⟩ := getElem?_concat hg
      · exact .idle hj rfl rfl
      · exact .equipped o (List.getElem?_eq_none (Nat.le_refl _)) hf rfl
    case h_2 => exact .idle hg rfl rfl
  | act i a =>
    cases hi : W.factories[i]? with
    | none =>
      have hidle : (W.perform (.act i a)).1 = none := by simp only [perform, hi]
      rw [perform_idle hidle] at hg
      refine .idle hg ?_ (by rw [answer?, hidle, ite_self])
      by_cases hij : i = j
      · subst hij
        rw [call?, if_pos rfl, hi]
        rfl
      · exact call?_other hij
    | some f =>
      obtain ⟨C, hgoes, hperform⟩ := perform_act (a := a) hi
      by_cases hij : i = j
      case neg =>
        rw [hperform, List.getElem?_set_ne hij] at hg
        exact .idle hg (call?_other hij) (answer?_other hij)
      case pos =>
        subst hij
        have hanswer : W.answer? i (.act i a) = C.history.head?.map (·.answer) := by
          rw [answer?, hperform]
          exact if_pos rfl
        have hcalled (c? : Option Call) (hc : (W.client f).call? a = c?) :
            W.call? i (.act i a) = c?.map fun c => (f, c) := by
          rw [call?_act hi, hc]
        rw [hperform, List.getElem?_set_self (List.getElem?_eq_some_iff.1 hi).1] at hg
        obtain rfl := Option.some.inj hg
        cases hgoes with
        | idle hcall => exact .idle hi (hcalled _ hcall) hanswer
        | changed k p q y hk hp hq =>
          exact .changed a p q y hi (hcalled _ (Client.call?_of_adds? hk)) hq hanswer
        | called c y g hc hrun => exact .called f c y hi (hcalled _ hc) hrun hanswer

theorem perform_products {P : Product → Prop} (hW : ∀ i p, W.product? i = some p → P p)
    (hchange : ∀ a p q y, P p → Action.change? p a = some (y, q) → P q)
    (hmake : ∀ (c : Call) f g q, c.perform.run f = (.ok q, g) → P q) :
    ∀ i p, (W.perform job).2.product? i = some p → P p := by
  cases job with
  | equip o =>
    simp only [perform]
    split <;> exact hW
  | act j a =>
    cases hj : W.factories[j]? with
    | none =>
      simp only [perform, hj]
      exact hW
    | some f =>
      obtain ⟨C, hgoes, hperform⟩ := perform_act (a := a) hj
      rw [hperform]
      intro i p hp
      cases hgoes with
      | idle => exact hW i p hp
      | changed k r q y hk hr hq =>
        obtain hp | rfl := Client.product?_update (C := W.client f) (a := a) hp
        · exact hW i p hp
        · exact hchange a r p y (hW k r hr) hq
      | called c y g hc hrun =>
        obtain hp | rfl := Client.product?_kept_append (C := W.client f) (a := a) hp
        · exact hW i p hp
        · exact hmake c f g p hrun

theorem run_concat (W : Workshop) (jobs : List Job) (job : Job) :
    W.run (jobs ++ [job]) = ((W.run jobs).perform job).2 := by
  rw [run, List.foldl_append]
  rfl

theorem run_products {P : Product → Prop}
    (hchange : ∀ a p q y, P p → Action.change? p a = some (y, q) → P q)
    (hmake : ∀ (c : Call) f g q, c.perform.run f = (.ok q, g) → P q) (jobs : List Job) :
    ∀ i p, (Workshop.run {} jobs).product? i = some p → P p := by
  induction jobs using List.reverseRecOn with
  | nil =>
    intro i p hp
    simp [Workshop.run, product?] at hp
  | append_singleton jobs job ih =>
    rw [run_concat]
    exact perform_products ih hchange hmake

def Formed (W : Workshop) : Prop := ∀ i p, W.product? i = some p → p.Formed

theorem Formed.run (jobs : List Job) : (Workshop.run {} jobs).Formed :=
  run_products (fun _ _ _ _ => Product.Formed.change) (fun _ _ _ _ => Call.perform_formed) jobs

theorem call?_eq_some {c : Call} (h : W.call? j job = some (f, c)) :
    ∃ a, job = .act j a ∧ W.factories[j]? = some f ∧ (W.client f).call? a = some c := by
  cases job with
  | equip o => cases h
  | act i a =>
    by_cases hij : i = j
    case neg =>
      rw [call?_other hij] at h
      cases h
    case pos =>
      subst hij
      cases hi : W.factories[i]? with
      | none =>
        rw [call?, if_pos rfl, hi] at h
        cases h
      | some f' =>
        rw [call?_act hi] at h
        obtain ⟨c', hc, h⟩ := Option.map_eq_some_iff.1 h
        cases h
        exact ⟨a, rfl, rfl, hc⟩

theorem Within.call (hW : W.Within) {c : Call} (h : W.call? j job = some (f, c)) : c.Within := by
  obtain ⟨a, -, -, hc⟩ := call?_eq_some h
  exact Client.Within.call (C := W.client f) hW hc

theorem Formed.call (hW : W.Formed) {c : Call} (h : W.call? j job = some (f, c)) : c.Formed := by
  obtain ⟨a, -, -, hc⟩ := call?_eq_some h
  cases a with
  | construct =>
    cases hc
    trivial
  | finish | finishTerm =>
    simp only [Client.call?] at hc
    split at hc <;> cases hc
    exact hW _ _ ‹_›
  | _ => cases hc

theorem answers_concat (W : Workshop) (j : Nat) (jobs : List Job) (job : Job) :
    W.answers j (jobs ++ [job]) = W.answers j jobs ++ ((W.run jobs).answer? j job).toList := by
  induction jobs generalizing W with
  | nil => exact List.append_nil _
  | cons first jobs ih =>
    rw [List.cons_append, answers, answers, ih, List.append_assoc]
    rfl

theorem run_keeps {P : Factory → Prop} (hnew : ∀ o f, Factory.ofOptions o = .ok f → P f)
    (hcall : ∀ (c : Call) f g y, c.Within → c.Formed → P f → c.perform.run f = (y, g) → P g)
    (jobs : List Job) (hg : (Workshop.run {} jobs).factories[j]? = some g) : P g := by
  induction jobs using List.reverseRecOn generalizing g with
  | nil => simp [Workshop.run] at hg
  | append_singleton jobs job ih =>
    rw [run_concat] at hg
    cases perform_turns hg with
    | idle hg hc hy => exact ih hg
    | equipped o hnone hg hy => exact hnew o g hg
    | changed a p q y hg hc hq hy => exact ih hg
    | called f c y hf hc hrun hy =>
      have hwithin := Within.call (Within.empty.run jobs) hc
      exact hcall c f g y hwithin ((Formed.run jobs).call hc) (ih hf) hrun

end Workshop

end ModelExpr
