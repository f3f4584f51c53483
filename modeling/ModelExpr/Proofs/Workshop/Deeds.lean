import ModelExpr.Proofs.Factory.Issued
import ModelExpr.Proofs.Workshop.Turns

namespace ModelExpr.Workshop

variable {W : Workshop} {job : Job} {jobs : List Job} {j : Nat} {f g : Factory}

def deed? (W : Workshop) (j : Nat) : Job → Option Deed
  | .equip _ => none
  | .act i a => (W.answer? j (.act i a)).map fun y => ⟨a, y⟩

def deeds (W : Workshop) (j : Nat) : List Job → List Deed
  | [] => []
  | job :: jobs => (W.deed? j job).toList ++ (W.perform job).2.deeds j jobs

theorem deeds_concat (W : Workshop) (j : Nat) (jobs : List Job) (job : Job) :
    W.deeds j (jobs ++ [job]) = W.deeds j jobs ++ ((W.run jobs).deed? j job).toList := by
  induction jobs generalizing W with
  | nil => exact List.append_nil _
  | cons first jobs ih =>
    rw [List.cons_append, deeds, deeds, ih, List.append_assoc]
    rfl

theorem answer_deed? : (W.deed? j job).map (·.answer) = W.answer? j job := by
  cases job with
  | equip o => rfl
  | act i a =>
    rw [deed?, Option.map_map]
    exact Option.map_id'

theorem answers_eq : W.answers j jobs = (W.deeds j jobs).map (·.answer) := by
  induction jobs generalizing W with
  | nil => rfl
  | cons job jobs ih =>
    rw [answers, deeds, List.map_append, ih, ← answer_deed?]
    cases W.deed? j job <;> rfl

theorem deed?_eq_none (h : W.answer? j job = none) : W.deed? j job = none := by
  rw [← answer_deed?] at h
  exact Option.map_eq_none_iff.1 h

theorem exists_deed? {y : Reply} (h : W.answer? j job = some y) :
    ∃ a, W.deed? j job = some ⟨a, y⟩ := by
  rw [← answer_deed?] at h
  obtain ⟨d, hd, rfl⟩ := Option.map_eq_some_iff.1 h
  exact ⟨d.action, hd⟩

theorem run_absent (h : (W.run jobs).factories[j]? = none) : W.factories[j]? = none := by
  induction jobs generalizing W with
  | nil => exact h
  | cons job jobs ih => exact perform_absent (ih h)

theorem deeds_absent (h : (W.run jobs).factories[j]? = none) : W.deeds j jobs = [] := by
  induction jobs generalizing W with
  | nil => rfl
  | cons job jobs ih =>
    have hfirst : (W.perform job).2.factories[j]? = none := run_absent h
    rw [deeds, deed?_eq_none (answer?_absent (perform_absent hfirst)), ih h]
    rfl

theorem run_deeds {P : Factory → List Deed → Prop}
    (hold : ∀ f, W.factories[j]? = some f → P f [])
    (hnew : W.factories[j]? = none → ∀ o f, Factory.ofOptions o = .ok f → P f [])
    (hchange : ∀ f ds a (y : Except Rejection Unit), P f ds →
      P f (ds ++ [⟨a, (y.map fun _ => none).mapError .rejected⟩]))
    (hcall : ∀ (C : Client) ds a c y g, C.call? a = some c → c.perform.run C.factory = (y, g) →
      P C.factory ds → P g (ds ++ [⟨a, y.map some⟩]))
    (jobs : List Job) (hg : (W.run jobs).factories[j]? = some g) : P g (W.deeds j jobs) := by
  induction jobs using List.reverseRecOn generalizing g with
  | nil => exact hold g hg
  | append_singleton jobs job ih =>
    rw [run_concat] at hg
    rw [deeds_concat]
    cases perform_turns hg with
    | idle hg hc hy =>
      rw [deed?_eq_none hy, Option.toList_none, List.append_nil]
      exact ih hg
    | equipped o hnone hg hy =>
      rw [deed?_eq_none hy, deeds_absent hnone]
      exact hnew (run_absent hnone) o g hg
    | changed a p q y hg hc hq hy =>
      obtain ⟨b, hb⟩ := exists_deed? hy
      rw [hb]
      exact hchange g _ b y (ih hg)
    | called f c y hf hc hrun hy =>
      obtain ⟨a, rfl, -, ha⟩ := call?_eq_some hc
      rw [deed?, hy]
      exact hcall ((W.run jobs).client f) _ a c y g ha hrun (ih hf)

theorem run_issued (jobs : List Job) (hg : (Workshop.run {} jobs).factories[j]? = some g) :
    g.Issued ((Workshop.deeds {} j jobs).map (·.answer)) := by
  refine run_deeds (P := fun f ds => f.Issued (ds.map (·.answer))) ?_ ?_ ?_ ?_ jobs hg
  · intro f hf
    cases hf
  · intro _ o f hf
    exact .ofOptions hf
  · intro f ds a y hf
    rw [List.map_append]
    exact hf.change y
  · intro C ds a c y g _ hrun hf
    rw [List.map_append]
    exact hf.call (Call.perform_ends hrun)

end ModelExpr.Workshop
