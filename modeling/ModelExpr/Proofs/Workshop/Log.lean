import ModelExpr.Proofs.Factory.Records
import ModelExpr.Proofs.Session.Silence
import ModelExpr.Proofs.Workshop.Deeds
import ModelExpr.Proofs.Workshop.Tables

namespace ModelExpr.Workshop

def reports (W : Workshop) (j : Nat) (job : Job) : List Event :=
  match W.call? j job with
  | some (f, c) => c.reports f (c.perform.run f).1
  | none => []

variable {W : Workshop} {job : Job} {jobs : List Job} {j : Nat} {f g : Factory}

theorem perform_log (hf : W.factories[j]? = some f)
    (hg : (W.perform job).2.factories[j]? = some g) :
    g.log.toList = f.log.toList ++ W.reports j job := by
  cases perform_turns hg with
  | idle hg hc hy | changed a p q y hg hc hq hy =>
    obtain rfl := Option.some.inj (hf.symm.trans hg)
    rw [reports, hc]
    exact (List.append_nil _).symm
  | equipped o hnone hg hy => cases hf.symm.trans hnone
  | called f' c y hf' hc hrun hy =>
    obtain rfl := Option.some.inj (hf.symm.trans hf')
    simp only [reports, hc, hrun]
    exact Call.perform_log hrun

theorem run_logged (jobs : List Job) (hg : (Workshop.run {} jobs).factories[j]? = some g) :
    g.Logged := by
  refine run_keeps (P := Factory.Logged) ?_ ?_ jobs hg
  · intro o f
    exact .ofOptions
  · intro c f g y hwithin hformed hf hrun
    exact Call.perform_logged hwithin hformed hf hrun

theorem answer?_call {c : Call} (hc : W.call? j job = some (f, c)) :
    W.answer? j job = some ((c.perform.run f).1.map some) := by
  obtain ⟨a, -, hf, -⟩ := call?_eq_some hc
  obtain ⟨g, hg⟩ := perform_stays hf job
  cases perform_turns hg with
  | idle hg hnone hy | changed a p q y hg hnone hq hy => cases hc.symm.trans hnone
  | equipped o hnone hg hy => cases hf.symm.trans hnone
  | called f' c' y hf' hc' hrun hy =>
    cases hc.symm.trans hc'
    rw [hrun]
    exact hy

theorem reports_lasting {e : Event} (he : e ∈ W.reports j job) (hlasting : e.rejects = false) :
    ∃ p, W.answer? j job = some (.ok (some p)) ∧ (p.handle?.isSome = true ∨ ∃ f name,
      W.factories[j]? = some f ∧ job = .act j (.construct (.addFunction name)) ∧
        f.known? name = none) := by
  cases hc : W.call? j job with
  | none =>
    rw [reports, hc] at he
    cases he
  | some called =>
    obtain ⟨f, c⟩ := called
    obtain ⟨a, hjob, hf, hcall⟩ := call?_eq_some hc
    cases hrun : c.perform.run f with
    | mk y g =>
      simp only [reports, hc, hrun] at he
      obtain ⟨p, rfl, hmade⟩ := Call.lasting hrun he hlasting
      refine ⟨p, ?_, ?_⟩
      · rw [answer?_call hc, hrun]
        rfl
      · obtain hmade | ⟨name, rfl, hnew⟩ := hmade
        · exact .inl hmade
        · refine .inr ⟨f, name, hf, ?_, hnew⟩
          rw [hjob, Client.eq_construct hcall]

/-- The log of every factory is a record of its store, and only a job that makes an expression or
registers a new name adds to it, but for rejections. Nothing else that a session can be asked for
reports anything. -/
theorem run_recorded (jobs : List Job) :
    let W := Workshop.run {} jobs
    (∀ (j : Nat) (g : Factory), W.factories[j]? = some g →
      g.store.Records g.log.toList ∧ g.store.Numbered ∧ ∀ r ∈ g.store.refs, g.store.Tells r) ∧
    (∀ (j : Nat) (job : Job) (f g : Factory), W.factories[j]? = some f →
      (W.perform job).2.factories[j]? = some g → ∃ es, g.log.toList = f.log.toList ++ es ∧
        ∀ e ∈ es, e.rejects = false → ∃ p, W.answer? j job = some (.ok (some p)) ∧
          (p.handle?.isSome = true ∨ ∃ name, job = .act j (.construct (.addFunction name)) ∧
            f.known? name = none)) ∧
    ∀ (S : Session) (i : Nat) (c : Command), c.makes = false →
      ((SessionM.single i c).run S).2.log = S.log := by
  intro W
  refine ⟨?_, ?_, ?_⟩
  · intro j g hg
    have hlogged := run_logged jobs hg
    exact ⟨hlogged.records, hlogged.numbered, fun r => hlogged.legible.tells⟩
  · intro j job f g hf hg
    refine ⟨_, perform_log hf hg, ?_⟩
    intro e he hlasting
    obtain ⟨p, hp, hmade | ⟨f', name, hf', hjob, hnew⟩⟩ := reports_lasting he hlasting
    · exact ⟨p, hp, .inl hmade⟩
    · obtain rfl := Option.some.inj (hf.symm.trans hf')
      exact ⟨p, hp, .inr ⟨name, hjob, hnew⟩⟩
  · intro S i c hc
    exact SessionM.silent_single i hc S

theorem run_recorded_foreign : ∃ g, (Workshop.run {} foreign).factories[1]? = some g ∧
    g.log.toList = [.allocated .sum ⟨0⟩, .finishedList .sum ⟨0⟩ 1, .allocated .sum ⟨1⟩,
      .finishedList .sum ⟨1⟩ 0, .allocated .numberOf ⟨2⟩, .finishedList .numberOf ⟨2⟩ 1] ∧
        g.store.Records g.log.toList := by
  obtain ⟨hrecords, -⟩ := run_recorded foreign
  exact ⟨_, rfl, rfl, (hrecords 1 _ rfl).1⟩

theorem perform_rejections (hf : W.factories[j]? = some f)
    (hg : (W.perform job).2.factories[j]? = some g) : Rejects ((W.call? j job).map Prod.snd)
      ((W.answer? j job).bind underflow?) (W.reports j job) := by
  cases perform_turns hg with
  | idle hg hc hy =>
    rw [hy, reports, hc]
    exact .nil (by rintro ⟨⟩)
  | equipped o hnone hg hy => cases hf.symm.trans hnone
  | changed a p q y hg hc hq hy =>
    rw [hy, reports, hc]
    apply Rejects.nil
    cases y with
    | ok _ => rintro ⟨⟩
    | error r => exact underflow?_ne (Action.rejected_ne hq)
  | called f' c y hf' hc hrun hy =>
    obtain rfl := Option.some.inj (hf.symm.trans hf')
    simp only [reports, hc, hrun, hy, Option.bind_some, underflow?_map, Option.map_some]
    exact Call.rejections hrun

theorem countP_reports (hf : W.factories[j]? = some f)
    (hg : (W.perform job).2.factories[j]? = some g) :
    (W.reports j job).countP Event.rejects =
      (W.answer? j job).toList.countP fun y => underflow? y = some .argument := by
  rw [(perform_rejections hf hg).countP_eq]
  cases W.answer? j job with
  | none => rfl
  | some y => simp [List.countP_cons]

theorem answers_absent (h : (Workshop.run {} jobs).factories[j]? = none) :
    Workshop.answers {} j jobs = [] := by
  rw [answers_eq, deeds_absent h, List.map_nil]

theorem run_countP (jobs : List Job) (hg : (Workshop.run {} jobs).factories[j]? = some g) :
    g.log.toList.countP Event.rejects =
      (Workshop.answers {} j jobs).countP fun y => underflow? y = some .argument := by
  induction jobs using List.reverseRecOn generalizing g with
  | nil => simp [Workshop.run] at hg
  | append_singleton jobs job ih =>
    rw [run_concat] at hg
    rw [answers_concat, List.countP_append]
    cases hf : (Workshop.run {} jobs).factories[j]? with
    | some f => rw [perform_log hf hg, List.countP_append, ih hf, countP_reports hf hg]
    | none =>
      -- The job makes the factory, which has no answers from before.
      rw [answers_absent hf, answer?_absent hf]
      cases perform_turns hg with
      | equipped o hnone hg hy =>
        rw [Factory.ofOptions_eq hg]
        rfl
      | idle hg hc hy => cases hf.symm.trans hg
      | changed a p q y hg hc hq hy => cases hf.symm.trans hg
      | called f' c y hf' hc hrun hy => cases hf.symm.trans hf'

/-- The rejections in the log of a factory are as many as the lists that were ended there before they
were full. Nothing is reported when a term is ended too early. -/
theorem run_rejections (jobs : List Job) :
    let W := Workshop.run {} jobs
    (∀ (j : Nat) (g : Factory), W.factories[j]? = some g → g.log.toList.countP Event.rejects =
      (Workshop.answers {} j jobs).countP fun y => underflow? y = some .argument) ∧
    ∀ (j : Nat) (job : Job) (f g : Factory), W.factories[j]? = some f →
      (W.perform job).2.factories[j]? = some g → ∃ es, g.log.toList = f.log.toList ++ es ∧
        Rejects ((W.call? j job).map Prod.snd) ((W.answer? j job).bind underflow?) es := by
  intro W
  constructor
  · intro j g hg
    exact run_countP jobs hg
  · intro j job f g hf hg
    exact ⟨_, perform_log hf hg, perform_rejections hf hg⟩

def unfilled : List Job :=
  [.equip {}, .act 0 (.construct (.beginSum 1)), .act 0 (.finish 0),
    .act 0 (.construct (.beginTerm 1)), .act 0 (.finishTerm 1 .null)]

theorem run_rejections_unfilled : ∃ g, (Workshop.run {} unfilled).factories[0]? = some g ∧
    g.log.toList = [.rejectedList .sum 1 0] ∧ g.log.toList.countP Event.rejects =
      (Workshop.answers {} 0 unfilled).countP fun y => underflow? y = some .argument := by
  obtain ⟨hcount, -⟩ := run_rejections unfilled
  exact ⟨_, rfl, rfl, hcount 0 _ rfl⟩

theorem underfilled_term_unreported :
    (Workshop.answers {} 0 unfilled).countP (fun y => (underflow? y).isSome) = 2 ∧
      ∃ g, (Workshop.run {} unfilled).factories[0]? = some g ∧
        g.log.toList.countP Event.rejects = 1 := by
  exact ⟨rfl, _, rfl, rfl⟩

end ModelExpr.Workshop
