import ModelExpr.Proofs.Client.Tiling
import ModelExpr.Proofs.Workshop.Turns

namespace ModelExpr.Workshop

variable {j : Nat} {g : Factory}

theorem run_shaped (jobs : List Job) (hg : (Workshop.run {} jobs).factories[j]? = some g) :
    g.store.Shaped := by
  refine run_keeps (P := fun g => g.store.Shaped) ?_ ?_ jobs hg
  · intro o f hf
    rw [Factory.ofOptions_eq hf]
    rfl
  · intro c f g y _ hc hf hrun
    exact Call.perform_shaped hc hf hrun

theorem run_tiled (jobs : List Job) (hg : (Workshop.run {} jobs).factories[j]? = some g)
    (hfaultless : Workshop.FaultlessOn {} j jobs) : ∃ ns, g.store.Tiled ns := by
  induction jobs using List.reverseRecOn generalizing g with
  | nil => simp [Workshop.run] at hg
  | append_singleton jobs job ih =>
    have hsplit := answers_concat {} j jobs job
    have hearlier : Workshop.FaultlessOn {} j jobs := by
      intro z hz
      apply hfaultless z
      rw [hsplit]
      exact List.mem_append_left _ hz
    rw [run_concat] at hg
    cases perform_turns hg with
    | idle hg hc hy => exact ih hg hearlier
    | equipped o hnone hg hy =>
      rw [Factory.ofOptions_eq hg]
      exact ⟨[], .empty⟩
    | changed a p q y hg hc hq hy => exact ih hg hearlier
    | called f c y hf hc hrun hy =>
      obtain ⟨ns, hns⟩ := ih hf hearlier
      have hwithin := Within.call (Within.empty.run jobs) hc
      have hanswer : faulted (y.map some) = false := by
        apply hfaultless
        rw [hsplit, hy]
        exact List.mem_append_right _ (List.mem_singleton_self _)
      obtain ⟨ms, hms⟩ := Call.perform_tiled hwithin hns hrun (by rintro t rfl; cases hanswer)
      exact ⟨_, hms⟩

/-- Whatever was refused, left unfinished or begun elsewhere, the tables of a factory hold the lists
of its nodes and nothing else. -/
theorem run_divided (jobs : List Job) (hg : (Workshop.run {} jobs).factories[j]? = some g)
    (hfaultless : Workshop.FaultlessOn {} j jobs) : ∃ ns, g.store.Divided ns := by
  obtain ⟨ns, hns⟩ := run_tiled jobs hg hfaultless
  exact ⟨ns, hns.divided (run_shaped jobs hg)⟩

def foreign : List Job :=
  sample ++ [.act 1 (.finish 1), .act 1 (.construct (.beginTerm 1)), .act 1 (.addSlope 3 ⟨0⟩),
    .act 1 (.finishTerm 3 (.ofRef ⟨⟨0⟩, .decisionVariable⟩)), .act 1 (.construct (.beginSum 0)),
    .act 1 (.finish 4), .act 1 (.construct (.beginNumberOf 1 (.ofRef ⟨⟨0⟩, .sum⟩))),
    .act 1 (.finish 6)]

theorem run_divided_foreign : ∃ g, (Workshop.run {} foreign).factories[1]? = some g ∧
    g.store.operandSpans = [⟨0, 1⟩, .empty, ⟨1, 1⟩] ∧ ∃ ns, g.store.Divided ns := by
  exact ⟨_, rfl, rfl, run_divided (j := 1) foreign rfl (by decide)⟩

end ModelExpr.Workshop
