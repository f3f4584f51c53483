import ModelExpr.Proofs.Store.Spelling
import ModelExpr.Proofs.Workshop.Turns

namespace ModelExpr

theorem Construction.node?_draft {c : Construction Handle FunctionRef} {m : Nat} {q : Product}
    (h : c.plan m = .ok (.draft q)) : c.node? = none := by
  cases plan_opens h <;> rfl

namespace Call

variable {c : Call} {f g : Factory} {q : Product} {ns : List PlainNode}

def accepted? (c : Call) : Except Failure Product → Option PlainNode
  | .ok _ => c.node?
  | .error _ => none

theorem perform_spells {y : Except Failure Product} (hs : f.store.Spells ns)
    (h : c.perform.run f = (y, g)) : g.store.Spells (ns ++ (c.accepted? y).toList) := by
  have hpadded (hnone : c.accepted? y = none) (hpads : f.store.Pads g.store) :
      g.store.Spells (ns ++ (c.accepted? y).toList) := by
    rw [hnone, Option.toList_none, List.append_nil]
    exact hs.pads hpads
  cases perform_ends h with
  | refused r hstays => exact hpadded rfl (hstays.store_eq ▸ .refl _)
  | overfull e hoverfull hpads => exact hpadded rfl hpads.store
  | laid v k n hn hlays =>
    rw [accepted?, hn]
    exact hs.adds hlays.adds.store
  | known name x hc hx hg =>
    subst hc hg
    exact hpadded rfl (.refl _)
  | registered name x hc hregisters =>
    subst hc
    exact hpadded rfl hregisters.pads
  | drafted b q hc hq hg =>
    subst hc hg
    exact hpadded (Construction.node?_draft hq) (.refl _)

end Call

namespace Workshop

variable {W : Workshop} {job : Job} {jobs : List Job} {j : Nat} {g : Factory}

def lays? (W : Workshop) (j : Nat) (job : Job) : Option PlainNode :=
  (W.call? j job).bind fun (f, c) => c.accepted? (c.perform.run f).1

def laid (W : Workshop) (j : Nat) : List Job → List PlainNode
  | [] => []
  | job :: jobs => (W.lays? j job).toList ++ (W.perform job).2.laid j jobs

theorem laid_concat (W : Workshop) (j : Nat) (jobs : List Job) (job : Job) :
    W.laid j (jobs ++ [job]) = W.laid j jobs ++ ((W.run jobs).lays? j job).toList := by
  induction jobs generalizing W with
  | nil => exact List.append_nil _
  | cons first jobs ih =>
    rw [List.cons_append, laid, laid, ih, List.append_assoc]
    rfl

theorem lays?_absent (h : W.factories[j]? = none) : W.lays? j job = none := by
  cases hc : W.call? j job with
  | none => rw [lays?, hc, Option.bind_none]
  | some p =>
    obtain ⟨f, c⟩ := p
    obtain ⟨a, -, hf, -⟩ := call?_eq_some hc
    cases h.symm.trans hf

theorem laid_absent (h : (Workshop.run {} jobs).factories[j]? = none) :
    Workshop.laid {} j jobs = [] := by
  induction jobs using List.reverseRecOn with
  | nil => rfl
  | append_singleton jobs job ih =>
    rw [run_concat] at h
    have hearlier := perform_absent h
    rw [laid_concat, ih hearlier, lays?_absent hearlier]
    rfl

theorem run_spells (jobs : List Job) (hg : (Workshop.run {} jobs).factories[j]? = some g) :
    g.store.Spells (Workshop.laid {} j jobs) := by
  induction jobs using List.reverseRecOn generalizing g with
  | nil => simp [Workshop.run] at hg
  | append_singleton jobs job ih =>
    rw [run_concat] at hg
    rw [laid_concat]
    cases perform_turns hg with
    | idle hg hc hy | changed a p q y hg hc hq hy =>
      rw [lays?, hc, Option.bind_none, Option.toList_none, List.append_nil]
      exact ih hg
    | equipped o hnone hg hy =>
      rw [laid_absent hnone, lays?_absent hnone, Factory.ofOptions_eq hg]
      exact .empty
    | called f c y hf hc hrun hy =>
      have hlays : (Workshop.run {} jobs).lays? j job = c.accepted? y := by
        rw [lays?, hc]
        exact congrArg (fun z => c.accepted? z.1) hrun
      rw [hlays]
      exact Call.perform_spells (ih hf) hrun

def Nodewise (Q : Store → Nat → PlainNode → Prop) (j : Nat) (W : Workshop) : Prop :=
  ∀ g, W.factories[j]? = some g → ∃ ns, g.store.Spells ns ∧
    ∀ (i : Nat) (n : PlainNode), ns[i]? = some n → Q g.store i n

theorem Nodewise.empty (Q : Store → Nat → PlainNode → Prop) : Nodewise Q j {} := by
  rintro g ⟨⟩

theorem Nodewise.perform {Q : Store → Nat → PlainNode → Prop} (h : W.Nodewise Q j)
    (hgrow : ∀ s t i n, s.Extends t → Q s i n → Q t i n)
    (hlay : ∀ f c n, W.call? j job = some (f, c) → c.node? = some n →
      Q f.store f.store.nodes.size n) : (W.perform job).2.Nodewise Q j := by
  intro g hg
  cases perform_turns hg with
  | idle hg hc hy | changed a p q y hg hc hq hy => exact h g hg
  | equipped o hnone hg hy =>
    rw [Factory.ofOptions_eq hg]
    refine ⟨[], .empty, ?_⟩
    rintro i n ⟨⟩
  | called f c y hf hc hrun hy =>
    obtain ⟨ns, hns, hholds⟩ := h f hf
    have hext := (Call.perform_ends hrun).extends_store
    refine ⟨_, Call.perform_spells hns hrun, ?_⟩
    intro i n hn
    apply hgrow _ _ i n hext
    cases hnew : c.accepted? y with
    | none =>
      rw [hnew, Option.toList_none, List.append_nil] at hn
      exact hholds i n hn
    | some m =>
      rw [hnew] at hn
      obtain ⟨-, hn⟩ | ⟨rfl, rfl⟩ := getElem?_concat hn
      · exact hholds i n hn
      · cases y with
        | error e => cases hnew
        | ok q =>
          rw [hns.length_eq]
          exact hlay f c n hc hnew

end Workshop

end ModelExpr
