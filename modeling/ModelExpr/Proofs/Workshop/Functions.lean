import Mathlib
import ModelExpr.Proofs.Factory.Functions
import ModelExpr.Proofs.Workshop.Deeds

namespace ModelExpr

def Action.name? {H : View → Type} {F : Type} : Action H F → Option String
  | .construct (.addFunction name) => some name
  | _ => none

theorem Action.name?_eq_some {H : View → Type} {F : Type} {a : Action H F} {name : String} :
    a.name? = some name ↔ a = .construct (.addFunction name) := by
  constructor
  · intro h
    unfold name? at h
    split at h <;> cases h
    rfl
  · rintro rfl
    rfl

namespace Deed

def function? (d : Deed) : Option FunctionRef := d.answer.toOption.join.bind Product.function?

def registration? (d : Deed) : Option (String × FunctionRef) := do
  return (← d.action.name?, ← d.function?)

theorem registration?_of_function? {d : Deed} (h : d.function? = none) : d.registration? = none := by
  rw [registration?, h]
  cases d.action.name? <;> rfl

end Deed

namespace Factory.Tabulates

variable {C : Client} {a : Action Handle FunctionRef} {c : Call} {y : Except Failure Product}
  {f g : Factory} {rs : List (String × FunctionRef)}

theorem other (hf : f.Tabulates rs) (hnames : g.names? = f.names?)
    (hfunctions : g.store.functions = f.store.functions) {d : Deed} (hd : d.function? = none) :
    g.Tabulates (rs ++ d.registration?.toList) := by
  rw [Deed.registration?_of_function? hd, Option.toList_none, List.append_nil]
  exact hf.congr hnames hfunctions

theorem call (hf : C.factory.Tabulates rs) (ha : C.call? a = some c)
    (hrun : c.perform.run C.factory = (y, g)) :
    g.Tabulates (rs ++ (Deed.registration? ⟨a, y.map some⟩).toList) := by
  cases y with
  | error e =>
    have hnames : g.names? = C.factory.names? := by
      cases Call.perform_ends hrun with
      | refused r h => exact h.names_eq
      | overfull e h hpads => exact hpads.names_eq
    exact hf.other hnames (Call.functions_failed hrun) rfl
  | ok q =>
    cases Call.perform_ends hrun with
    | laid v k n hn h => exact hf.other h.names_eq (by rw [h.store_eq]; rfl) rfl
    | known name x hc hx hg =>
      subst hc hg
      rw [Deed.registration?, Action.name?_eq_some.2 (Client.eq_construct ha)]
      exact hf.known hx
    | registered name x hc h =>
      subst hc
      rw [Deed.registration?, Action.name?_eq_some.2 (Client.eq_construct ha)]
      exact hf.registers h
    | drafted b q hc hq hg =>
      have hfunction : q.function? = none := by cases Construction.plan_opens hq <;> rfl
      exact hf.other (by rw [hg]) (by rw [hg]) hfunction

end Factory.Tabulates

theorem Call.Ends.reuses_eq {c : Call} {f g : Factory} {y : Except Failure Product}
    (h : c.Ends f g y) : g.reuses = f.reuses := by
  have hcongr (hnames : g.names? = f.names?) : g.reuses = f.reuses := congrArg Option.isSome hnames
  cases h with
  | refused r h => exact hcongr h.names_eq
  | overfull e h hpads => exact hcongr hpads.names_eq
  | laid v k n hn h => exact hcongr h.names_eq
  | known name x hc hx hg => exact hcongr (by rw [hg])
  | registered name x hc h => rw [Factory.reuses, Factory.reuses, h.names_eq, Option.isSome_map]
  | drafted b q hc hq hg => exact hcongr (by rw [hg])

theorem Factory.reuses_ofOptions {o : Options} {f : Factory} (h : ofOptions o = .ok f) :
    f.reuses = o.reuseNames := by
  rw [ofOptions_eq h]
  cases o.reuseNames <;> rfl

theorem Factory.addFunction_accepted {f : Factory} (hroom : f.store.functions.size < UInt32.size)
    (name : String) : ∃ x g, (addFunction name).run f = (.ok x, g) := by
  rw [addFunction_run]
  split
  · exact ⟨_, _, rfl⟩
  · rw [register_run, if_pos hroom]
    exact ⟨_, _, rfl⟩

def Job.name? (j : Nat) : Job → Option String
  | .equip _ => none
  | .act i a => if i = j then a.name? else none

namespace Workshop

variable {W : Workshop} {j : Nat} {f g : Factory}

def registrations (W : Workshop) (j : Nat) (jobs : List Job) : List (String × FunctionRef) :=
  (W.deeds j jobs).filterMap Deed.registration?

theorem answer?_construct (hf : W.factories[j]? = some f) (c : Construction Handle FunctionRef) :
    W.answer? j (.act j (.construct c)) = some ((c.perform.run f).1.map some) := by
  rw [answer?, perform, hf]
  exact if_pos rfl

theorem registration?_deed? (hf : W.factories[j]? = some f)
    (hroom : f.store.functions.size < UInt32.size) (job : Job) :
    ((W.deed? j job).bind Deed.registration?).map (·.1) = job.name? j := by
  cases job with
  | equip o => rfl
  | act i a =>
    by_cases hij : i = j
    · subst hij
      rw [Job.name?, if_pos rfl]
      cases ha : a.name? with
      | none =>
        rw [deed?]
        cases W.answer? i (.act i a) with
        | none => rfl
        | some y => rw [Option.map_some, Option.bind_some, Deed.registration?, ha]; rfl
      | some name =>
        obtain rfl := Action.name?_eq_some.1 ha
        obtain ⟨x, g, hx⟩ := Factory.addFunction_accepted hroom name
        have hrun : (Construction.addFunction name).perform.run f = (.ok (.function x), g) := by
          rw [Construction.perform, FactoryM.run_map, hx]
          rfl
        rw [deed?, answer?_construct hf, hrun]
        rfl
    · rw [deed?, answer?_other hij, Job.name?, if_neg hij]
      rfl

theorem registrations_concat (W : Workshop) (j : Nat) (jobs : List Job) (job : Job) :
    W.registrations j (jobs ++ [job]) = W.registrations j jobs ++
      (((W.run jobs).deed? j job).bind Deed.registration?).toList := by
  rw [registrations, deeds_concat]
  cases (W.run jobs).deed? j job with
  | none => simp [registrations]
  | some d => exact filterMap_concat _ _ d

theorem run_names (hf : W.factories[j]? = some f) (jobs : List Job)
    (hg : (W.run jobs).factories[j]? = some g) (hroom : g.store.functions.size < UInt32.size) :
    (W.registrations j jobs).map (·.1) = jobs.filterMap (Job.name? j) := by
  induction jobs using List.reverseRecOn generalizing g with
  | nil => rfl
  | append_singleton jobs job ih =>
    obtain ⟨e, he, -⟩ := run_extends hf jobs
    obtain ⟨g', hg', hextends⟩ := run_extends he [job]
    rw [run_concat] at hg
    cases hg.symm.trans hg'
    have hearlier := Nat.lt_of_le_of_lt hextends.functions_le hroom
    have hlast := registration?_deed? he hearlier job
    rw [registrations_concat, List.map_append, ih he hearlier, filterMap_concat, ← Option.toList_map,
      hlast]

theorem run_tabulates (hold : ∀ f, W.factories[j]? = some f → f.Tabulates []) (jobs : List Job)
    (hg : (W.run jobs).factories[j]? = some g) : g.Tabulates (W.registrations j jobs) := by
  refine run_deeds (P := fun f ds => f.Tabulates (ds.filterMap Deed.registration?))
    hold (fun _ _ _ => .ofOptions) ?_ ?_ jobs hg
  · intro f ds a y hf
    rw [filterMap_concat]
    exact hf.other rfl rfl (by cases y <;> rfl)
  · intro C ds a c y g ha hrun hf
    rw [filterMap_concat]
    exact hf.call ha hrun

theorem run_reuses (hf : W.factories[j]? = some f) (jobs : List Job)
    (hg : (W.run jobs).factories[j]? = some g) : g.reuses = f.reuses := by
  refine run_deeds (P := fun g _ => g.reuses = f.reuses) ?_ ?_ ?_ ?_ jobs hg
  · intro f' hf'
    rw [Option.some.inj (hf.symm.trans hf')]
  · intro hnone
    cases hf.symm.trans hnone
  · exact fun _ _ _ _ h => h
  · intro C ds a c y g _ hrun h
    exact (Call.perform_ends hrun).reuses_eq.trans h

/-- After every run, and so in every later state, each function that was given has its name. Where
names are reused, the functions are the names in the order in which they first came, the index is a map
from these to their positions, and functions are equal exactly when their names are. Where they are
not, every registration gives a function of its own. -/
theorem run_functions {o : Options} (ho : Factory.ofOptions o = .ok f)
    (hf : W.factories[j]? = some f) (jobs : List Job)
    (hg : (W.run jobs).factories[j]? = some g) (hroom : g.store.functions.size < UInt32.size) :
    let rs := W.registrations j jobs
    let names := rs.map (·.1)
    let refs := rs.map (·.2)
    names = jobs.filterMap (Job.name? j) ∧
      (∀ r ∈ rs, r.2.isNull = false ∧ g.store.functionName r.2 = .ok r.1) ∧
      (o.reuseNames = true →
        g.store.functions.toList = names.eraseDups ∧ g.store.functions.toList.Nodup ∧
          (∀ name, g.known? name = (g.store.functions.toList.idxOf? name).map fun i => ⟨i.toUInt32⟩) ∧
          (∀ r ∈ rs, ∀ t ∈ rs, r.2 = t.2 ↔ r.1 = t.1) ∧
          refs.eraseDups.length = g.store.functions.size ∧
          ∀ i, g.store.function? i = refs.eraseDups[i]?) ∧
      (o.reuseNames = false →
        g.store.functions.toList = names ∧ refs.Nodup ∧ refs.length = g.store.functions.size ∧
          ∀ i, g.store.function? i = refs[i]?) := by
  intro rs names refs
  have hnew (f' : Factory) (hf' : W.factories[j]? = some f') : f'.Tabulates [] := by
    rw [← Option.some.inj (hf.symm.trans hf')]
    exact .ofOptions ho
  have hall := run_tabulates hnew jobs hg
  have hreuses := (run_reuses hf jobs hg).trans (Factory.reuses_ofOptions ho)
  have hnames := hall.names
  have hnodup := hall.nodup_refs
  have hlength := hall.length_refs
  have hpositions := hall.getElem?_refs
  rw [hreuses] at hnames hnodup hlength hpositions
  refine ⟨run_names hf jobs hg hroom, ?_, ?_, ?_⟩
  · intro r hr
    exact hall.named hroom hr
  · intro hreuse
    rw [hreuse] at hreuses hnames hlength hpositions
    refine ⟨hnames, ?_, hall.index hreuses, ?_, hlength, fun i => (hpositions i).symm⟩
    · rw [hnames]
      exact nodup_eraseDups names
    · intro r hr t ht
      exact hall.eq_iff hreuses hr ht
  · intro hreuse
    rw [hreuse] at hnames hnodup hlength hpositions
    exact ⟨hnames, hnodup, hlength, fun i => (hpositions i).symm⟩

def named : List Job :=
  ["f", "g", "f"].flatMap fun name =>
    [.act 0 (.construct (.addFunction name)), .act 0 (.construct (.logicalConstant true))]

theorem run_functions_named : ∃ g h,
    (Workshop.run { factories := [{ names? := some ∅ }] } named).factories[0]? = some g ∧
      (Workshop.run { factories := [{}] } named).factories[0]? = some h ∧
        g.store.functions.toList = ["f", "g"] ∧ g.known? "g" = some ⟨1⟩ ∧
          h.store.functions.toList = ["f", "g", "f"] ∧ h.store.function? 3 = none := by
  obtain ⟨g, hg, -⟩ :=
    run_extends (W := { factories := [{ names? := some ∅ }] }) (j := 0) rfl named
  obtain ⟨h, hh, -⟩ := run_extends (W := { factories := [{}] }) (j := 0) rfl named
  have hsize : (Workshop.run { factories := [{ names? := some ∅ }] } named).factories[0]?.map
      (·.store.functions.size) = some 2 := by cbv
  have hsize' : (Workshop.run { factories := [{}] } named).factories[0]?.map
      (·.store.functions.size) = some 3 := by cbv
  rw [hg, Option.map_some, Option.some.injEq] at hsize
  rw [hh, Option.map_some, Option.some.injEq] at hsize'
  obtain ⟨hnames, -, hreused, -⟩ :=
    run_functions (o := { reuseNames := true }) (j := 0) rfl rfl named hg (by rw [hsize]; decide)
  obtain ⟨hnames', -, -, hrepeated⟩ :=
    run_functions (o := {}) (j := 0) rfl rfl named hh (by rw [hsize']; decide)
  obtain ⟨hfunctions, -, hindex, -⟩ := hreused rfl
  obtain ⟨hfunctions', -, hlength, hpositions⟩ := hrepeated rfl
  rw [hnames] at hfunctions
  rw [hnames'] at hfunctions'
  refine ⟨g, h, hg, hh, hfunctions.trans (by decide +kernel), ?_, hfunctions', ?_⟩
  · rw [hindex, hfunctions]
    decide +kernel
  · rw [hpositions]
    exact List.getElem?_eq_none (by rw [hlength, hsize'])

end Workshop

end ModelExpr
