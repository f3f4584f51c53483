import ModelExpr.Proofs.Store.Persistence
import ModelExpr.Proofs.Workshop.Basic

namespace ModelExpr

structure Store.Remembers (s t : Store) : Prop where
  field : ∀ {v : View} {c : Content} (h : Handle v) (f : Field v c) (x : Except Rejection c.Value),
    s.read h f = x.mapError .rejected → t.read h f = x.mapError .rejected
  cursor : ∀ {l : ListView} (h : Handle l.view) c, s.cursor h = .ok c → t.cursor h = .ok c
  functionName : ∀ f name, s.functionName f = .ok name → t.functionName f = .ok name
  function? : ∀ i f, s.function? i = some f → t.function? i = some f
  expr? : ∀ i h, s.expr? i = some h → t.expr? i = some h
  kind? : ∀ i k, s.kind? i = some k → t.kind? i = some k

theorem Store.Extends.remembers {s t : Store} (h : s.Extends t) : s.Remembers t where
  field _ _ _ := h.read
  cursor x := h.cursor x
  functionName := h.functionName
  function? _ _ := h.function?
  expr? _ _ := h.expr?
  kind? _ _ := h.kind_eq

/-! ### What a job is on -/

namespace Job

def adds? : Job → Option Nat
  | .equip _ => none
  | .act _ a => a.adds?

def spends? : Job → Option Nat
  | .equip _ => none
  | .act _ a => a.spends?

end Job

namespace Workshop

def call? (W : Workshop) (j : Nat) : Job → Option (Factory × Call)
  | .equip _ => none
  | .act i a =>
    if i = j then W.factories[j]?.bind fun f => ((W.client f).call? a).map fun c => (f, c)
    else none

def gain? (W : Workshop) (j : Nat) (job : Job) : Option Gain :=
  match W.call? j job with
  | some (f, c) => c.gain? f
  | none => some {}

def kept (W : Workshop) (job : Job) : List (Option Product) :=
  match job.spends? with
  | some i => W.products.set i none
  | none => W.products

structure Refuses (W : Workshop) (job : Job) (W' : Workshop) : Prop where
  factories : ∀ (j : Nat) (f : Factory), W.factories[j]? = some f →
    ∃ g, W'.factories[j]? = some g ∧ f.Stays g
  products : W'.products = W.kept job

def Gains (W : Workshop) (job : Job) (j : Nat) (f g : Factory) : Prop :=
  ∃ a, W.gain? j job = some a ∧ f.store.GrowsBy g.store a ∧ (a.functions = [] → g.names? = f.names?)

/-- Every factory has its gain, and no draft has changed but one that the job adds to or takes away. A
draft that it finished was full. -/
structure Accepts (W : Workshop) (job : Job) (W' : Workshop) : Prop where
  factories : ∀ (j : Nat) (f : Factory), W.factories[j]? = some f →
    ∃ g, W'.factories[j]? = some g ∧ W.Gains job j f g
  products : ∀ i p, W.product? i = some p → job.adds? ≠ some i → job.spends? ≠ some i →
    W'.product? i = some p
  filled : ∀ j f c, W.call? j job = some (f, c) → c.Filled

section Job

variable {W : Workshop} {job : Job} {a : Action Handle FunctionRef} {i j : Nat} {f g : Factory}

theorem exists_set {R : Nat → Factory → Factory → Prop} (hi : W.factories[i]? = some f)
    (hfg : R i f g) (hother : ∀ j f, W.factories[j]? = some f → i ≠ j → R j f f) {f' : Factory}
    (hj : W.factories[j]? = some f') :
    ∃ g', (W.factories.set i g)[j]? = some g' ∧ R j f' g' := by
  by_cases hij : i = j
  · subst hij
    obtain rfl := Option.some.inj (hi.symm.trans hj)
    obtain ⟨hlt, -⟩ := List.getElem?_eq_some_iff.1 hi
    exact ⟨g, List.getElem?_set_self hlt, hfg⟩
  · refine ⟨f', ?_, hother j f' hj hij⟩
    rw [List.getElem?_set_ne hij]
    exact hj

theorem gains_refl (h : W.call? j job = none) : W.Gains job j f f :=
  ⟨{}, by rw [gain?, h], .refl _, fun _ => rfl⟩

theorem call?_other (h : i ≠ j) : W.call? j (.act i a) = none := if_neg h

theorem call?_act (hi : W.factories[i]? = some f) :
    W.call? i (.act i a) = ((W.client f).call? a).map fun c => (f, c) := by
  rw [call?, if_pos rfl, hi]
  rfl

theorem perform_act (hi : W.factories[i]? = some f) :
    ∃ C, (W.client f).Goes a C ∧ W.perform (.act i a) = (C.history.head?.map (·.answer),
      { factories := W.factories.set i C.factory, products := C.products }) := by
  refine ⟨_, Client.perform_goes (W.client f) a, ?_⟩
  simp only [perform, hi]

theorem product?_of_kept {p : Product} (hp : W.product? i = some p) (h : job.spends? ≠ some i) :
    (W.kept job)[i]?.join = some p := by
  unfold kept
  split
  case h_1 k hk =>
    rw [List.getElem?_set_ne]
    · exact hp
    · rintro rfl
      exact h hk
  case h_2 => exact hp

theorem set_product? {p : Product} (h : W.product? i = some p) :
    W.products.set i (some p) = W.products := by
  obtain ⟨hi, hp⟩ := List.getElem?_eq_some_iff.1 (Option.join_eq_some_iff.1 h)
  rw [← hp, List.set_getElem_self]

/-! ### One job -/

theorem perform_rejected {r : Rejection} (h : (W.perform job).1 = some (.error (.rejected r))) :
    W.Refuses job (W.perform job).2 := by
  cases job with
  | equip o =>
    simp only [perform] at h
    split at h <;> cases h
  | act i a =>
    cases hi : W.factories[i]? with
    | none =>
      simp only [perform, hi] at h
      cases h
    | some f =>
      obtain ⟨C, hgoes, hperform⟩ := perform_act (a := a) hi
      rw [hperform] at h ⊢
      have hset (g : Factory) (hg : f.Stays g) (j : Nat) (f' : Factory)
          (hj : W.factories[j]? = some f') :
          ∃ g', (W.factories.set i g)[j]? = some g' ∧ f'.Stays g' := by
        apply exists_set (R := fun _ => Factory.Stays) hi hg _ hj
        intro _ f'' _ _
        exact .refl f''
      cases hgoes with
      | idle => cases h
      | changed k p q y hk hp hq =>
        cases y with
        | ok _ => cases h
        | error e =>
          obtain rfl := Product.eq_of_change hq
          refine ⟨hset f (.refl f), ?_⟩
          have hspends : (Job.act i a).spends? = none := Action.spends?_of_adds? hk
          rw [kept, hspends]
          exact set_product? hp
      | called c y g hc hrun =>
        cases y with
        | ok q => cases h
        | error e =>
          cases h
          refine ⟨hset g ?_, List.append_nil _⟩
          cases Call.perform_ends hrun with
          | refused r h => exact h
          | overfull e h hpads =>
            obtain ⟨⟨t, ht⟩, -⟩ := h
            cases ht

theorem Accepts.changed (hi : W.factories[i]? = some f) {k : Nat} (hk : a.adds? = some k)
    (q : Product) : W.Accepts (.act i a)
      { factories := W.factories.set i f, products := W.products.set k (some q) } := by
  have hcall (j : Nat) : W.call? j (.act i a) = none := by
    by_cases hij : i = j
    · subst hij
      rw [call?_act hi, Client.call?_of_adds? hk]
      rfl
    · exact call?_other hij
  constructor
  · intro j f' hj
    apply exists_set (R := W.Gains (.act i a)) hi (gains_refl (hcall i)) _ hj
    intro _ _ _ _
    exact gains_refl (hcall _)
  · intro m r hr hadds _
    have hne : k ≠ m := by
      rintro rfl
      exact hadds hk
    change (W.products.set k (some q))[m]?.join = some r
    rw [List.getElem?_set_ne hne]
    exact hr
  · intro j f' c hc
    cases (hcall j).symm.trans hc

theorem Accepts.called (hW : W.Within) (hi : W.factories[i]? = some f) {c : Call} {q : Product}
    (hc : (W.client f).call? a = some c) (hrun : c.perform.run f = (.ok q, g)) :
    W.Accepts (.act i a)
      { factories := W.factories.set i g, products := W.kept (.act i a) ++ [some q] } := by
  have hcall : W.call? i (.act i a) = some (f, c) := by
    rw [call?_act hi, hc]
    rfl
  obtain ⟨b, hb, hgrows, hnames⟩ := (Call.perform_ends hrun).grows
  constructor
  · intro j f' hj
    apply exists_set (R := W.Gains (.act i a)) hi ⟨b, ?_, hgrows, hnames⟩ _ hj
    · rw [gain?, hcall]
      exact hb
    · intro _ _ _ hne
      exact gains_refl (call?_other hne)
  · intro m r hr _ hspends
    have hkept := Option.join_eq_some_iff.1 (product?_of_kept hr hspends)
    refine Option.join_eq_some_iff.2 ?_
    exact List.getElem?_append_left (List.getElem?_eq_some_iff.1 hkept).1 ▸ hkept
  · intro j f' c' hc'
    by_cases hij : i = j
    · subst hij
      cases hcall.symm.trans hc'
      exact Call.filled (Client.Within.call (C := W.client f) hW hc) hrun
    · cases (call?_other hij).symm.trans hc'

theorem perform_accepted (hW : W.Within) {p? : Option Product}
    (h : (W.perform job).1 = some (.ok p?)) : W.Accepts job (W.perform job).2 := by
  cases job with
  | equip o =>
    simp only [perform] at h ⊢
    split at h <;> cases h
    constructor
    · intro j f hj
      exact ⟨f, List.getElem?_append_left (List.getElem?_eq_some_iff.1 hj).1 ▸ hj, gains_refl rfl⟩
    · intro i p hp _ _
      exact hp
    · intro j f c hc
      cases hc
  | act i a =>
    cases hi : W.factories[i]? with
    | none =>
      simp only [perform, hi] at h
      cases h
    | some f =>
      obtain ⟨C, hgoes, hperform⟩ := perform_act (a := a) hi
      rw [hperform] at h ⊢
      cases hgoes with
      | idle => cases h
      | changed k p q y hk hp hq => exact .changed hi hk q
      | called c y g hc hrun =>
        cases y with
        | error e => cases h
        | ok q => exact .called hW hi hc hrun

theorem perform_extends (hj : W.factories[j]? = some f) :
    ∃ g, (W.perform job).2.factories[j]? = some g ∧ f.store.Extends g.store := by
  cases job with
  | equip o =>
    simp only [perform]
    split
    · exact ⟨f, List.getElem?_append_left (List.getElem?_eq_some_iff.1 hj).1 ▸ hj, .refl _⟩
    · exact ⟨f, hj, .refl _⟩
  | act i a =>
    cases hi : W.factories[i]? with
    | none =>
      simp only [perform, hi]
      exact ⟨f, hj, .refl _⟩
    | some f' =>
      obtain ⟨C, hgoes, hperform⟩ := perform_act (a := a) hi
      rw [hperform]
      apply exists_set (R := fun _ f g => f.store.Extends g.store) hi _ _ hj
      · cases hgoes with
        | idle | changed => exact .refl _
        | called c y g hc hrun => exact (Call.perform_ends hrun).extends_store
      · intro _ f'' _ _
        exact .refl _

end Job

/-! ### Runs -/

def Faultless (W : Workshop) : List Job → Prop
  | [] => True
  | job :: jobs => (∀ e, (W.perform job).1 ≠ some (.error (.faulty e))) ∧
    (W.perform job).2.Faultless jobs

def gain (W : Workshop) (j : Nat) (job : Job) : Gain :=
  match (W.perform job).1 with
  | some (.ok _) => (W.gain? j job).getD {}
  | _ => {}

def total (W : Workshop) (j : Nat) : List Job → Gain
  | [] => {}
  | job :: jobs => W.gain j job ++ (W.perform job).2.total j jobs

section Run

variable {W : Workshop} {j : Nat} {f : Factory}

theorem perform_idle {job : Job} (h : (W.perform job).1 = none) : (W.perform job).2 = W := by
  cases job with
  | equip o =>
    simp only [perform] at h
    split at h <;> cases h
  | act i a =>
    cases hi : W.factories[i]? with
    | none => simp only [perform, hi]
    | some f =>
      obtain ⟨C, hgoes, hperform⟩ := perform_act (a := a) hi
      rw [hperform] at h ⊢
      cases hgoes with
      | idle =>
        obtain ⟨hlt, rfl⟩ := List.getElem?_eq_some_iff.1 hi
        change Workshop.mk (W.factories.set i W.factories[i]) W.products = W
        rw [List.set_getElem_self]
      | changed | called => cases h

theorem run_extends (hj : W.factories[j]? = some f) (jobs : List Job) :
    ∃ g, (W.run jobs).factories[j]? = some g ∧ f.store.Extends g.store := by
  induction jobs generalizing W f with
  | nil => exact ⟨f, hj, .refl _⟩
  | cons job jobs ih =>
    obtain ⟨g, hg, hfirst⟩ := perform_extends hj
    obtain ⟨k, hk, hrest⟩ := ih hg
    exact ⟨k, hk, hfirst.trans hrest⟩

theorem perform_grows (hW : W.Within) (hj : W.factories[j]? = some f) {job : Job}
    (h : ∀ e, (W.perform job).1 ≠ some (.error (.faulty e))) :
    ∃ g, (W.perform job).2.factories[j]? = some g ∧ f.store.GrowsBy g.store (W.gain j job) := by
  unfold gain
  cases hy : (W.perform job).1 with
  | none =>
    rw [perform_idle hy]
    exact ⟨f, hj, .refl _⟩
  | some y =>
    cases y with
    | ok p? =>
      obtain ⟨g, hg, a, ha, hgrows, -⟩ := (perform_accepted hW hy).factories j f hj
      refine ⟨g, hg, ?_⟩
      simp only [ha, Option.getD_some]
      exact hgrows
    | error e =>
      cases e with
      | faulty t => exact absurd hy (h t)
      | rejected r =>
        obtain ⟨g, hg, hstays⟩ := (perform_rejected hy).factories j f hj
        refine ⟨g, hg, ?_⟩
        rw [hstays.store_eq]
        exact .refl _

theorem run_grows (hW : W.Within) (hj : W.factories[j]? = some f) {jobs : List Job}
    (h : W.Faultless jobs) :
    ∃ g, (W.run jobs).factories[j]? = some g ∧ f.store.GrowsBy g.store (W.total j jobs) := by
  induction jobs generalizing W f with
  | nil => exact ⟨f, hj, .refl _⟩
  | cons job jobs ih =>
    obtain ⟨g, hg, hfirst⟩ := perform_grows hW hj h.1
    obtain ⟨k, hk, hrest⟩ := ih (hW.perform job) hg h.2
    exact ⟨k, hk, hfirst.trans hrest⟩

end Run

/-- Whatever was done before, a job that is rejected leaves everything as it was, and an accepted one
adds its gain. In every later state each store remembers what it answered, and while nothing ends in
a fault, its lists are what they were and then the gains. -/
theorem run_all_or_nothing (jobs later : List Job) (job : Job) :
    let W := Workshop.run {} jobs
    (∀ r, (W.perform job).1 = some (.error (.rejected r)) → W.Refuses job (W.perform job).2) ∧
      (∀ p?, (W.perform job).1 = some (.ok p?) → W.Accepts job (W.perform job).2) ∧
        ∀ (j : Nat) (f : Factory), W.factories[j]? = some f →
          ∃ g, (W.run later).factories[j]? = some g ∧ f.store.Remembers g.store ∧
            (W.Faultless later → f.store.GrowsBy g.store (W.total j later)) := by
  intro W
  have hW : W.Within := Within.empty.run jobs
  refine ⟨fun r => perform_rejected, fun p? => perform_accepted hW, ?_⟩
  intro j f hj
  obtain ⟨g, hg, hext⟩ := run_extends hj later
  refine ⟨g, hg, hext.remembers, ?_⟩
  intro hfaultless
  obtain ⟨k, hk, hgrows⟩ := run_grows hW hj hfaultless
  obtain rfl := Option.some.inj (hg.symm.trans hk)
  exact hgrows

def sample : List Job :=
  [.equip {}, .equip {}, .act 0 (.construct (.decisionVariable 3)), .act 0 (.construct (.beginSum 1)),
    .act 0 (.add (l := .sum) 1 (.ofRef ⟨⟨0⟩, .decisionVariable⟩))]

theorem run_all_or_nothing_sample :
    let W := Workshop.run {} sample
    let more : Job := .act 0 (.add (l := .sum) 1 (.ofRef ⟨⟨0⟩, .decisionVariable⟩))
    let last : Job := .act 1 (.finish 1)
    W.Refuses more (W.perform more).2 ∧ W.Accepts last (W.perform last).2 ∧
      ∃ g, (W.run [last]).factories[1]? = some g ∧ Store.empty.GrowsBy g.store
        { kinds := [.sum], nodes := [.list ⟨0, 1⟩], operands := [⟨⟨0⟩, .decisionVariable⟩] } := by
  intro W more last
  obtain ⟨hrefused, -, -⟩ := run_all_or_nothing sample [] more
  obtain ⟨-, haccepted, hlater⟩ := run_all_or_nothing sample [last] last
  refine ⟨hrefused (.overflow .argument) rfl, haccepted _ rfl, ?_⟩
  obtain ⟨g, hg, -, hgrows⟩ := hlater 1 {} rfl
  refine ⟨g, hg, hgrows ⟨?_, trivial⟩⟩
  intro e he
  cases he

end Workshop

end ModelExpr
