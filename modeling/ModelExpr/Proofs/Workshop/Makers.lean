import ModelExpr.Proofs.Workshop.Turns

namespace ModelExpr.Workshop

variable {W W' : Workshop} {job : Job} {jobs : List Job} {ms : List Nat} {j k : Nat} {p q : Product}

def maker? (W : Workshop) (job : Job) : Option Nat :=
  match (W.perform job).1 with
  | some (.ok (some _)) => job.factory?
  | _ => none

def makers (W : Workshop) : List Job → List Nat
  | [] => []
  | job :: jobs => (W.maker? job).toList ++ (W.perform job).2.makers jobs

inductive Makes (W : Workshop) (job : Job) (W' : Workshop) : Prop where
  | idle (hproducts : W'.products = W.products ∨ W'.products = W.kept job)
    (hmaker : W.maker? job = none)
  | changed (a : Action Handle FunctionRef) (i k : Nat) (p q : Product) (y : Except Rejection Unit)
    (hjob : job = .act i a) (hk : a.adds? = some k) (hp : W.product? k = some p)
    (hq : a.change? p = some (y, q)) (hproducts : W'.products = W.products.set k (some q))
    (hmaker : W.maker? job = none)
  | made (j : Nat) (f g : Factory) (c : Call) (q : Product) (hc : W.call? j job = some (f, c))
    (hrun : c.perform.run f = (.ok q, g)) (hg : W'.factories[j]? = some g)
    (hproducts : W'.products = W.kept job ++ [some q]) (hmaker : W.maker? job = some j)

theorem perform_makes (W : Workshop) (job : Job) : W.Makes job (W.perform job).2 := by
  cases job with
  | equip o =>
    have hmaker : W.maker? (.equip o) = none := by
      unfold maker?
      split <;> rfl
    refine .idle (.inl ?_) hmaker
    simp only [perform]
    split <;> rfl
  | act i a =>
    cases hi : W.factories[i]? with
    | none =>
      refine .idle (.inl ?_) ?_
      · simp only [perform, hi]
      · simp only [maker?, perform, hi]
    | some f =>
      obtain ⟨C, hgoes, hperform⟩ := perform_act (a := a) hi
      have hmaker := congrArg Prod.fst hperform
      rw [hperform]
      cases hgoes with
      | idle => exact .idle (.inl rfl) (by rw [maker?, hmaker]; rfl)
      | changed k p q y hk hp hq =>
        refine .changed a i k p q y rfl hk hp hq rfl ?_
        rw [maker?, hmaker]
        cases y <;> rfl
      | called c y g hc hrun =>
        cases y with
        | error e => exact .idle (.inr (List.append_nil _)) (by rw [maker?, hmaker]; rfl)
        | ok q =>
          refine .made i f g c q ?_ hrun ?_ rfl (by rw [maker?, hmaker]; rfl)
          · rw [call?_act hi, hc]
            rfl
          · exact List.getElem?_set_self (List.getElem?_eq_some_iff.1 hi).1

theorem length_kept (W : Workshop) (job : Job) : (W.kept job).length = W.products.length := by
  unfold kept
  split
  · exact List.length_set
  · rfl

theorem product?_kept (h : (W.kept job)[k]?.join = some p) : W.product? k = some p := by
  rw [Option.join_eq_some_iff] at h
  unfold kept at h
  split at h
  case h_1 i hi =>
    rw [List.getElem?_set] at h
    split at h
    · split at h <;> cases h
    · exact Option.join_eq_some_iff.2 h
  case h_2 => exact Option.join_eq_some_iff.2 h

structure Tied (P : Nat → Factory → Product → Prop) (W : Workshop) (ms : List Nat) : Prop where
  length_eq : ms.length = W.products.length
  holds : ∀ k j p, ms[k]? = some j → W.product? k = some p →
    ∃ g, W.factories[j]? = some g ∧ P j g p

theorem Tied.empty (P : Nat → Factory → Product → Prop) : Tied P {} [] := by
  refine ⟨rfl, ?_⟩
  intro k j p hj
  cases hj

theorem Tied.perform {P : Nat → Factory → Product → Prop} (h : W.Tied P ms)
    (hgrow : ∀ j f g p, f.store.Extends g.store → P j f p → P j g p)
    (hadd : ∀ i a k j g p q y, job = .act i a → a.adds? = some k → ms[k]? = some j →
      W.factories[j]? = some g → P j g p → a.change? p = some (y, q) → P j g q)
    (hmake : ∀ j f g c q, W.call? j job = some (f, c) → c.perform.run f = (.ok q, g) → P j g q) :
    (W.perform job).2.Tied P (ms ++ (W.maker? job).toList) := by
  have hlater {j : Nat} {g : Factory} {p : Product} (hg : W.factories[j]? = some g)
      (hp : P j g p) : ∃ g', (W.perform job).2.factories[j]? = some g' ∧ P j g' p := by
    have hextends : ∃ g', (W.perform job).2.factories[j]? = some g' ∧ g.store.Extends g'.store :=
      perform_extends hg
    obtain ⟨g', hg', hext⟩ := hextends
    exact ⟨g', hg', hgrow j g g' p hext hp⟩
  cases perform_makes W job with
  | idle hproducts hmaker =>
    rw [hmaker, Option.toList_none, List.append_nil]
    constructor
    · obtain hsame | hkept := hproducts
      · rw [hsame, h.length_eq]
      · rw [hkept, length_kept, h.length_eq]
    · intro k j p hj hp
      have hearlier : W.product? k = some p := by
        obtain hsame | hkept := hproducts
        · rwa [product?, hsame] at hp
        · rw [product?, hkept] at hp
          exact product?_kept hp
      obtain ⟨g, hg, hP⟩ := h.holds k j p hj hearlier
      exact hlater hg hP
  | changed a i k₀ p₀ q y hjob hk hp₀ hq hproducts hmaker =>
    rw [hmaker, Option.toList_none, List.append_nil]
    refine ⟨by rw [hproducts, List.length_set, h.length_eq], ?_⟩
    intro k j p hj hp
    rw [product?, hproducts] at hp
    by_cases hsame : k₀ = k
    case pos =>
      subst hsame
      obtain ⟨g, hg, hP⟩ := h.holds k₀ j p₀ hj hp₀
      have hlt : k₀ < W.products.length := h.length_eq ▸ (List.getElem?_eq_some_iff.1 hj).1
      rw [List.getElem?_set_self hlt] at hp
      obtain rfl := Option.some.inj hp
      exact hlater hg (hadd i a k₀ j g p₀ q y hjob hk hj hg hP hq)
    case neg =>
      rw [List.getElem?_set_ne hsame] at hp
      obtain ⟨g, hg, hP⟩ := h.holds k j p hj hp
      exact hlater hg hP
  | made i f g c q hc hrun hg hproducts hmaker =>
    rw [hmaker]
    constructor
    · rw [hproducts, List.length_append, List.length_append, length_kept, h.length_eq]
      rfl
    · intro k j p hj hp
      rw [product?, hproducts] at hp
      obtain ⟨hlt, hj⟩ | ⟨hk, rfl⟩ := getElem?_concat hj
      · rw [List.getElem?_append_left (by rwa [length_kept, ← h.length_eq])] at hp
        obtain ⟨g', hg', hP⟩ := h.holds k j p hj (product?_kept hp)
        exact hlater hg' hP
      · rw [hk, h.length_eq, ← length_kept W job, List.getElem?_concat_length] at hp
        cases hp
        exact ⟨g, hg, hmake _ f g c q hc hrun⟩

def Always (Q : Workshop → List Nat → Job → Prop) (W : Workshop) (ms : List Nat) : List Job → Prop
  | [] => True
  | job :: jobs => Q W ms job ∧ (W.perform job).2.Always Q (ms ++ (W.maker? job).toList) jobs

instance Always.decidable (Q : Workshop → List Nat → Job → Prop) [∀ W ms job, Decidable (Q W ms job)] :
    (W : Workshop) → (ms : List Nat) → (jobs : List Job) → Decidable (W.Always Q ms jobs)
  | _, _, [] => inferInstanceAs (Decidable True)
  | W, ms, job :: jobs =>
    have := Always.decidable Q (W.perform job).2 (ms ++ (W.maker? job).toList) jobs
    inferInstanceAs (Decidable (Q W ms job ∧ _))

theorem Always.run {Q : Workshop → List Nat → Job → Prop} {I : Workshop → List Nat → Prop}
    (hstep : ∀ W ms job, I W ms → Q W ms job → I (W.perform job).2 (ms ++ (W.maker? job).toList))
    (h : W.Always Q ms jobs) (hI : I W ms) : I (W.run jobs) (ms ++ W.makers jobs) := by
  induction jobs generalizing W ms with
  | nil => rwa [makers, List.append_nil]
  | cons job jobs ih =>
    rw [makers, ← List.append_assoc]
    exact ih h.2 (hstep W ms job hI h.1)

end ModelExpr.Workshop
