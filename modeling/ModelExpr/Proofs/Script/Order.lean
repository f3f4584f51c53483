import ModelExpr.Proofs.Script.Yield

namespace ModelExpr

structure Desk where
  client : Client
  number? : Nat → Option Nat := fun _ => none
  answer? : Nat → Option (Except Failure (Option Product)) := fun _ => none

namespace Desk

def store (W : Desk) : Store := W.client.store

def number (W : Desk) (k : Nat) : Nat := (W.number? k).getD W.client.products.length

def step (W : Desk) (x : Nat × Action Access Callee) : Desk :=
  let C := W.client
  let D := C.step (x.2.rename W.number)
  { client := D
    number? := fun k =>
      if k = x.1 then
        if C.products.length < D.products.length then some C.products.length else none
      else W.number? k
    answer? := fun k =>
      if k = x.1 then D.history[C.history.length]?.map (·.answer) else W.answer? k }

def run (W : Desk) (xs : Script) : Desk := xs.foldl step W

theorem exists_run (W : Desk) (xs : Script) : ∃ as, (W.run xs).client = W.client.run as := by
  induction xs generalizing W with
  | nil => exact ⟨[], rfl⟩
  | cons x xs ih =>
    obtain ⟨as, has⟩ := ih (W.step x)
    exact ⟨x.2.rename W.number :: as, has⟩

def picture (W : Desk) : Picture where
  meaning? k := W.client.trees.meaning? (W.number k)
  answer? k := (W.answer? k).map fun y => y.map fun p? => p?.map (·.meaning W.store W.store.tree)

theorem outlook_picture (W : Desk) : W.picture.outlook = W.client.trees.rename W.number := rfl

structure Sound (W : Desk) : Prop where
  client : W.client.Sound
  indexed : W.client.factory.Indexed
  answer : ∀ k p, W.answer? k = some (.ok (some p)) → p.Sound W.store
  number_lt : ∀ k n, W.number? k = some n → n < W.client.products.length
  number_inj : ∀ j k n, W.number? j = some n → W.number? k = some n → j = k

variable {W : Desk} {x : Nat × Action Access Callee}

theorem number_of_some {k n : Nat} (h : W.number? k = some n) : W.number k = n := by
  rw [number, h]
  rfl

theorem number_of_none {k : Nat} (h : W.number? k = none) :
    W.number k = W.client.products.length := by
  rw [number, h]
  rfl

theorem meaning?_of_some {k n : Nat} (h : W.number? k = some n) :
    W.picture.meaning? k = W.client.trees.meaning? n :=
  congrArg W.client.trees.meaning? (number_of_some h)

theorem meaning?_of_none {k : Nat} (h : W.number? k = none) : W.picture.meaning? k = none := by
  change W.client.trees.meaning? (W.number k) = none
  rw [number_of_none h]
  exact W.client.trees_length

theorem Sound.number_eq_iff (hW : W.Sound) {j k n : Nat} (hk : W.number? k = some n) :
    W.number j = n ↔ j = k := by
  constructor
  · intro hj
    cases h : W.number? j with
    | none =>
      have hlt := hW.number_lt k n hk
      rw [number_of_none h] at hj
      omega
    | some m =>
      rw [number_of_some h] at hj
      subst hj
      exact hW.number_inj j k m h hk
  · rintro rfl
    exact number_of_some hk

theorem number?_step {k : Nat} (hk : k ≠ x.1) : (W.step x).number? k = W.number? k := if_neg hk

theorem number_step_self
    (hle : W.client.products.length ≤ (W.client.step (x.2.rename W.number)).products.length) :
    (W.step x).number x.1 = W.client.products.length := by
  simp only [number, step, if_pos]
  split
  · rfl
  · change (W.client.step _).products.length = _
    omega

theorem number?_step_eq_some {k n : Nat} (h : (W.step x).number? k = some n) :
    (k = x.1 ∧ n = W.client.products.length ∧ n < (W.step x).client.products.length) ∨
      (k ≠ x.1 ∧ W.number? k = some n) := by
  change (if k = x.1 then (if _ then _ else _) else _) = _ at h
  split at h
  · left
    split at h <;> cases h
    exact ⟨‹_›, rfl, ‹_›⟩
  · right
    exact ⟨‹_›, h⟩

theorem Sound.answer_later (hW : W.Sound) {t : Store} (ht : t.WellFormed) (h : W.store.Extends t)
    (k : Nat) : ((W.answer? k).map fun y => y.map fun p? => p?.map (·.meaning t t.tree)) =
      W.picture.answer? k := by
  simp only [picture]
  rcases hy : W.answer? k with _ | (e | (_ | p))
  · rfl
  · rfl
  · rfl
  · have hlater := hW.client.tree_later ht h (hW.answer k p hy)
    exact congrArg (fun m => some (Except.ok (some m))) hlater

section Yields

variable (h : W.client.Yields (x.2.draft?.map W.number) (W.picture.outlook.result x.2)
  (W.client.step (x.2.rename W.number)))

include h

theorem Sound.meaning?_step (hW : W.Sound) {k : Nat} (hk : k ≠ x.1) :
    (W.step x).picture.meaning? k =
      if x.2.draft? = some k then (W.picture.outlook.result x.2).left? (W.picture.meaning? k)
      else W.picture.meaning? k := by
  have hnumber : (W.step x).number? k = W.number? k := number?_step hk
  -- a step that made nothing is looked for behind the products, both before and after
  cases hold : W.number? k with
  | none =>
    have hshown := meaning?_of_none hold
    rw [meaning?_of_none (hnumber.trans hold), hshown]
    split
    case isTrue hdraft => exact (Outlook.left?_result hdraft hshown).symm
    case isFalse => rfl
  | some n =>
    -- no two steps have one product, so the draft of the step goes by no other number
    have hdraft : x.2.draft?.map W.number = some n ↔ x.2.draft? = some k := by
      rw [Option.map_eq_some_iff]
      simp only [hW.number_eq_iff hold, exists_eq_right]
    have hleft := h.left n (hW.number_lt k n hold)
    simp only [hdraft] at hleft
    rw [meaning?_of_some (hnumber.trans hold), meaning?_of_some hold]
    exact hleft

theorem Sound.picture_step (hW : W.Sound) (hsound : (W.client.step (x.2.rename W.number)).Sound)
    (hext : W.store.Extends (W.step x).store) : (W.step x).picture = W.picture.step x := by
  apply Picture.ext
  · funext k
    by_cases hk : k = x.1
    · rw [hk]
      change (W.step x).client.trees.meaning? ((W.step x).number x.1) = if x.1 = x.1 then _ else _
      rw [number_step_self h.length_le, if_pos rfl]
      exact h.made
    · simp only [Picture.step, if_neg hk]
      exact hW.meaning?_step h hk
  · funext k
    change ((if k = x.1 then _ else _ : Option (Except Failure (Option Product))).map _) =
      if k = x.1 then _ else _
    split
    · rw [Option.map_map]
      exact h.answer
    · exact hW.answer_later hsound.factory.wellFormed hext k

end Yields

theorem Sound.step (hW : W.Sound) (hx : ∀ r ∈ x.2.roots, r.own) (hb : (W.step x).store.Bounded) :
    (W.step x).Sound ∧ (W.step x).picture = W.picture.step x := by
  have hstep := hW.client.step (x.2.rename W.number)
  have hroots : ∀ r ∈ (x.2.rename W.number).roots, r.own := by
    intro r hr
    have hmem := List.mem_map_of_mem (f := Root.own) hr
    rw [Action.own_rename] at hmem
    obtain ⟨q, hq, hqr⟩ := List.mem_map.1 hmem
    rw [← hqr]
    exact hx q hq
  obtain ⟨hyields, hindexed, hanswer⟩ := Client.step_yields hW.client hW.indexed hroots hb
  rw [Action.draft?_rename, Outlook.result_rename, ← outlook_picture] at hyields
  refine ⟨⟨hstep.sound, hindexed, ?_, ?_, ?_⟩, hW.picture_step hyields hstep.sound hstep.extends_store⟩
  · intro k p hp
    change (if k = x.1 then _ else _) = _ at hp
    split at hp
    · obtain ⟨d, hd, hp⟩ := Option.map_eq_some_iff.1 hp
      exact hanswer d p hd hp
    · exact (hW.answer k p hp).mono hstep.extends_store
  · intro k n hk
    obtain ⟨-, -, hlt⟩ | ⟨-, hold⟩ := number?_step_eq_some hk
    · exact hlt
    · exact Nat.lt_of_lt_of_le (hW.number_lt k n hold) hyields.length_le
  · intro j k n hj hk
    obtain ⟨rfl, rfl, -⟩ | ⟨-, hold⟩ := number?_step_eq_some hj
    · obtain ⟨rfl, -, -⟩ | ⟨-, hold'⟩ := number?_step_eq_some hk
      · rfl
      · exact absurd (hW.number_lt k _ hold') (Nat.lt_irrefl _)
    · obtain ⟨-, rfl, -⟩ | ⟨-, hold'⟩ := number?_step_eq_some hk
      · exact absurd (hW.number_lt j _ hold) (Nat.lt_irrefl _)
      · exact hW.number_inj j k n hold hold'

theorem Sound.eval_rename (hW : W.Sound) {v : View} {a : Access v} (ha : a.root.own) :
    ((a.rename W.number).eval W.client).map (·.value W.store.tree) = a.value W.picture.outlook := by
  have hroot : (a.rename W.number).root.own := by
    rw [a.own_rename]
    exact ha
  have hvalue := (a.rename W.number).eval_value hW.client hW.client.seen_trees
    (Client.shows_trees hroot)
  rw [a.value_rename, ← outlook_picture] at hvalue
  exact hvalue

theorem Sound.run {xs : Script} (hW : W.Sound) (hxs : ∀ x ∈ xs, ∀ r ∈ x.2.roots, r.own)
    (hb : (W.run xs).store.Bounded) :
    (W.run xs).Sound ∧ (W.run xs).picture = W.picture.run xs := by
  induction xs generalizing W with
  | nil => exact ⟨hW, rfl⟩
  | cons x xs ih =>
    have hfirst : (W.step x).store.Bounded := by
      obtain ⟨as, has⟩ := exists_run (W.step x) xs
      have hrest := ((hW.client.step (x.2.rename W.number)).sound.run as).extends_store
      change (W.run (x :: xs)).client = _ at has
      rw [store, has] at hb
      exact hb.anti hrest
    obtain ⟨hsound, hpicture⟩ := hW.step (hxs x List.mem_cons_self) hfirst
    have hrest := ih hsound (fun z hz => hxs z (List.mem_cons_of_mem x hz)) hb
    rw [hpicture] at hrest
    exact hrest

theorem Sound.start {o : Options} {C : Client} (h : Client.start o = .ok C) :
    Sound { client := C } := by
  have hC := Client.Sound.start h
  obtain ⟨f, hf, h⟩ := bind_eq_ok.1 h
  cases h
  refine ⟨hC, .ofOptions hf, ?_, ?_, ?_⟩
  · rintro k p ⟨⟩
  · rintro k n ⟨⟩
  · rintro j k n ⟨⟩

/-- The order of independent steps does not matter. Two desks with the same options work on the same
steps in two orders, in which every step comes after those whose products or drafts it uses and the
steps of each draft keep their order. Then every step has the same answer at both, with handles of the
same trees, drafts have taken in the same, and the same chains lead to the same trees. -/
theorem run_reordered {o : Options} {C : Client} (h : Client.start o = .ok C) {xs ys : Script}
    (hxs : xs.Proper) (hys : ys.Proper) (hxy : xs.Reorders ys)
    (hroots : ∀ x ∈ xs, ∀ r ∈ x.2.roots, r.own)
    (hb : (Desk.run { client := C } xs).store.Bounded)
    (hb' : (Desk.run { client := C } ys).store.Bounded) :
    let V := Desk.run { client := C } xs
    let W := Desk.run { client := C } ys
    V.picture = W.picture ∧
      ∀ (v : View) (a : Access v), a.root.own →
        ((a.rename V.number).eval V.client).map (·.value V.store.tree) =
          ((a.rename W.number).eval W.client).map (·.value W.store.tree) := by
  intro V W
  have hstart := Sound.start h
  have hroots' : ∀ x ∈ ys, ∀ r ∈ x.2.roots, r.own := by
    intro x hx
    exact hroots x (hxy.perm.mem_iff.2 hx)
  obtain ⟨hV, hpicture⟩ := hstart.run hroots hb
  obtain ⟨hW, hpicture'⟩ := hstart.run hroots' hb'
  have hpictures : V.picture = W.picture := by
    rw [hpicture, hpicture', hxy.run_eq hxs hys]
  refine ⟨hpictures, ?_⟩
  intro v a ha
  rw [hV.eval_rename ha, hW.eval_rename ha, hpictures]

def callSteps : Nat → Action Access Callee
  | 0 => .construct (.decisionVariable 7)
  | 1 => .construct (.addFunction "f")
  | 2 => .construct (.beginCall (.made 1) 1)
  | 3 => .add (l := .call) 2 (.cast (.made .decisionVariable 0) .expr)
  | 4 => .finish 2
  | 5 => .construct (.addFunction "g")
  | 6 => .construct (.beginCall (.made 5) 2)
  | 7 => .add (l := .call) 6 (.cast (.made .decisionVariable 0) .expr)
  | _ => .finish 6

theorem run_reordered_sample : ∃ C, Client.start {} = .ok C ∧
    let V := Desk.run { client := C } ([0, 1, 2, 3, 4, 5, 6, 7, 8].map fun i => (i, callSteps i))
    let W := Desk.run { client := C } ([5, 0, 6, 1, 7, 2, 8, 3, 4].map fun i => (i, callSteps i))
    V.store.nodes = #[.decisionVariable 7, .call ⟨0⟩ ⟨0, 1⟩] ∧
      W.store.nodes = #[.decisionVariable 7, .call ⟨1⟩ ⟨0, 1⟩] ∧ V.picture = W.picture := by
  let C : Client := { factory := {} }
  let xs : Script := [0, 1, 2, 3, 4, 5, 6, 7, 8].map fun i => (i, callSteps i)
  let ys : Script := [5, 0, 6, 1, 7, 2, 8, 3, 4].map fun i => (i, callSteps i)
  have hxs : xs.Proper := ⟨by decide, by decide⟩
  have hys : ys.Proper := ⟨by decide, by decide⟩
  have hxy : xs.Reorders ys := by
    constructor
    · exact List.Perm.map _ (by decide)
    · intro d
      by_cases hfirst : 2 = d
      · subst hfirst
        rfl
      · by_cases hsecond : 6 = d
        · subst hsecond
          rfl
        · simp [xs, ys, callSteps, Action.draft?, hfirst, hsecond]
  have hroots : ∀ x ∈ xs, ∀ r ∈ x.2.roots, r.own := by decide
  have hb : (Desk.run { client := C } xs).store.Bounded := by constructor <;> decide +kernel
  have hb' : (Desk.run { client := C } ys).store.Bounded := by constructor <;> decide +kernel
  have h := run_reordered (o := {}) rfl hxs hys hxy hroots hb hb'
  exact ⟨C, rfl, by decide +kernel, by decide +kernel, h.1⟩

end Desk

end ModelExpr
