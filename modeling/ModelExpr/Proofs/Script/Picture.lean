import ModelExpr.Proofs.Client.Result
import ModelExpr.Proofs.Store.Tree
/-!
Pictures: what a script comes to when every reference is replaced by its tree. In a picture there is
no order of creation, so that steps that do not use each other commute.
-/

namespace ModelExpr

abbrev Script := List (Nat × Action Access Callee)

def Action.Uses (a : Action Access Callee) (i : Nat) : Prop :=
  .made i ∈ a.roots ∨ a.draft? = some i

instance (a : Action Access Callee) (i : Nat) : Decidable (a.Uses i) :=
  inferInstanceAs (Decidable (_ ∨ _))

namespace Script

structure Proper (xs : Script) : Prop where
  numbers : (xs.map Prod.fst).Nodup
  uses : xs.Pairwise fun x y => ¬x.2.Uses y.1

/-- The steps are the same in another order, in which those of each draft keep theirs. -/
structure Reorders (xs ys : Script) : Prop where
  perm : xs.Perm ys
  drafts : ∀ d, xs.filter (·.2.draft? = some d) = ys.filter (·.2.draft? = some d)

end Script

def Aim.meaning : Aim Tree → Meaning Tree
  | .node v k n => .handle v (some (.node k n))
  | .function name => .function (some name)
  | .draft m => m

namespace Result

def made? : Result Tree → Option (Meaning Tree)
  | .called (.ok aim) => some aim.meaning
  | _ => none

def left? (draft? : Option (Meaning Tree)) : Result Tree → Option (Meaning Tree)
  | .idle => draft?
  | .changed _ m => some m
  | .called _ => none

def answer? : Result Tree → Option (Except Failure (Option (Meaning Tree)))
  | .idle => none
  | .changed y _ => some ((y.map fun _ => none).mapError .rejected)
  | .called aim => some ((aim.map fun a => some a.meaning).mapError .rejected)

end Result

@[ext]
structure Picture where
  meaning? : Nat → Option (Meaning Tree) := fun _ => none
  answer? : Nat → Option (Except Failure (Option (Meaning Tree))) := fun _ => none

namespace Picture

def outlook (P : Picture) : Outlook Tree where
  kind := Tree.kind
  form? t := some t.form
  lookup? _ := none
  meaning? := P.meaning?

def step (P : Picture) (x : Nat × Action Access Callee) : Picture :=
  let result := P.outlook.result x.2
  { meaning? := fun k =>
      if k = x.1 then result.made?
      else if x.2.draft? = some k then result.left? (P.meaning? k)
      else P.meaning? k
    answer? := fun k => if k = x.1 then result.answer? else P.answer? k }

def run (P : Picture) (xs : Script) : Picture := xs.foldl step P

end Picture

namespace Meaning

variable {M : Type}

def value? : Meaning M → Option (Meaning M)
  | .handle v x => some (.handle v x)
  | .function name => some (.function name)
  | _ => none

theorem handle?_value? (m : Meaning M) (v : View) :
    m.handle? v = m.value?.bind fun n => n.handle? v := by
  cases m <;> rfl

theorem function?_value? (m : Meaning M) : m.function? = m.value?.bind (·.function?) := by
  cases m <;> rfl

end Meaning

namespace Picture

variable {P Q : Picture}

def SameValue (P Q : Picture) (i : Nat) : Prop :=
  (P.meaning? i).bind (·.value?) = (Q.meaning? i).bind (·.value?)

theorem SameValue.bind_eq {α : Type} {i : Nat} (h : P.SameValue Q i) {f : Meaning Tree → Option α}
    (hf : ∀ m, f m = m.value?.bind f) : (P.meaning? i).bind f = (Q.meaning? i).bind f := by
  have hbind (m? : Option (Meaning Tree)) : m?.bind f = (m?.bind (·.value?)).bind f := by
    cases m? with
    | none => rfl
    | some m => exact hf m
  calc (P.meaning? i).bind f = ((P.meaning? i).bind (·.value?)).bind f := hbind _
    _ = ((Q.meaning? i).bind (·.value?)).bind f := congrArg (Option.bind · f) h
    _ = (Q.meaning? i).bind f := (hbind _).symm

theorem value_congr {v : View} (a : Access v) (h : ∀ i, a.root = .made i → P.SameValue Q i) :
    a.value P.outlook = a.value Q.outlook := by
  induction a with
  | null v => rfl
  | made v i => exact (h i rfl).bind_eq fun m => m.handle?_value? v
  | lookup i => rfl
  | cast a w ih =>
    simp only [Access.value, ih h]
    rfl
  | field a f ih =>
    simp only [Access.value, ih h]
    rfl
  | operand a earlier last ih =>
    simp only [Access.value, ih h]
    rfl

theorem callee_congr (a : Callee) (h : ∀ i, a.root = .made i → P.SameValue Q i) :
    a.value P.outlook = a.value Q.outlook := by
  cases a with
  | null | lookup => rfl
  | made i => exact (h i rfl).bind_eq fun m => m.function?_value?
  | field a =>
    simp only [Callee.value, value_congr a h]
    rfl

theorem result_congr (a : Action Access Callee) (hroots : ∀ i, .made i ∈ a.roots → P.SameValue Q i)
    (hdraft : ∀ d, a.draft? = some d → P.meaning? d = Q.meaning? d) :
    P.outlook.result a = Q.outlook.result a := by
  have hmapM : a.mapM (fun _ => Access.value P.outlook) (Callee.value P.outlook) =
      a.mapM (fun _ => Access.value Q.outlook) (Callee.value Q.outlook) := by
    apply Action.mapM_congr
    · intro v x hx
      apply value_congr x
      intro i hi
      exact hroots i (hi ▸ hx)
    · intro x hx
      apply callee_congr x
      intro i hi
      exact hroots i (hi ▸ hx)
  have hmeaning : a.draft?.bind P.outlook.meaning? = a.draft?.bind Q.outlook.meaning? := by
    cases hd : a.draft? with
    | none => rfl
    | some d => exact hdraft d hd
  rw [Outlook.result, Outlook.result, hmapM, hmeaning]

theorem value?_left? {b : Action (fun _ => Option Tree) (Option String)} (hb : b.draft? ≠ none)
    (m? : Option (Meaning Tree)) :
    ((b.result m?).left? m?).bind (·.value?) = m?.bind (·.value?) := by
  cases b with
  | construct c => exact absurd rfl hb
  | @add l i x =>
    rcases m? with _ | (_ | _ | d | d)
    case some.draft =>
      simp only [Action.result]
      split <;> rfl
    all_goals rfl
  | _ => rcases m? with _ | (_ | _ | d | d) <;> rfl

theorem step_sameValue (P : Picture) (x : Nat × Action Access Callee) {k : Nat} (hk : k ≠ x.1) :
    (P.step x).SameValue P k := by
  simp only [SameValue, step, if_neg hk]
  split
  case isFalse => rfl
  case isTrue hdraft =>
    simp only [Outlook.result]
    split
    case h_2 => rfl
    case h_1 b hb =>
      rw [hdraft]
      apply value?_left?
      rw [Action.draft?_mapM hb, hdraft]
      exact Option.some_ne_none k

end Picture

/-- Neither of two steps uses what the other makes, and they are not about one draft. -/
structure Independent (x y : Nat × Action Access Callee) : Prop where
  number : x.1 ≠ y.1
  left : ¬x.2.Uses y.1
  right : ¬y.2.Uses x.1
  draft : ∀ d, x.2.draft? = some d → y.2.draft? ≠ some d

theorem Independent.symm {x y : Nat × Action Access Callee} (h : Independent x y) :
    Independent y x := by
  refine ⟨h.number.symm, h.right, h.left, ?_⟩
  intro d hy hx
  exact h.draft d hx hy

namespace Picture

variable {P : Picture} {x y : Nat × Action Access Callee}

theorem result_step (P : Picture) (h : Independent x y) :
    (P.step y).outlook.result x.2 = P.outlook.result x.2 := by
  apply result_congr
  · intro i hi
    apply step_sameValue
    rintro rfl
    exact h.left (.inl hi)
  · intro d hd
    have hnumber : d ≠ y.1 := by
      rintro rfl
      exact h.left (.inr hd)
    simp only [step, if_neg hnumber, if_neg (h.draft d hd)]

theorem step_comm (P : Picture) (h : Independent x y) :
    (P.step x).step y = (P.step y).step x := by
  have hx := result_step P h
  have hy := result_step P h.symm
  apply Picture.ext
  · funext k
    simp only [step] at hx hy ⊢
    rw [hx, hy]
    -- no number is that of both steps or of both drafts, and no step is the draft of the other
    by_cases hk : k = x.1
    · have hne : k ≠ y.1 := by
        rintro rfl
        exact h.number hk.symm
      have hdraft : y.2.draft? ≠ some k := by
        rintro hd
        exact h.right (.inr (hk ▸ hd))
      simp only [if_pos hk, if_neg hne, if_neg hdraft]
    · by_cases hk' : k = y.1
      · have hdraft : x.2.draft? ≠ some k := by
          rintro hd
          exact h.left (.inr (hk' ▸ hd))
        simp only [if_neg hk, if_pos hk', if_neg hdraft]
      · by_cases hd : x.2.draft? = some k
        · simp only [if_neg hk, if_neg hk', if_pos hd, if_neg (h.draft k hd)]
        · simp only [if_neg hk, if_neg hk', if_neg hd]
  · funext k
    simp only [step] at hx hy ⊢
    rw [hx, hy]
    by_cases hk : k = x.1
    · have hne : k ≠ y.1 := by
        rintro rfl
        exact h.number hk.symm
      simp only [if_pos hk, if_neg hne]
    · simp only [if_neg hk]

theorem run_step (P : Picture) {xs : Script} (h : ∀ z ∈ xs, Independent x z) :
    (P.run xs).step x = (P.step x).run xs := by
  induction xs generalizing P with
  | nil => rfl
  | cons z zs ih =>
    have hz := h z List.mem_cons_self
    have hrest := ih (P.step z) fun w hw => h w (List.mem_cons_of_mem z hw)
    change ((P.step z).run zs).step x = ((P.step x).step z).run zs
    rw [hrest, step_comm P hz]

end Picture

namespace Script

variable {x : Nat × Action Access Callee} {xs ys vs ws : Script}

theorem Proper.tail (h : Proper (x :: xs)) : Proper xs :=
  ⟨(List.nodup_cons.1 h.numbers).2, (List.pairwise_cons.1 h.uses).2⟩

theorem Proper.erase (h : Proper (vs ++ x :: ws)) : Proper (vs ++ ws) := by
  have hsublist : (vs ++ ws).Sublist (vs ++ x :: ws) :=
    List.Sublist.append (List.Sublist.refl vs) (List.sublist_cons_self x ws)
  exact ⟨h.numbers.sublist (hsublist.map Prod.fst), h.uses.sublist hsublist⟩

section Moved

variable (h : Reorders (x :: xs) (vs ++ x :: ws)) (hxs : Proper (x :: xs))
  (hys : Proper (vs ++ x :: ws))

include hys in
theorem Proper.number_ne {v : Nat × Action Access Callee} (hv : v ∈ vs) : v.1 ≠ x.1 := by
  have hnumbers := hys.numbers
  rw [List.map_append, List.nodup_append] at hnumbers
  exact hnumbers.2.2 _ (List.mem_map_of_mem hv) _ (List.mem_map_of_mem List.mem_cons_self)

include h hxs hys

theorem Reorders.independent : ∀ v ∈ vs, Independent x v := by
  intro v hv
  have hnumber := hys.number_ne hv
  have hmem : v ∈ xs := by
    have hcons : v ∈ x :: xs := h.perm.mem_iff.2 (List.mem_append_left _ hv)
    obtain rfl | hmem := List.mem_cons.1 hcons
    · exact absurd rfl hnumber
    · exact hmem
  refine ⟨hnumber.symm, ?_, ?_, ?_⟩
  · exact (List.pairwise_cons.1 hxs.uses).1 v hmem
  · exact (List.pairwise_append.1 hys.uses).2.2 v hv x List.mem_cons_self
  · intro d hx hvd
    -- the first step of the draft would be another one in the second order
    have hdrafts := h.drafts d
    rw [List.filter_cons_of_pos (by simpa using hx), List.filter_append] at hdrafts
    have hfilter : v ∈ vs.filter (·.2.draft? = some d) :=
      List.mem_filter.2 ⟨hv, by simpa using hvd⟩
    cases hfirst : vs.filter (·.2.draft? = some d) with
    | nil =>
      rw [hfirst] at hfilter
      cases hfilter
    | cons w rest =>
      rw [hfirst] at hdrafts
      obtain rfl : x = w := (List.cons.inj hdrafts).1
      have hw : x ∈ vs.filter (·.2.draft? = some d) := by
        rw [hfirst]
        exact List.mem_cons_self
      exact hys.number_ne (List.mem_filter.1 hw).1 rfl

theorem Reorders.rest : Reorders xs (vs ++ ws) := by
  constructor
  · exact (h.perm.trans List.perm_middle).cons_inv
  · intro d
    have hdrafts := h.drafts d
    rw [List.filter_append] at hdrafts ⊢
    by_cases hx : x.2.draft? = some d
    · have hnone : vs.filter (·.2.draft? = some d) = [] := by
        apply List.filter_eq_nil_iff.2
        intro v hv hvd
        exact (h.independent hxs hys v hv).draft d hx (by simpa using hvd)
      rw [hnone, List.filter_cons_of_pos (by simpa using hx),
        List.filter_cons_of_pos (by simpa using hx)] at hdrafts
      rw [hnone]
      exact (List.cons.inj hdrafts).2
    · rw [List.filter_cons_of_neg (by simpa using hx),
        List.filter_cons_of_neg (by simpa using hx)] at hdrafts
      exact hdrafts

end Moved

theorem Reorders.run_eq (h : Reorders xs ys) (hxs : xs.Proper) (hys : ys.Proper) (P : Picture) :
    P.run xs = P.run ys := by
  induction xs generalizing ys P with
  | nil =>
    obtain rfl := h.perm.nil_eq
    rfl
  | cons x xs ih =>
    obtain ⟨vs, ws, rfl⟩ := List.append_of_mem (h.perm.mem_iff.1 List.mem_cons_self)
    -- the first step of one order may as well be the first of the other
    have hrest := ih (h.rest hxs hys) hxs.tail hys.erase (P.step x)
    have hmoved := P.run_step (h.independent hxs hys)
    have happend (Q : Picture) (us zs : Script) : Q.run (us ++ zs) = (Q.run us).run zs :=
      List.foldl_append
    rw [happend] at hrest ⊢
    calc P.run (x :: xs) = ((P.step x).run vs).run ws := hrest
      _ = ((P.run vs).step x).run ws := by rw [hmoved]
      _ = (P.run vs).run (x :: ws) := rfl

end Script

end ModelExpr
