import Mathlib.Data.List.Induction
import ModelExpr.Proofs.Factory.Names

namespace ModelExpr

section Occurrences

variable {α : Type} [DecidableEq α]

theorem eraseDups_concat (xs : List α) (x : α) :
    (xs ++ [x]).eraseDups = if x ∈ xs then xs.eraseDups else xs.eraseDups ++ [x] := by
  rw [List.eraseDups_append]
  split
  case isTrue h => simp [List.removeAll, h]
  case isFalse h => simp [List.removeAll, h, List.eraseDups_cons]

theorem nodup_eraseDups (xs : List α) : xs.eraseDups.Nodup := by
  induction xs using List.reverseRecOn with
  | nil => exact List.nodup_nil
  | append_singleton xs x ih =>
    rw [eraseDups_concat]
    split
    · exact ih
    case isFalse h =>
      rw [List.nodup_append]
      refine ⟨ih, List.pairwise_singleton _ x, ?_⟩
      rintro y hy z hz rfl
      rw [List.mem_singleton.1 hz] at hy
      exact h (List.mem_eraseDups.1 hy)

end Occurrences

namespace Payload

def anonymous : Payload → Payload
  | .call _ r => .call .invalid r
  | p => p

def callee? : Payload → Option FunctionRef
  | .call f _ => some ⟨f⟩
  | _ => none

def named (names : FunctionRef → Option String) (p : Payload) : Payload × Option (Option String) :=
  (p.anonymous, p.callee?.map names)

end Payload

namespace Store

def SameName (s t : Store) (f g : FunctionRef) : Prop :=
  ∃ name, s.functionName f = .ok name ∧ t.functionName g = .ok name ∧
    t.functions[g.id.index]? = some name ∧ f.id.index = t.functions.toList.eraseDups.idxOf name

structure Twins (s t : Store) : Prop where
  kinds_eq : s.kinds = t.kinds
  operands_eq : s.operands = t.operands
  numbers_eq : s.numbers = t.numbers
  nodes_eq : s.nodes.toList.map (Payload.named s.name?) = t.nodes.toList.map (Payload.named t.name?)
  functions_eq : s.functions.toList = t.functions.toList.eraseDups

variable {s s' t : Store} {k : Kind} {m n : Plain}

theorem operandsIn_congr (h : s.operands = t.operands) (r : Span) :
    s.operandsIn r = t.operandsIn r := by
  rw [operandsIn, operandsIn, h]

theorem numbersIn_congr (h : s.numbers = t.numbers) (r : Span) : s.numbersIn r = t.numbersIn r := by
  rw [numbersIn, numbersIn, h]

theorem WellFormed.named_later (hs : s.WellFormed) (h : s.Pads t) :
    t.nodes.toList.map (Payload.named t.name?) = s.nodes.toList.map (Payload.named s.name?) := by
  rw [h.nodes_eq]
  apply List.map_congr_left
  intro p hp
  obtain ⟨i, hi⟩ := List.mem_iff_getElem?.1 hp
  rw [Array.getElem?_toList] at hi
  cases p with
  | call f r =>
    have hlt : i < s.kinds.size := by
      rw [hs.size_eq]
      exact (Array.getElem?_eq_some_iff.1 hi).1
    have hfits := hs.fits i _ _ (Array.getElem?_eq_getElem hlt) hi
    have hname := FunctionRef.Known.name?_eq (.inr (hfits.callee f r rfl)) h.toExtends
    simp [Payload.named, Payload.callee?, hname]
  | _ => rfl

namespace Twins

theorem empty : Store.empty.Twins .empty := ⟨rfl, rfl, rfl, rfl, rfl⟩

theorem size_eq (h : s.Twins t) : s.nodes.size = t.nodes.size := by
  simpa using congrArg List.length h.nodes_eq

theorem layout_named (h : s.Twins t) (hmn : m.form (fun r => r) s.name? = n.form (fun r => r) t.name?) :
    (s.layout m).named s.name? = (t.layout n).named t.name? := by
  have hspan (rs : List Ref) : s.operandSpan rs = t.operandSpan rs := by
    rw [operandSpan, operandSpan, h.operands_eq]
  cases m <;> cases n <;> simp [Plain.form] at hmn
  all_goals simp [layout, Payload.named, Payload.anonymous, Payload.callee?, hmn, hspan, h.numbers_eq]

theorem lay (h : s.Twins t) (hmn : m.form (fun r => r) s.name? = n.form (fun r => r) t.name?) :
    (s.lay k m).Twins (t.lay k n) := by
  have hlists : m.listed = n.listed ∧ m.numbers = n.numbers := by
    cases m <;> cases n <;> simp [Plain.form] at hmn <;>
      simp [Plain.listed, Plain.list?, Plain.numbers, hmn]
  constructor
  · simp only [Store.lay, h.kinds_eq]
  · simp only [Store.lay, h.operands_eq, hlists.1]
  · simp only [Store.lay, h.numbers_eq, hlists.2]
  · have hnodes := h.nodes_eq
    have hnode := h.layout_named hmn
    change (s.nodes.push _).toList.map (Payload.named s.name?) =
      (t.nodes.push _).toList.map (Payload.named t.name?)
    rw [Array.toList_push, Array.toList_push, List.map_append, List.map_append, hnodes,
      List.map_singleton, List.map_singleton, hnode]
  · exact h.functions_eq

theorem pushKnown (h : s.Twins t) (ht : t.WellFormed) {name : String}
    (hname : name ∈ s.functions.toList) : s.Twins (t.pushFunction name) := by
  refine ⟨h.kinds_eq, h.operands_eq, h.numbers_eq, ?_, ?_⟩
  · rw [ht.named_later (pads_pushFunction name)]
    exact h.nodes_eq
  · have hmem : name ∈ t.functions.toList := by
      rw [h.functions_eq, List.mem_eraseDups] at hname
      exact hname
    change s.functions.toList = (t.functions.push name).toList.eraseDups
    rw [Array.toList_push, eraseDups_concat, if_pos hmem]
    exact h.functions_eq

theorem pushNew (h : s.Twins t) (hs : s.WellFormed) (ht : t.WellFormed) {name : String}
    (hname : name ∉ s.functions.toList) : (s.pushFunction name).Twins (t.pushFunction name) := by
  refine ⟨h.kinds_eq, h.operands_eq, h.numbers_eq, ?_, ?_⟩
  · rw [hs.named_later (pads_pushFunction name), ht.named_later (pads_pushFunction name)]
    exact h.nodes_eq
  · have hmem : name ∉ t.functions.toList := by
      rw [h.functions_eq, List.mem_eraseDups] at hname
      exact hname
    change (s.functions.push name).toList = (t.functions.push name).toList.eraseDups
    rw [Array.toList_push, Array.toList_push, eraseDups_concat, if_neg hmem, h.functions_eq]

theorem inline_form (h : s.Twins t) {p q : Payload} (hpq : p.named s.name? = q.named t.name?) :
    (s.inline p).toOption.map (Plain.form (fun r => r) s.name?) =
      (t.inline q).toOption.map (Plain.form (fun r => r) t.name?) := by
  obtain ⟨hnode, hcallee⟩ := Prod.ext_iff.1 hpq
  cases p <;> cases q <;> cases hnode
  case list.list r =>
    simp only [inline, operandsIn_congr h.operands_eq]
    cases t.operandsIn r <;> rfl
  case piecewiseLinear.piecewiseLinear a b r =>
    simp only [inline, numbersIn_congr h.numbers_eq]
    cases t.numbersIn a <;> cases t.numbersIn b <;> rfl
  case call.call f r g =>
    have hname : s.name? ⟨f⟩ = t.name? ⟨g⟩ := Option.some.inj hcallee
    simp only [inline, operandsIn_congr h.operands_eq]
    cases t.operandsIn r with
    | error e => rfl
    | ok xs =>
      change some (Form.call (s.name? ⟨f⟩) _) = some (Form.call (t.name? ⟨g⟩) _)
      rw [hname]
  all_goals rfl

theorem form_eq (h : s.Twins t) (r : Ref) :
    s.form? (fun r => r) r = t.form? (fun r => r) r := by
  have hnodes := congrArg (·[r.id.index]?) h.nodes_eq
  simp only [List.getElem?_map, Array.getElem?_toList] at hnodes
  simp only [form?, plain?]
  cases hp : s.nodes[r.id.index]? with
  | none =>
    rw [hp] at hnodes
    rw [Option.map_eq_none_iff.1 hnodes.symm]
    rfl
  | some p =>
    rw [hp] at hnodes
    obtain ⟨q, hq, hpq⟩ := Option.map_eq_some_iff.1 hnodes.symm
    rw [hq]
    exact h.inline_form hpq.symm

theorem sameName (h : s.Twins t) {f g : FunctionRef} (hfg : s.name? f = t.name? g)
    (hg : t.name? g ≠ none) : s.SameName t f g := by
  obtain ⟨name, hname⟩ := Option.ne_none_iff_exists'.1 hg
  have hf := hfg.trans hname
  obtain ⟨hvalid, hfunction⟩ := name?_eq_some.1 hf
  obtain ⟨hvalid', hfunction'⟩ := name?_eq_some.1 hname
  refine ⟨name, functionName_of_name? hf, functionName_of_name? hname, hfunction', ?_⟩
  have hlist : s.functions.toList[f.id.index]? = some name := by
    rw [Array.getElem?_toList]
    exact hfunction
  obtain ⟨hlt, hget⟩ := List.getElem?_eq_some_iff.1 hlist
  have hnodup : s.functions.toList.Nodup := by
    rw [h.functions_eq]
    exact nodup_eraseDups _
  rw [← h.functions_eq, ← hget]
  exact (hnodup.idxOf_getElem _ hlt).symm

theorem callee_sameName (h : s.Twins t) (ht : t.WellFormed) {i : Nat} {f g : FunctionId}
    {q r : Span} (hf : s.nodes[i]? = some (.call f q)) (hg : t.nodes[i]? = some (.call g r)) :
    s.SameName t ⟨f⟩ ⟨g⟩ := by
  have hnodes := congrArg (·[i]?) h.nodes_eq
  simp only [List.getElem?_map, Array.getElem?_toList, hf, hg] at hnodes
  obtain ⟨-, hcallee⟩ := Prod.ext_iff.1 (Option.some.inj hnodes)
  apply h.sameName (Option.some.inj hcallee)
  have hlt : i < t.kinds.size := by
    rw [ht.size_eq]
    exact (Array.getElem?_eq_some_iff.1 hg).1
  have hfits := ht.fits i _ _ (Array.getElem?_eq_getElem hlt) hg
  obtain ⟨name, hname⟩ := FunctionRef.Registered.exists_name (hfits.callee g r rfl)
  rw [hname]
  exact Option.some_ne_none name

theorem anonymous_eq (h : s.Twins t) :
    s.nodes.map Payload.anonymous = t.nodes.map Payload.anonymous := by
  have hnodes := congrArg (List.map Prod.fst) h.nodes_eq
  rw [List.map_map, List.map_map] at hnodes
  apply Array.toList_inj.1
  rw [Array.toList_map, Array.toList_map]
  exact hnodes

end Twins

end Store

end ModelExpr
