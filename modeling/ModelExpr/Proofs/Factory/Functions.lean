import ModelExpr.Proofs.Store.Twins
/-!
The table of functions: the index of names and the list of functions are kept apart, and yet each name
in the index has the position that it has in the list.
-/

namespace ModelExpr

section Distinct

variable {α : Type} [DecidableEq α] {reuse : Bool} {xs : List α} {x : α}

def distinct (reuse : Bool) (xs : List α) : List α := if reuse then xs.eraseDups else xs

theorem mem_distinct (reuse : Bool) : x ∈ distinct reuse xs ↔ x ∈ xs := by
  cases reuse with
  | true => exact List.mem_eraseDups
  | false => exact Iff.rfl

theorem distinct_concat_of_mem (h : x ∈ xs) : distinct true (xs ++ [x]) = distinct true xs := by
  change (xs ++ [x]).eraseDups = _
  rw [eraseDups_concat, if_pos h]
  rfl

theorem distinct_concat (h : reuse = true → x ∉ xs) :
    distinct reuse (xs ++ [x]) = distinct reuse xs ++ [x] := by
  cases reuse with
  | true =>
    change (xs ++ [x]).eraseDups = _
    rw [eraseDups_concat, if_neg (h rfl)]
    rfl
  | false => rfl

theorem idxOf?_concat (xs : List α) (x y : α) :
    (xs ++ [x]).idxOf? y = (xs.idxOf? y).or (if x = y then some xs.length else none) := by
  rw [List.idxOf?, List.findIdx?_append]
  apply congrArg (Option.or _)
  by_cases h : x = y <;> simp [h]

end Distinct

namespace FunctionRef

def ofPosition (i : Nat) : FunctionRef := ⟨⟨i.toUInt32⟩⟩

theorem ofPosition_index {i : Nat} (h : i < UInt32.size) : (ofPosition i).id.index = i :=
  Nat.mod_eq_of_lt h

theorem isNull_iff {x : FunctionRef} : x.isNull = true ↔ x.id.index = UInt32.size - 1 := by
  have hraw : x.isNull = true ↔ x.id = .invalid := by simp [isNull, FunctionId.isValid]
  rw [hraw]
  constructor
  · intro h
    rw [h]
    rfl
  · intro h
    exact congrArg FunctionId.mk (UInt32.toNat_inj.1 h)

end FunctionRef

namespace Factory

def reuses (f : Factory) : Bool := f.names?.isSome

/-- The names and the functions of these registrations are those of the factory, in order, and where
names are reused, the index has exactly the names of the list, each with its position. -/
structure Tabulates (f : Factory) (rs : List (String × FunctionRef)) : Prop where
  names : f.store.functions.toList = distinct f.reuses (rs.map (·.1))
  refs : distinct f.reuses (rs.map (·.2)) =
    (List.range f.store.functions.size).map FunctionRef.ofPosition
  entry : ∀ r ∈ rs, f.store.functions[r.2.id.index]? = some r.1
  index : f.reuses = true → ∀ name,
    f.known? name = (f.store.functions.toList.idxOf? name).map fun i => (FunctionRef.ofPosition i).id
  size_le : f.store.functions.size ≤ UInt32.size

namespace Tabulates

variable {f g : Factory} {rs : List (String × FunctionRef)} {name : String} {x : FunctionRef}

theorem ofOptions {o : Options} (h : ofOptions o = .ok f) : f.Tabulates [] := by
  obtain rfl := ofOptions_eq h
  constructor
  · cases o.reuseNames <;> rfl
  · cases o.reuseNames <;> rfl
  · intro r hr
    cases hr
  · intro _ name
    rw [known?]
    split
    · exact Std.HashMap.getElem?_empty
    · rfl
  · exact Nat.zero_le _

theorem congr (hf : f.Tabulates rs) (hnames : g.names? = f.names?)
    (hfunctions : g.store.functions = f.store.functions) : g.Tabulates rs := by
  have hreuses : g.reuses = f.reuses := by rw [reuses, reuses, hnames]
  constructor
  · rw [hfunctions, hreuses, hf.names]
  · rw [hfunctions, hreuses, hf.refs]
  · rw [hfunctions]
    exact hf.entry
  · rw [hfunctions, hreuses]
    intro hreuse other
    rw [← hf.index hreuse, known?, known?, hnames]
  · rw [hfunctions]
    exact hf.size_le

theorem mem_refs (hf : f.Tabulates rs) :
    x ∈ rs.map (·.2) ↔ ∃ i < f.store.functions.size, .ofPosition i = x := by
  rw [← mem_distinct f.reuses, hf.refs]
  simp only [List.mem_map, List.mem_range]

theorem known (hf : f.Tabulates rs) (h : f.known? name = some x.id) :
    f.Tabulates (rs ++ [(name, x)]) := by
  have hreuse : f.reuses = true := by
    obtain ⟨m, hm, -⟩ := Option.bind_eq_some_iff.1 h
    rw [reuses, hm]
    rfl
  rw [hf.index hreuse] at h
  obtain ⟨i, hi, hx⟩ := Option.map_eq_some_iff.1 h
  obtain ⟨hlt, hname, -⟩ := List.idxOf?_eq_some_iff.1 hi
  rw [Array.length_toList] at hlt
  have hx : .ofPosition i = x := congrArg FunctionRef.mk hx
  have hknown : name ∈ rs.map (·.1) := by
    rw [← mem_distinct f.reuses, ← hf.names, ← hname]
    exact List.getElem_mem _
  constructor
  · rw [List.map_append, hf.names, hreuse]
    exact (distinct_concat_of_mem hknown).symm
  · rw [List.map_append, ← hf.refs, hreuse]
    exact distinct_concat_of_mem (hf.mem_refs.2 ⟨i, hlt, hx⟩)
  · intro r hr
    obtain hr | hr := List.mem_append.1 hr
    · exact hf.entry r hr
    · obtain rfl := List.mem_singleton.1 hr
      have hindex := FunctionRef.ofPosition_index (Nat.lt_of_lt_of_le hlt hf.size_le)
      change f.store.functions[x.id.index]? = some name
      rw [← hx, hindex, Array.getElem?_eq_getElem hlt, ← hname, Array.getElem_toList]
  · exact hf.index
  · exact hf.size_le

theorem registers (hf : f.Tabulates rs) (h : f.Registers g name x) :
    g.Tabulates (rs ++ [(name, x)]) := by
  have hreuses : g.reuses = f.reuses := by rw [reuses, reuses, h.names_eq, Option.isSome_map]
  have hfunctions : g.store.functions = f.store.functions.push name := by
    rw [h.store_eq]
    rfl
  have hroom := h.room
  have hposition : x = .ofPosition f.store.functions.size := h.ref_eq
  have hunknown (hreuse : f.reuses = true) : f.store.functions.toList.idxOf? name = none := by
    have hnone := h.unknown
    rw [hf.index hreuse] at hnone
    exact Option.map_eq_none_iff.1 hnone
  constructor
  · rw [hfunctions, hreuses, Array.toList_push, hf.names, List.map_append]
    refine (distinct_concat ?_).symm
    intro hreuse
    rw [← mem_distinct f.reuses, ← hf.names]
    exact List.idxOf?_eq_none_iff.1 (hunknown hreuse)
  · rw [hfunctions, hreuses, Array.size_push, List.range_succ, List.map_append, List.map_append,
      ← hf.refs, hposition]
    apply distinct_concat
    -- every earlier function has a smaller position
    intro _ hold
    obtain ⟨i, hi, hsame⟩ := hf.mem_refs.1 hold
    have hindex := congrArg (·.id.index) hsame
    change (FunctionRef.ofPosition i).id.index = (FunctionRef.ofPosition _).id.index at hindex
    rw [FunctionRef.ofPosition_index (Nat.lt_trans hi hroom),
      FunctionRef.ofPosition_index hroom] at hindex
    exact Nat.ne_of_lt hi hindex
  · intro r hr
    obtain hr | hr := List.mem_append.1 hr
    · exact Store.getElem?_of_prefix h.pads.toExtends.functions (hf.entry r hr)
    · obtain rfl := List.mem_singleton.1 hr
      change g.store.functions[x.id.index]? = some name
      rw [hfunctions, hposition, FunctionRef.ofPosition_index hroom]
      exact Array.getElem?_push_size
  · rw [hreuses]
    intro hreuse other
    obtain ⟨m, hm⟩ := Option.isSome_iff_exists.1 hreuse
    have hold := hf.index hreuse other
    rw [known?, hm, Option.bind_some] at hold
    rw [h.known?_eq, hm, Option.bind_some, hold, hfunctions, Array.toList_push, idxOf?_concat,
      Array.length_toList]
    by_cases hother : name = other
    · rw [if_pos hother, if_pos hother, ← hother, hunknown hreuse, hposition]
      rfl
    · rw [if_neg hother, if_neg hother, Option.or_none]
  · rw [hfunctions, Array.size_push]
    exact hroom

theorem getElem?_refs (hf : f.Tabulates rs) (i : Nat) :
    (distinct f.reuses (rs.map (·.2)))[i]? = f.store.function? i := by
  rw [hf.refs, List.getElem?_map, Store.function?]
  by_cases h : i < f.store.functions.size
  · rw [if_pos h, List.getElem?_range h]
    rfl
  · rw [if_neg h, List.getElem?_eq_none (by simpa using h)]
    rfl

theorem length_refs (hf : f.Tabulates rs) :
    (distinct f.reuses (rs.map (·.2))).length = f.store.functions.size := by
  rw [hf.refs, List.length_map, List.length_range]

theorem nodup_refs (hf : f.Tabulates rs) : (distinct f.reuses (rs.map (·.2))).Nodup := by
  rw [hf.refs, List.Nodup, List.pairwise_map]
  apply List.nodup_range.imp_of_mem
  intro i k hi hk hne hsame
  have hsize := hf.size_le
  rw [List.mem_range] at hi hk
  apply hne
  rw [← FunctionRef.ofPosition_index (Nat.lt_of_lt_of_le hi hsize),
    ← FunctionRef.ofPosition_index (Nat.lt_of_lt_of_le hk hsize), hsame]

theorem eq_iff {r t : String × FunctionRef} (hf : f.Tabulates rs) (hreuse : f.reuses = true)
    (hr : r ∈ rs) (ht : t ∈ rs) : r.2 = t.2 ↔ r.1 = t.1 := by
  have hentry := hf.entry r hr
  have hentry' := hf.entry t ht
  constructor
  · intro h
    rw [h, hentry'] at hentry
    exact (Option.some.inj hentry).symm
  · intro h
    have hnodup : f.store.functions.toList.Nodup := by
      rw [hf.names, hreuse]
      exact nodup_eraseDups _
    have hlt := (Array.getElem?_eq_some_iff.1 hentry).1
    rw [← h, ← hentry, ← Array.getElem?_toList, ← Array.getElem?_toList] at hentry'
    have hindex := (List.getElem?_inj (by simpa using hlt) hnodup).1 hentry'.symm
    exact congrArg (fun i => FunctionRef.mk ⟨i⟩) (UInt32.toNat_inj.1 hindex)

theorem named {r : String × FunctionRef} (hf : f.Tabulates rs)
    (hroom : f.store.functions.size < UInt32.size) (hr : r ∈ rs) :
    r.2.isNull = false ∧ f.store.functionName r.2 = .ok r.1 := by
  have hentry := hf.entry r hr
  have hlt := (Array.getElem?_eq_some_iff.1 hentry).1
  have hvalid : r.2.isNull = false := by
    apply Bool.eq_false_iff.2
    intro hnull
    have hlast := FunctionRef.isNull_iff.1 hnull
    omega
  exact ⟨hvalid, Store.functionName_of_name? (Store.name?_eq_some.2 ⟨hvalid, hentry⟩)⟩

end Tabulates

end Factory

section Unindexed

variable {f : Factory} (name : String) (hnames : f.names? = none)
  (hroom : f.store.functions.size < UInt32.size)

include hnames hroom

theorem Factory.run_addFunction :
    ∃ g, (addFunction name).run f = (.ok (.ofPosition f.store.functions.size), g) ∧
      g.store = f.store.pushFunction name ∧ g.names? = none := by
  have hunknown : f.known? name = none := by
    rw [known?, hnames]
    rfl
  rw [addFunction_run, hunknown]
  simp only [register_run, if_pos hroom, hnames]
  exact ⟨_, rfl, rfl, rfl⟩

theorem Construction.perform_addFunction : ∃ g, (addFunction name).perform.run f =
    (.ok (.function (.ofPosition f.store.functions.size)), g) ∧
      g.store = f.store.pushFunction name ∧ g.names? = none := by
  obtain ⟨g, hrun, hg⟩ := Factory.run_addFunction name hnames hroom
  refine ⟨g, ?_, hg⟩
  rw [perform, FactoryM.run_map, hrun]
  rfl

end Unindexed

end ModelExpr
