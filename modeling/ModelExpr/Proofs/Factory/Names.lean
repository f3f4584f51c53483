import ModelExpr.Proofs.Factory.Exact
import ModelExpr.Proofs.Store.Form

namespace ModelExpr

section Names

variable {s t : Store} {f : FunctionRef} {name : String}

theorem Store.name?_null (h : f.isNull = true) : s.name? f = none := by
  rw [name?, functionName, if_pos h]
  rfl

theorem Store.name?_valid (h : f.isNull = false) : s.name? f = s.functions[f.id.index]? := by
  rw [name?, functionName, h, if_neg Bool.false_ne_true]
  cases s.functions[f.id.index]? <;> rfl

theorem Store.name?_eq_some : s.name? f = some name ↔
    f.isNull = false ∧ s.functions[f.id.index]? = some name := by
  cases h : f.isNull with
  | true => simp [name?_null h]
  | false => simp [name?_valid h]

theorem Store.functionName_of_name? (h : s.name? f = some name) : s.functionName f = .ok name := by
  unfold name? at h
  cases hx : s.functionName f with
  | error e =>
    rw [hx] at h
    cases h
  | ok x =>
    rw [hx] at h
    cases h
    rfl

theorem Store.Extends.name? (h : s.Extends t) (hf : s.name? f = some name) :
    t.name? f = some name := by
  obtain ⟨hvalid, hname⟩ := name?_eq_some.1 hf
  exact name?_eq_some.2 ⟨hvalid, getElem?_of_prefix h.functions hname⟩

theorem FunctionRef.Registered.exists_name (h : f.Registered s) : ∃ name, s.name? f = some name := by
  obtain ⟨hvalid, hlt⟩ := h
  have hnull : f.isNull = false := by rw [isNull, hvalid, Bool.not_true]
  exact ⟨_, Store.name?_eq_some.2 ⟨hnull, Array.getElem?_eq_getElem hlt⟩⟩

theorem FunctionRef.Known.name?_eq (hf : f.Known s) (h : s.Extends t) : t.name? f = s.name? f := by
  obtain hnull | hregistered := hf
  · rw [Store.name?_null hnull, Store.name?_null hnull]
  · obtain ⟨name, hname⟩ := hregistered.exists_name
    rw [hname]
    exact h.name? hname

theorem Store.name?_pushFunction (hroom : s.functions.size < UInt32.size - 1) :
    (s.pushFunction name).name? ⟨⟨s.functions.size.toUInt32⟩⟩ = some name := by
  have hlt : s.functions.size < UInt32.size := by omega
  have hindex : s.functions.size.toUInt32.toNat = s.functions.size := Nat.mod_eq_of_lt hlt
  apply name?_eq_some.2
  constructor
  · apply Bool.eq_false_iff.2
    intro hnull
    have hinvalid : (FunctionId.mk s.functions.size.toUInt32) = .invalid := by
      simpa [FunctionRef.isNull, FunctionId.isValid] using hnull
    have hsize := congrArg FunctionId.index hinvalid
    change s.functions.size.toUInt32.toNat = UInt32.size - 1 at hsize
    rw [hindex] at hsize
    omega
  · change (s.functions.push name)[s.functions.size.toUInt32.toNat]? = some name
    rw [hindex]
    exact Array.getElem?_push_size

end Names

theorem Factory.Registers.name?_eq {f g : Factory} {x : FunctionRef} (h : f.Registers g name x)
    (hg : g.store.Bounded) : g.store.name? x = some name := by
  have hsize : f.store.functions.size < UInt32.size - 1 := (hg.anti h.pads.toExtends).functions
  rw [h.store_eq, h.ref_eq]
  exact Store.name?_pushFunction hsize

theorem Factory.Registers.known?_eq {f g : Factory} {name : String} {x : FunctionRef}
    (h : f.Registers g name x) (other : String) :
    g.known? other = f.names?.bind fun m => if name = other then some x.id else m[other]? := by
  rw [known?, h.names_eq, Option.bind_map]
  apply congrArg (Option.bind f.names?)
  funext m
  simp [Std.HashMap.getElem?_insert]

structure Factory.Indexed (f : Factory) : Prop where
  name_eq : ∀ name id, f.known? name = some id → f.store.name? ⟨id⟩ = some name
  known : f.names? ≠ none → ∀ name ∈ f.store.functions.toList, f.known? name ≠ none

namespace Factory.Indexed

variable {f g : Factory}

theorem ofOptions {o : Options} (h : ofOptions o = .ok f) : f.Indexed := by
  obtain rfl := ofOptions_eq h
  constructor
  · intro name id h
    simp only [known?] at h
    split at h <;> simp at h
  · intro _ name hname
    cases hname

theorem of_names_eq (hf : f.Indexed) (hnames : g.names? = f.names?)
    (hfunctions : g.store.functions = f.store.functions) (h : f.store.Extends g.store) :
    g.Indexed := by
  have hknown (name : String) : g.known? name = f.known? name := by rw [known?, known?, hnames]
  constructor
  · intro name id hid
    rw [hknown] at hid
    exact h.name? (hf.name_eq name id hid)
  · intro hindex name hname
    rw [hknown]
    rw [hnames] at hindex
    rw [hfunctions] at hname
    exact hf.known hindex name hname

theorem registers {name : String} {x : FunctionRef} (hf : f.Indexed) (h : f.Registers g name x)
    (hg : g.store.Bounded) : g.Indexed := by
  have hknown := h.known?_eq
  constructor
  · intro other id hid
    rw [hknown] at hid
    obtain ⟨m, hm, hid⟩ := Option.bind_eq_some_iff.1 hid
    -- the new name stands at the end, and every other one where it stood
    split at hid
    case isTrue heq =>
      cases hid
      rw [← heq]
      exact h.name?_eq hg
    case isFalse =>
      apply h.pads.toExtends.name?
      apply hf.name_eq
      rw [known?, hm]
      exact hid
  · intro hindex other hother
    rw [h.names_eq, ne_eq, Option.map_eq_none_iff] at hindex
    rw [hknown]
    cases hm : f.names? with
    | none => exact absurd hm hindex
    | some m =>
      change (if name = other then some x.id else m[other]?) ≠ none
      split
      · exact Option.some_ne_none x.id
      case isFalse hne =>
        rw [h.store_eq] at hother
        have hother : other ∈ f.store.functions.toList ++ [name] := by
          rw [← Array.toList_push]
          exact hother
        have hold := (List.mem_append.1 hother).resolve_right fun h =>
          hne (List.mem_singleton.1 h).symm
        have hfound := hf.known hindex other hold
        rw [known?, hm] at hfound
        exact hfound

theorem ends {c : Call} {y : Except Failure Product} (hf : f.Indexed) (h : c.Ends f g y)
    (hg : g.store.Bounded) : g.Indexed := by
  have hext := h.extends_store
  cases h with
  | refused r h => exact hf.of_names_eq h.names_eq (congrArg Store.functions h.store_eq) hext
  | overfull e h hpads => exact absurd hg h.2
  | laid v k n hn h =>
    have hfunctions : g.store.functions = f.store.functions := by
      rw [h.store_eq]
      rfl
    exact hf.of_names_eq h.names_eq hfunctions hext
  | known name x hc hx hg =>
    rw [hg]
    exact hf
  | registered name x hc h => exact hf.registers h hg
  | drafted b q hc hq hg =>
    rw [hg]
    exact hf

end Factory.Indexed

end ModelExpr
