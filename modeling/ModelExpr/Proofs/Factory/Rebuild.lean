import ModelExpr.Proofs.Factory.Functions
import ModelExpr.Proofs.Store.Recipe

namespace ModelExpr

def Handle.counterpart (made : List (Handle .expr)) (v : View) (x : Handle v) :
    Except Failure (Handle v) :=
  match x.ref? with
  | none => .ok .null
  | some r =>
    match made[r.id.index]? with
    | some e => liftM (e.cast v)
    | none => .error (.faulty (.indexOutOfRange r.id.index made.length))

def FunctionRef.counterpart (made : List FunctionRef) (f : FunctionRef) :
    Except Failure FunctionRef :=
  if f.isNull then .ok .null
  else
    match made[f.id.index]? with
    | some g => .ok g
    | none => .error (.faulty (.indexOutOfRange f.id.index made.length))

namespace Store

def remake (s : Store) (functions : List FunctionRef) (made : List (Handle .expr))
    (e : Handle .expr) : FactoryM (Handle .expr) := do
  let R ← liftM (s.recipe e)
  let R ← liftM (R.mapM (Handle.counterpart made) (FunctionRef.counterpart functions))
  R.perform

def remakeNodes (s : Store) (functions : List FunctionRef) : Nat → FactoryM (List (Handle .expr))
  | 0 => return []
  | i + 1 => do
    let made ← s.remakeNodes functions i
    match s.expr? ⟨i.toUInt32⟩ with
    | some e => return made ++ [← s.remake functions made e]
    | none => return made

def readNames (s : Store) : Except Fault (List String) :=
  ((List.range s.functions.size).filterMap s.function?).mapM s.functionName

def rebuildNamed (s : Store) (names : List String) : FactoryM (List (Handle .expr)) := do
  let functions ← names.mapM Factory.addFunction
  s.remakeNodes functions s.nodes.size

def rebuild (s : Store) : FactoryM (List (Handle .expr)) := do
  s.rebuildNamed (← liftM s.readNames)

structure Remade (s : Store) (made : List (Handle .expr)) (f : Factory) : Prop where
  store_eq : f.store = s
  length_eq : made.length = s.nodes.size
  entry : ∀ i, i < s.nodes.size → made[i]? = s.expr? ⟨i.toUInt32⟩

end Store

section Counterparts

variable {H : View → Type} {s t : Store} {h : (v : View) → Handle v → Except Failure (Handle v)}
  {f : FunctionRef → Except Failure FunctionRef}
  (hh : ∀ v x, x.Known t → h v x = .ok x) (hf : ∀ g, g.Known t → f g = .ok g)

include hh hf

theorem Construction.mapM_self {c : Construction Handle FunctionRef} (hc : c.Known t) :
    c.mapM h f = .ok c := by
  cases c with
  | unary | negation | beginNumberOf => exact bind_eq_ok.2 ⟨_, hh _ _ hc, rfl⟩
  | binary | relational | binaryLogical | logicalCount =>
    obtain ⟨ha, hb⟩ := hc
    exact bind_eq_ok.2 ⟨_, hh _ _ ha, bind_eq_ok.2 ⟨_, hh _ _ hb, rfl⟩⟩
  | conditional | implication =>
    obtain ⟨ha, hb, he⟩ := hc
    exact bind_eq_ok.2 ⟨_, hh _ _ ha, bind_eq_ok.2 ⟨_, hh _ _ hb, bind_eq_ok.2
      ⟨_, hh _ _ he, rfl⟩⟩⟩
  | beginCall => exact bind_eq_ok.2 ⟨_, hf _ hc, rfl⟩
  | _ => rfl

theorem Recipe.mapM_self {R : Recipe Handle FunctionRef} (hR : R.Known t) : R.mapM h f = .ok R := by
  cases R with
  | make c => exact bind_eq_ok.2 ⟨_, Construction.mapM_self hh hf hR, rfl⟩
  | @list l start xs =>
    obtain ⟨hstart, hxs⟩ := hR
    have hall : ∀ ys : List (Handle l.element), (∀ y ∈ ys, y.Known t) → ys.mapM (h _) = .ok ys := by
      intro ys hys
      induction ys with
      | nil => rfl
      | cons y ys ih =>
        have hfirst := hh _ _ (hys y List.mem_cons_self)
        have hrest := ih fun z hz => hys z (List.mem_cons_of_mem y hz)
        rw [List.mapM_cons]
        exact bind_eq_ok.2 ⟨_, hfirst, bind_eq_ok.2 ⟨_, hrest, rfl⟩⟩
    exact bind_eq_ok.2 ⟨_, Construction.mapM_self hh hf hstart, bind_eq_ok.2 ⟨_, hall xs hxs, rfl⟩⟩
  | term xs ys x => exact bind_eq_ok.2 ⟨_, hh _ _ hR, rfl⟩

end Counterparts

def FunctionRef.numbered (start count : Nat) : List FunctionRef :=
  (List.range' start count).map fun i => ⟨⟨i.toUInt32⟩⟩

theorem FunctionRef.counterpart_numbered {t : Store} {f : FunctionRef} (hf : f.Known t) :
    counterpart (numbered 0 t.functions.size) f = .ok f := by
  unfold counterpart
  split
  case isTrue hnull =>
    have hvalid : f.id.isValid = false := by simpa [isNull] using hnull
    have hid : f.id = .invalid := by simpa [FunctionId.isValid] using hvalid
    exact congrArg Except.ok (congrArg FunctionRef.mk hid.symm)
  case isFalse hvalid =>
    obtain ⟨-, hlt⟩ := hf.resolve_left hvalid
    have hlookup : (numbered 0 t.functions.size)[f.id.index]? = some f := by
      rw [numbered, List.getElem?_map, List.getElem?_range' hlt]
      simp [FunctionId.index]
    rw [hlookup]

theorem Handle.counterpart_made {s t : Store} {v : View} {x : Handle v} {made : List (Handle .expr)}
    (hx : x.Known t) (hext : t.Extends s)
    (hmade : ∀ j, j < t.kinds.size → made[j]? = s.expr? ⟨j.toUInt32⟩) :
    counterpart made v x = .ok x := by
  obtain ⟨_ | r⟩ := x
  · rfl
  · obtain ⟨hv, hr⟩ := hx.of_ofRef
    have hid : (⟨r.id.index.toUInt32⟩ : ExprId) = r.id := by simp [ExprId.index]
    have hlookup : made[r.id.index]? = some (.ofRef r) := by
      rw [hmade _ hr.lt, hid]
      exact Option.map_eq_some_iff.2 ⟨r.kind, hext.holds hr, rfl⟩
    have hcast : (ofRef r : Handle .expr).cast v = .ok (ofRef r) := by
      simp only [cast, ofRef, if_pos hv]
    simp only [counterpart, hlookup, hcast]
    rfl

theorem Factory.run_addFunctions (names : List String) {f : Factory} (hnames : f.names? = none)
    (hroom : f.store.functions.size + names.length ≤ UInt32.size) :
    ∃ g, (names.mapM addFunction).run f =
      (.ok (FunctionRef.numbered f.store.functions.size names.length), g) ∧
        g.store = { f.store with functions := f.store.functions ++ names.toArray } ∧
          g.names? = none := by
  induction names generalizing f with
  | nil =>
    refine ⟨f, rfl, ?_, hnames⟩
    simp
  | cons name names ih =>
    rw [List.length_cons] at hroom
    obtain ⟨f₁, hfirst, hstore, hnames₁⟩ := run_addFunction name hnames (by omega)
    have hsize : f₁.store.functions.size = f.store.functions.size + 1 := by
      rw [hstore]
      exact Array.size_push _
    obtain ⟨g, hrest, hg, hnone⟩ := ih hnames₁ (by omega)
    refine ⟨g, ?_, ?_, hnone⟩
    · rw [List.mapM_cons]
      refine FactoryM.run_bind_eq_ok.2 ⟨_, _, hfirst, ?_⟩
      refine FactoryM.run_bind_eq_ok.2 ⟨_, _, hrest, ?_⟩
      rw [hsize, List.length_cons, FunctionRef.numbered, FunctionRef.numbered, List.range'_succ]
      rfl
    · rw [hg, hstore]
      simp [Store.pushFunction]

namespace Store

variable {s t : Store} {i m : Nat} {k : Kind} {n : Plain} {ns : List PlainNode}

theorem functionName_ofPosition (hi : i < s.functions.size) (hlast : i + 1 < UInt32.size) :
    s.functionName (.ofPosition i) = .ok s.functions[i] := by
  have hindex := FunctionRef.ofPosition_index (Nat.lt_of_succ_lt hlast)
  have hvalid : (FunctionRef.ofPosition i).isNull = false := by
    rw [Bool.eq_false_iff, ne_eq, FunctionRef.isNull_iff, hindex]
    omega
  have hentry : s.functions[(FunctionRef.ofPosition i).id.index]? = some s.functions[i] := by
    rw [hindex, Array.getElem?_eq_getElem hi]
  exact functionName_of_name? (name?_eq_some.2 ⟨hvalid, hentry⟩)

theorem filterMap_function? (hi : i < s.functions.size) :
    [i].filterMap s.function? = [.ofPosition i] :=
  List.filterMap_cons_some (if_pos hi)

theorem mapM_functionName (hm : m ≤ s.functions.size) (hlast : m < UInt32.size) :
    ((List.range m).filterMap s.function?).mapM s.functionName = .ok (s.functions.toList.take m) := by
  induction m with
  | zero => rfl
  | succ m ih =>
    have hname : s.functions.toList[m]? = some s.functions[m] := by
      rw [Array.getElem?_toList, Array.getElem?_eq_getElem hm]
    rw [List.range_succ, List.filterMap_append, filterMap_function? hm, List.mapM_append,
      ih (Nat.le_of_succ_le hm) (Nat.lt_of_succ_lt hlast), List.mapM_cons,
      functionName_ofPosition hm hlast, List.take_add_one, hname]
    rfl

theorem readNames_eq (h : s.functions.size ≤ UInt32.size) : s.readNames =
    if s.functions.size < UInt32.size then .ok s.functions.toList else .error .nullFunction := by
  split
  case isTrue hlt =>
    rw [readNames, mapM_functionName (Nat.le_refl _) hlt, ← Array.length_toList, List.take_length]
  case isFalse hfull =>
    -- all names but the last are read first
    obtain ⟨m, hm⟩ : ∃ m, UInt32.size = m + 1 := ⟨_, rfl⟩
    have hsize : s.functions.size = m + 1 := by omega
    have hlast : m < UInt32.size := by omega
    have hindex := FunctionRef.ofPosition_index hlast
    have hnull : (FunctionRef.ofPosition m).isNull = true :=
      FunctionRef.isNull_iff.2 (hindex.trans (by omega))
    rw [readNames, hsize, List.range_succ, List.filterMap_append, filterMap_function? (by omega),
      List.mapM_append, mapM_functionName (by omega) hlast, List.mapM_cons, functionName, if_pos hnull]
    rfl

theorem Suits.restrict (h : s.Suits i k n) (hext : t.Extends s) (hi : i ≤ t.kinds.size)
    (hfunctions : t.functions = s.functions) : t.Suits i k n := by
  refine ⟨h.shape, ?_, h.term, h.counted, ?_⟩
  · intro j r hj
    obtain ⟨hlt, hholds, haccepts⟩ := h.operands j r hj
    refine ⟨hlt, ?_, haccepts⟩
    have hkind := Array.getElem?_eq_getElem (Nat.lt_of_lt_of_le hlt hi)
    have hsame := Option.some.inj ((hext.kind_eq hkind).symm.trans hholds)
    rw [Holds, hkind, hsame]
  · intro f rs hn
    obtain ⟨hvalid, hlt⟩ := h.callee f rs hn
    exact ⟨hvalid, hfunctions ▸ hlt⟩

theorem run_remake (hs : s.WellFormed) (htiled : s.Tiled ns) {f : Factory}
    {made : List (Handle .expr)} {n : PlainNode} (hn : ns[i]? = some n)
    (hf : f.store = ofNodes s.functions (ns.take i))
    (hmade : ∀ j, j < i → made[j]? = s.expr? ⟨j.toUInt32⟩) :
    ∃ x g, s.expr? ⟨i.toUInt32⟩ = some x ∧
      (s.remake (FunctionRef.numbered 0 s.functions.size) made x).run f = (.ok x, g) ∧
        g.store = ofNodes s.functions (ns.take (i + 1)) := by
  have hlength : (ns.take i).length = i :=
    List.length_take_of_le (Nat.le_of_lt (List.getElem?_eq_some_iff.1 hn).1)
  obtain ⟨hnodes, hkinds⟩ := size_ofNodes s.functions (ns.take i)
  rw [← hf, hlength] at hnodes hkinds
  have hroom : f.store.Room n.content := hf ▸ htiled.room i n hn
  have hext : f.store.Extends s := by
    have hprefix := extends_take s.functions ns i
    rwa [← hf, ← htiled.store_eq] at hprefix
  have hfunctions : f.store.functions = s.functions := by rw [hf, functions_ofNodes]
  -- the node, where it is in the store that is read
  let r : Ref := ⟨⟨i.toUInt32⟩, n.kind⟩
  have hindex : r.id.index = i := Nat.mod_eq_of_lt (hnodes ▸ hroom.node)
  obtain ⟨hplain, hkind⟩ := htiled.node hn
  rw [← hindex] at hplain hkind
  have hholds : s.Holds r := hkind
  obtain ⟨m, hm, hsuits⟩ := hs.exists_plain hholds
  obtain rfl := Option.some.inj (hplain.symm.trans hm)
  have hfits : f.store.Suits r.id.index r.kind n.content :=
    hsuits.restrict hext (Nat.le_of_eq (hindex.trans hkinds.symm)) hfunctions
  -- its recipe, and what is made of it
  obtain ⟨hspecific, haccepts⟩ := View.specific_accepts r.kind
  obtain ⟨R, hread, hknown, hmakes⟩ := recipeAs_of_plain hplain hfits hspecific
    (htiled.countable n (List.mem_of_getElem? hn)) haccepts
  have hsame : R.mapM (Handle.counterpart made)
      (FunctionRef.counterpart (FunctionRef.numbered 0 s.functions.size)) = .ok R := by
    apply Recipe.mapM_self (t := f.store) _ _ hknown
    · intro v x hx
      exact Handle.counterpart_made hx hext (hkinds ▸ hmade)
    · intro g hg
      rw [← hfunctions]
      exact FunctionRef.counterpart_numbered hg
  obtain ⟨g, hrun, hlays⟩ := hmakes.perform hroom
  have hnext : f.store.next r.kind = r := by
    rw [next, hnodes]
  rw [hnext] at hrun
  refine ⟨.ofRef r, g, Option.map_eq_some_iff.2 ⟨r.kind, hholds, rfl⟩, ?_, ?_⟩
  · refine FactoryM.run_bind_eq_ok.2 ⟨R, f, ?_, FactoryM.run_bind_eq_ok.2 ⟨R, f, ?_, hrun⟩⟩
    · change (liftM (s.recipeAs (.ofRef r) r.kind (.specific r.kind)) : FactoryM _).run f = _
      rw [hread]
      rfl
    · rw [hsame]
      rfl
  · rw [hlays.store_eq, hf, ofNodes_take_succ hn]

theorem run_remakeNodes (hs : s.WellFormed) (htiled : s.Tiled ns) {f : Factory}
    (hf : f.store = ofNodes s.functions []) (hi : i ≤ ns.length) :
    ∃ made g, (s.remakeNodes (FunctionRef.numbered 0 s.functions.size) i).run f = (.ok made, g) ∧
      g.store = ofNodes s.functions (ns.take i) ∧ made.length = i ∧
        ∀ j, j < i → made[j]? = s.expr? ⟨j.toUInt32⟩ := by
  induction i with
  | zero =>
    refine ⟨[], f, rfl, hf, rfl, ?_⟩
    intro j hj
    exact absurd hj (Nat.not_lt_zero j)
  | succ i ih =>
    obtain ⟨made, g, hrun, hg, hlength, hmade⟩ := ih (Nat.le_of_succ_le hi)
    obtain ⟨x, k, hx, hremade, hk⟩ :=
      run_remake hs htiled (List.getElem?_eq_getElem hi) hg hmade
    refine ⟨made ++ [x], k, ?_, hk, by simp [hlength], ?_⟩
    · refine FactoryM.run_bind_eq_ok.2 ⟨made, g, hrun, ?_⟩
      simp only [hx]
      exact FactoryM.run_bind_eq_ok.2 ⟨x, k, hremade, rfl⟩
    · intro j hj
      obtain hj | rfl := Nat.lt_succ_iff_lt_or_eq.1 hj
      · rw [List.getElem?_append_left (hlength ▸ hj), hmade j hj]
      · rw [← hlength, List.getElem?_concat_length, hlength, hx]

theorem run_rebuildNamed (hs : s.WellFormed) (htiled : s.Tiled ns) :
    ∃ made g, (s.rebuildNamed s.functions.toList).run {} = (.ok made, g) ∧ s.Remade made g := by
  have hsize : s.nodes.size = ns.length := by
    rw [htiled.store_eq]
    exact (size_ofNodes _ ns).1
  obtain ⟨f, hnames, hstore, -⟩ := Factory.run_addFunctions s.functions.toList (f := {}) rfl
    (by simpa [Store.empty] using htiled.functions)
  have hempty : f.store = ofNodes s.functions [] := by
    rw [hstore]
    simp [ofNodes, Store.empty]
  obtain ⟨made, g, hrun, hg, hlength, hmade⟩ :=
    run_remakeNodes hs htiled hempty (Nat.le_of_eq hsize)
  rw [hsize, List.take_length, ← htiled.store_eq] at hg
  exact ⟨made, g, FactoryM.run_bind_eq_ok.2 ⟨_, f, hnames, hrun⟩, hg, hlength, hmade⟩

theorem run_rebuild (h : s.functions.size < UInt32.size) :
    s.rebuild.run = (s.rebuildNamed s.functions.toList).run := by
  rw [rebuild, readNames_eq (Nat.le_of_lt h), if_pos h]
  rfl

theorem run_rebuild_full (h : s.functions.size = UInt32.size) (f : Factory) :
    s.rebuild.run f = (.error (.faulty .nullFunction), f) := by
  rw [rebuild, readNames_eq (Nat.le_of_eq h), if_neg (by omega)]
  rfl

end Store

end ModelExpr
