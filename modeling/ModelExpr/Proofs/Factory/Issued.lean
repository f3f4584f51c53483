import ModelExpr.Proofs.Factory.Records

namespace ModelExpr

abbrev Reply := Except Failure (Option Product)

def issued (ys : List Reply) : List AnyHandle :=
  ys.filterMap fun y => y.toOption.join.bind Product.handle?

theorem issued_concat (ys : List Reply) (y : Reply) :
    issued (ys ++ [y]) = issued ys ++ (y.toOption.join.bind Product.handle?).toList :=
  filterMap_concat _ ys y

theorem Construction.Opens.unissued {c : Construction Handle FunctionRef} {m : Nat} {q : Product}
    (h : c.Opens m q) : q.handle? = none := by
  cases h <;> rfl

namespace Factory

structure Issued (f : Factory) (ys : List Reply) : Prop where
  refs_eq : (issued ys).map (·.2.upcast) = f.store.refs.map Handle.ofRef
  size_eq : f.store.kinds.size = f.store.nodes.size
  size_le : f.store.nodes.size ≤ UInt32.size

namespace Issued

variable {f g : Factory} {ys : List Reply}

theorem ofOptions {o : Options} (h : ofOptions o = .ok f) : f.Issued [] := by
  rw [ofOptions_eq h]
  exact ⟨rfl, rfl, Nat.zero_le _⟩

theorem congr (hf : f.Issued ys) (hkinds : g.store.kinds = f.store.kinds)
    (hnodes : g.store.nodes = f.store.nodes) {y : Reply}
    (hy : y.toOption.join.bind Product.handle? = none) : g.Issued (ys ++ [y]) := by
  constructor
  · rw [issued_concat, hy, Option.toList_none, List.append_nil, hf.refs_eq, Store.refs, Store.refs,
      hkinds]
  · rw [hkinds, hnodes]
    exact hf.size_eq
  · rw [hnodes]
    exact hf.size_le

theorem change (hf : f.Issued ys) (y : Except Rejection Unit) :
    f.Issued (ys ++ [(y.map fun _ => none).mapError .rejected]) :=
  hf.congr rfl rfl (by cases y <;> rfl)

theorem lays {k : Kind} {n : Plain} (hf : f.Issued ys) (h : f.Lays g k n) (v : View) :
    g.Issued (ys ++ [.ok (some (.handle (.ofRef (f.store.next k) : Handle v)))]) := by
  have hroom := h.room.node
  have hsize := hf.size_eq
  constructor
  · rw [issued_concat, List.map_append, hf.refs_eq, h.store_eq, Store.refs_lay, List.map_append, hsize]
    rfl
  · rw [h.store_eq, Store.lay, Array.size_push, Array.size_push, hsize]
  · rw [h.store_eq, Store.lay, Array.size_push]
    omega

theorem call {c : Call} {y : Except Failure Product} (hf : f.Issued ys) (h : c.Ends f g y) :
    g.Issued (ys ++ [y.map some]) := by
  cases h with
  | refused r h => exact hf.congr (by rw [h.store_eq]) (by rw [h.store_eq]) rfl
  | overfull e h hpads => exact hf.congr hpads.store.kinds_eq hpads.store.nodes_eq rfl
  | laid v k n hn h => exact hf.lays h v
  | known name x hc hx hg => exact hf.congr (by rw [hg]) (by rw [hg]) rfl
  | registered name x hc h => exact hf.congr (by rw [h.store_eq]; rfl) (by rw [h.store_eq]; rfl) rfl
  | drafted b q hc hq hg =>
    exact hf.congr (by rw [hg]) (by rw [hg]) (Construction.plan_opens hq).unissued

theorem getElem?_eq (hf : f.Issued ys) (i : Nat) : (issued ys)[i]?.map (·.2.upcast) =
    f.store.kinds[i]?.map fun k => .ofRef ⟨⟨i.toUInt32⟩, k⟩ := by
  rw [← List.getElem?_map, hf.refs_eq, List.getElem?_map, Store.refs, List.getElem?_map,
    List.getElem?_zipIdx, Array.getElem?_toList, Option.map_map, Option.map_map, Nat.zero_add]
  rfl

theorem length_eq (hf : f.Issued ys) : (issued ys).length = f.store.nodes.size := by
  have hlength := congrArg List.length hf.refs_eq
  simp only [List.length_map, Store.refs, List.length_zipIdx, Array.length_toList] at hlength
  exact hlength.trans hf.size_eq

theorem index_eq (hf : f.Issued ys) {i : Nat} {x : AnyHandle} (hx : (issued ys)[i]? = some x) :
    x.2.isNull = false ∧ x.2.id.index = i := by
  have hi := (List.getElem?_eq_some_iff.1 hx).1
  have hle := hf.size_le
  rw [hf.length_eq] at hi
  have hrefs := hf.getElem?_eq i
  rw [hx] at hrefs
  obtain ⟨k, -, hk⟩ := Option.map_eq_some_iff.1 hrefs.symm
  have href : x.2.ref? = some ⟨⟨i.toUInt32⟩, k⟩ := congrArg (@Handle.ref? .expr) hk.symm
  constructor
  · rw [Handle.isNull, href]
    rfl
  · rw [Handle.id, href]
    exact Nat.mod_eq_of_lt (Nat.lt_of_lt_of_le hi hle)

theorem nodup (hf : f.Issued ys) : ((issued ys).map (·.2.upcast)).Nodup := by
  apply List.pairwise_iff_getElem.2
  intro i j hi hj hij heq
  rw [List.length_map] at hi hj
  rw [List.getElem_map, List.getElem_map] at heq
  obtain ⟨-, hindex⟩ := hf.index_eq (List.getElem?_eq_getElem hi)
  obtain ⟨-, hindex'⟩ := hf.index_eq (List.getElem?_eq_getElem hj)
  have hid : (issued ys)[i].2.id = (issued ys)[j].2.id := congrArg (@Handle.id .expr) heq
  rw [hid] at hindex
  omega

theorem lookup (hf : f.Issued ys) (i : ExprId) :
    f.store.expr? i = (issued ys)[i.index]?.map (·.2.upcast) := by
  have hindex : i.index.toUInt32 = i.raw := UInt32.ofNat_toNat
  rw [hf.getElem?_eq, hindex]
  rfl

end Issued

end Factory

end ModelExpr
