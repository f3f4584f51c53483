import ModelExpr.Proofs.Store.Tiling

namespace ModelExpr.Store

structure Spells (s : Store) (ns : List PlainNode) : Prop where
  size_eq : s.kinds.size = s.nodes.size
  plainNodes : s.plainNodes = ns.map .ok

namespace Spells

variable {s t : Store} {ns : List PlainNode} {k : Kind} {n : Plain} {i : Nat}

theorem empty : Store.empty.Spells [] := ⟨rfl, rfl⟩

theorem length_eq (hs : s.Spells ns) : ns.length = s.nodes.size := by
  have hlength := congrArg List.length hs.plainNodes
  simp only [Store.plainNodes, List.length_map, List.length_zip, Array.length_toList, hs.size_eq,
    Nat.min_self] at hlength
  exact hlength.symm

theorem map_inline (hs : s.Spells ns) (h : s.Extends t) :
    (s.kinds.toList.zip s.nodes.toList).map (fun (k, p) => (t.inline p).map (PlainNode.mk k)) =
      ns.map .ok := by
  rw [← hs.plainNodes]
  apply List.map_congr_left
  rintro ⟨k, p⟩ hkp
  have hmem : (s.inline p).map (PlainNode.mk k) ∈ s.plainNodes := List.mem_map.2 ⟨(k, p), hkp, rfl⟩
  rw [hs.plainNodes] at hmem
  obtain ⟨m, -, hm⟩ := List.mem_map.1 hmem
  obtain ⟨n, hn, -⟩ := map_eq_ok.1 hm.symm
  simp only [hn, h.inline hn]

theorem pads (hs : s.Spells ns) (h : s.Pads t) : t.Spells ns := by
  constructor
  · rw [h.kinds_eq, h.nodes_eq, hs.size_eq]
  · rw [Store.plainNodes, h.kinds_eq, h.nodes_eq, hs.map_inline h.toExtends]

theorem adds (hs : s.Spells ns) (h : s.Adds t k n) : t.Spells (ns ++ [⟨k, n⟩]) := by
  obtain ⟨u, p, hu, hp, rfl⟩ := h
  have hpadded := hs.pads hu
  have hext := extends_pushNode u k p
  have hsize : u.kinds.toList.length = u.nodes.toList.length := by simp [hpadded.size_eq]
  have hkinds : (u.pushNode k p).kinds.toList = u.kinds.toList ++ [k] := Array.toList_push
  have hnodes : (u.pushNode k p).nodes.toList = u.nodes.toList ++ [p] := Array.toList_push
  constructor
  · simp [pushNode, hpadded.size_eq]
  · rw [Store.plainNodes, hkinds, hnodes, List.zip_append hsize, List.map_append,
      hpadded.map_inline hext, List.map_append]
    simp only [List.zip_cons_cons, List.zip_nil_left, List.map_cons, List.map_nil, hext.inline hp]
    rfl

theorem node (hs : s.Spells ns) {m : PlainNode} (hm : ns[i]? = some m) : ∃ p,
    s.kinds[i]? = some m.kind ∧ s.nodes[i]? = some p ∧ s.inline p = .ok m.content := by
  have hentry : s.plainNodes[i]? = some (.ok m) := by
    rw [hs.plainNodes, List.getElem?_map, hm]
    rfl
  obtain ⟨⟨k, p⟩, hkp, hinline⟩ := Option.map_eq_some_iff.1 (List.getElem?_map ▸ hentry)
  obtain ⟨hk, hp⟩ := List.getElem?_zip_eq_some.1 hkp
  obtain ⟨n, hn, rfl⟩ := map_eq_ok.1 hinline
  exact ⟨p, Array.getElem?_toList ▸ hk, Array.getElem?_toList ▸ hp, hn⟩

theorem exists_node (hs : s.Spells ns) {p : Payload} (hp : s.nodes[i]? = some p) :
    ∃ m, ns[i]? = some m ∧ s.inline p = .ok m.content := by
  have hi : i < ns.length := hs.length_eq ▸ (Array.getElem?_eq_some_iff.1 hp).1
  have hm := List.getElem?_eq_getElem hi
  obtain ⟨q, -, hq, hinline⟩ := hs.node hm
  obtain rfl := Option.some.inj (hp.symm.trans hq)
  exact ⟨_, hm, hinline⟩

theorem plain?_eq_some_iff (hs : s.Spells ns) :
    s.plain? i = some n ↔ ∃ m, ns[i]? = some m ∧ m.content = n := by
  rw [Store.plain?_eq_some_iff]
  constructor
  · rintro ⟨p, hp, hn⟩
    obtain ⟨m, hm, hinline⟩ := hs.exists_node hp
    exact ⟨m, hm, Except.ok.inj (hinline.symm.trans hn)⟩
  · rintro ⟨m, hm, rfl⟩
    obtain ⟨p, -, hp, hinline⟩ := hs.node hm
    exact ⟨p, hp, hinline⟩

end Spells

end ModelExpr.Store
