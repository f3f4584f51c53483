import ModelExpr.Proofs.Workshop.Functions
/-!
The reserved number: nodes and functions are numbered from 0, and the last number there could be is
kept for "none". It is given out all the same when a store has as many entries as there are numbers.
-/

namespace ModelExpr

theorem ExprId.isValid_iff {i : ExprId} : i.isValid = true ↔ i.index ≠ UInt32.size - 1 := by
  have hraw : i.isValid = true ↔ i ≠ .invalid := by simp [isValid]
  rw [hraw]
  constructor
  · intro h hlast
    exact h (congrArg ExprId.mk (UInt32.toNat_inj.1 hlast))
  · intro h hinvalid
    rw [hinvalid] at h
    exact h rfl

namespace Factory.Issued

variable {f : Factory} {ys : List Reply}

theorem valid (hf : f.Issued ys) (hroom : f.store.nodes.size < UInt32.size) {x : AnyHandle}
    (hx : x ∈ issued ys) : x.2.id.isValid = true := by
  obtain ⟨i, hi⟩ := List.mem_iff_getElem?.1 hx
  have hlt := (List.getElem?_eq_some_iff.1 hi).1
  rw [hf.length_eq] at hlt
  rw [ExprId.isValid_iff, (hf.index_eq hi).2]
  omega

theorem last_invalid (hf : f.Issued ys) (hfull : f.store.nodes.size = UInt32.size) :
    ∃ x ∈ issued ys, x.2.isNull = false ∧ x.2.id.isValid = false := by
  have hlast : UInt32.size - 1 < (issued ys).length := by
    rw [hf.length_eq, hfull]
    decide
  have hx := List.getElem?_eq_getElem hlast
  obtain ⟨hnull, hindex⟩ := hf.index_eq hx
  refine ⟨_, List.mem_of_getElem? hx, hnull, ?_⟩
  rw [Bool.eq_false_iff, ne_eq, ExprId.isValid_iff, not_not, hindex]

end Factory.Issued

structure FunctionRef.Serves (x : FunctionRef) (f : Factory) (name : String) : Prop where
  valid : x.isNull = false
  named : f.store.functionName x = .ok name
  callable : ∃ q, (Construction.beginCall x 0).perform.run f = (.ok q, f)

theorem Construction.beginCall_accepted {f : Factory} {x : FunctionRef} (hvalid : x.isNull = false)
    (hlt : x.id.index < f.store.functions.size) :
    ∃ q, (beginCall x 0).perform.run f = (.ok q, f) := by
  have hfunction : Draft.requireFunction f.store.functions.size x = .ok () :=
    Draft.requireFunction_eq_ok.2 ⟨by simpa [FunctionRef.isNull] using hvalid, hlt⟩
  rw [perform_run, plan, Draft.call, hfunction]
  exact ⟨_, rfl⟩

theorem Construction.beginCall_null {f : Factory} {x : FunctionRef} (hnull : x.isNull = true)
    (n : Nat) :
    (beginCall x n).perform.run f = (.error (.rejected (.invalidArgument .function)), f) := by
  have hfunction : Draft.requireFunction f.store.functions.size x =
      .error (.invalidArgument .function) := if_pos (.inl hnull)
  rw [perform_run, plan, Draft.call, hfunction]
  rfl

namespace Factory.Tabulates

variable {f : Factory} {rs : List (String × FunctionRef)}

theorem serves (hf : f.Tabulates rs) (hroom : f.store.functions.size < UInt32.size)
    {r : String × FunctionRef} (hr : r ∈ rs) : r.2.Serves f r.1 := by
  obtain ⟨hvalid, hname⟩ := hf.named hroom hr
  have hlt := (Array.getElem?_eq_some_iff.1 (hf.entry r hr)).1
  exact ⟨hvalid, hname, Construction.beginCall_accepted hvalid hlt⟩

theorem last_null (hf : f.Tabulates rs) (hfull : f.store.functions.size = UInt32.size) :
    ∃ r ∈ rs, f.store.function? (UInt32.size - 1) = some r.2 ∧ r.2.isNull = true := by
  have hlast : UInt32.size - 1 < f.store.functions.size := by
    rw [hfull]
    decide
  obtain ⟨r, hr, hposition⟩ := List.mem_map.1 (hf.mem_refs.2 ⟨_, hlast, rfl⟩)
  refine ⟨r, hr, ?_, ?_⟩
  · rw [Store.function?, if_pos hlast, hposition]
    rfl
  · rw [hposition, FunctionRef.isNull_iff, FunctionRef.ofPosition_index (by decide)]

end Factory.Tabulates

namespace Workshop

variable {W : Workshop} {j : Nat} {f g : Factory}

/-- Up to the last number, every handle is valid and every function that is given or looked up has its
name and can be called. With the last one, none of this is so. -/
theorem run_reserved (jobs : List Job) (hg : (Workshop.run {} jobs).factories[j]? = some g) :
    let handles := issued (Workshop.answers {} j jobs)
    let rs := Workshop.registrations {} j jobs
    ((∀ x ∈ handles, x.2.id.isValid = true) ↔ g.store.nodes.size < UInt32.size) ∧
      ((∀ r ∈ rs, r.2.Serves g r.1) ↔ g.store.functions.size < UInt32.size) ∧
      ((∀ i x, g.store.function? i = some x → ∃ name, (name, x) ∈ rs ∧ x.Serves g name) ↔
        g.store.functions.size < UInt32.size) := by
  intro handles rs
  have hissued : g.Issued (Workshop.answers {} j jobs) := by
    rw [answers_eq]
    exact run_issued jobs hg
  have hall : g.Tabulates rs := run_tabulates (by rintro f ⟨⟩) jobs hg
  have hnodes := hissued.size_le
  have hfunctions := hall.size_le
  refine ⟨⟨?_, ?_⟩, ⟨?_, ?_⟩, ⟨?_, ?_⟩⟩
  · intro hvalid
    by_contra hfull
    obtain ⟨x, hx, -, hinvalid⟩ := hissued.last_invalid (by omega)
    exact Bool.false_ne_true (hinvalid.symm.trans (hvalid x hx))
  · intro hroom x hx
    exact hissued.valid hroom hx
  · intro hserves
    by_contra hfull
    obtain ⟨r, hr, -, hnull⟩ := hall.last_null (by omega)
    exact Bool.false_ne_true ((hserves r hr).valid.symm.trans hnull)
  · intro hroom r hr
    exact hall.serves hroom hr
  · intro hserves
    by_contra hfull
    obtain ⟨r, -, hlookup, hnull⟩ := hall.last_null (by omega)
    obtain ⟨name, -, hr⟩ := hserves _ _ hlookup
    exact Bool.false_ne_true (hr.valid.symm.trans hnull)
  · intro hroom i x hx
    have hmem : x ∈ rs.map (·.2) := by
      rw [← mem_distinct g.reuses]
      exact List.mem_of_getElem? ((hall.getElem?_refs i).trans hx)
    obtain ⟨r, hr, rfl⟩ := List.mem_map.1 hmem
    exact ⟨r.1, hr, hall.serves hroom hr⟩

theorem run_reserved_named : ∃ g,
    (Workshop.run {} (.equip {} :: named)).factories[0]? = some g ∧
      (∀ x ∈ issued (Workshop.answers {} 0 (.equip {} :: named)), x.2.id.isValid = true) ∧
        ∀ i x, g.store.function? i = some x → ∃ name,
          (name, x) ∈ Workshop.registrations {} 0 (.equip {} :: named) ∧ x.Serves g name := by
  obtain ⟨hhandles, -, hfunctions⟩ := run_reserved (j := 0) (.equip {} :: named) rfl
  exact ⟨_, rfl, hhandles.2 (by decide +kernel), hfunctions.2 (by decide +kernel)⟩

def crowd (c : Construction Handle FunctionRef) (n : Nat) : List Job :=
  .equip {} :: List.replicate n (.act 0 (.construct c))

theorem crowd_succ (c : Construction Handle FunctionRef) (n : Nat) :
    crowd c (n + 1) = crowd c n ++ [.act 0 (.construct c)] := by
  rw [crowd, crowd, List.replicate_succ', List.cons_append]

theorem perform_construct (hf : W.factories[j]? = some f) (c : Construction Handle FunctionRef) :
    (W.perform (.act j (.construct c))).2.factories[j]? = some (c.perform.run f).2 := by
  rw [perform, hf]
  exact List.getElem?_set_self (List.getElem?_eq_some_iff.1 hf).1

theorem run_crowd {c : Construction Handle FunctionRef} {P : Factory → Nat → Prop} (hstart : P {} 0)
    (hstep : ∀ f n, n < UInt32.size → P f n → ∃ q g, c.perform.run f = (.ok q, g) ∧ P g (n + 1))
    (n : Nat) (hn : n ≤ UInt32.size) : ∃ g, (Workshop.run {} (crowd c n)).factories[0]? = some g ∧
      P g n ∧ Workshop.FaultlessOn {} 0 (crowd c n) := by
  induction n with
  | zero =>
    refine ⟨{}, rfl, hstart, ?_⟩
    intro y hy
    cases hy
  | succ n ih =>
    obtain ⟨f, hf, hP, hfaultless⟩ := ih (by omega)
    obtain ⟨q, g, hrun, hg⟩ := hstep f n hn hP
    rw [crowd_succ, run_concat]
    refine ⟨g, ?_, hg, ?_⟩
    · rw [perform_construct hf, hrun]
    · intro y hy
      rw [answers_concat, answer?_construct hf, hrun] at hy
      obtain hy | hy := List.mem_append.1 hy
      · exact hfaultless y hy
      · obtain rfl := List.mem_singleton.1 hy
        rfl

theorem crowd_nodes (n : Nat) (hn : n ≤ UInt32.size) :
    ∃ g, (Workshop.run {} (crowd (.logicalConstant true) n)).factories[0]? = some g ∧
      g.store.nodes.size = n ∧ Workshop.FaultlessOn {} 0 (crowd (.logicalConstant true) n) := by
  apply run_crowd (P := fun f n => f.store.nodes.size = n) rfl _ n hn
  intro f n hn hsize
  rw [← hsize] at hn
  refine ⟨_, _, (Construction.perform_run _ f).trans (Plan.fulfil_node.2 ⟨hn, rfl, rfl⟩), ?_⟩
  rw [← hsize]
  exact Array.size_push _

theorem crowd_functions (n : Nat) (hn : n ≤ UInt32.size) :
    ∃ g, (Workshop.run {} (crowd (.addFunction "") n)).factories[0]? = some g ∧
      g.store.functions.size = n ∧ Workshop.FaultlessOn {} 0 (crowd (.addFunction "") n) := by
  have hstep (f : Factory) (n : Nat) (hn : n < UInt32.size)
      (hP : f.names? = none ∧ f.store.functions.size = n) :
      ∃ q g, (Construction.addFunction "").perform.run f = (.ok q, g) ∧
        g.names? = none ∧ g.store.functions.size = n + 1 := by
    obtain ⟨hnames, rfl⟩ := hP
    obtain ⟨g, hrun, hg, hnone⟩ := Construction.perform_addFunction "" hnames hn
    refine ⟨_, g, hrun, hnone, ?_⟩
    rw [hg]
    exact Array.size_push _
  obtain ⟨g, hg, ⟨-, hsize⟩, hfaultless⟩ := run_crowd
    (P := fun f n => f.names? = none ∧ f.store.functions.size = n) ⟨rfl, rfl⟩ hstep n hn
  exact ⟨g, hg, hsize, hfaultless⟩

/-- No call is a fault, and still the last node has the number of the null handle, and the last function
is the null function, which has no name and cannot be called. -/
theorem last_number_given :
    (∃ g, (Workshop.run {} (crowd (.logicalConstant true) UInt32.size)).factories[0]? = some g ∧
        Workshop.FaultlessOn {} 0 (crowd (.logicalConstant true) UInt32.size) ∧
        ∃ x ∈ issued (Workshop.answers {} 0 (crowd (.logicalConstant true) UInt32.size)),
          x.2.isNull = false ∧ x.2.id = .invalid) ∧
      ∃ g, (Workshop.run {} (crowd (.addFunction "") UInt32.size)).factories[0]? = some g ∧
        Workshop.FaultlessOn {} 0 (crowd (.addFunction "") UInt32.size) ∧
        ∃ r ∈ Workshop.registrations {} 0 (crowd (.addFunction "") UInt32.size),
          g.store.function? (UInt32.size - 1) = some r.2 ∧ r.2 = .null ∧
            g.store.functionName r.2 = .error .nullFunction ∧
              (Construction.beginCall r.2 0).perform.run g =
                (.error (.rejected (.invalidArgument .function)), g) := by
  constructor
  · obtain ⟨g, hg, hsize, hfaultless⟩ := crowd_nodes UInt32.size (Nat.le_refl _)
    have hissued := run_issued (crowd (.logicalConstant true) UInt32.size) hg
    rw [← answers_eq] at hissued
    obtain ⟨x, hx, hnull, hinvalid⟩ := hissued.last_invalid hsize
    refine ⟨g, hg, hfaultless, x, hx, hnull, ?_⟩
    simpa [ExprId.isValid] using hinvalid
  · obtain ⟨g, hg, hsize, hfaultless⟩ := crowd_functions UInt32.size (Nat.le_refl _)
    have hall := run_tabulates (by rintro f ⟨⟩) (crowd (.addFunction "") UInt32.size) hg
    obtain ⟨r, hr, hlookup, hnull⟩ := hall.last_null hsize
    refine ⟨g, hg, hfaultless, r, hr, hlookup, ?_, if_pos hnull,
      Construction.beginCall_null hnull 0⟩
    apply congrArg FunctionRef.mk
    simpa [FunctionRef.isNull, FunctionId.isValid] using hnull

end Workshop

end ModelExpr
