import ModelExpr.Proofs.Factory.Recipe
import ModelExpr.Proofs.Store.Tiling

namespace ModelExpr

namespace Store

def through (s : Store) (e : Handle .expr) {v : View} {c : Content} (f : Field v c) :
    Except Failure c.Value := do
  s.read (← liftM (e.cast v)) f

def listRecipe (s : Store) (e : Handle .expr) (l : ListView)
    (start : Nat → Construction Handle FunctionRef) : Except Failure (Recipe Handle FunctionRef) := do
  let xs ← s.through e (.operands (View.list?_eq_some_iff.2 rfl) : Field l.view (.handles l.element))
  return .list (start xs.size) xs.toList

def recipeAs (s : Store) (e : Handle .expr) (k : Kind) :
    View → Except Failure (Recipe Handle FunctionRef)
  | .numericConstant => do
    return .make (.constant (← s.through e (.number rfl : Field .numericConstant _)))
  | .decisionVariable => do
    return .make (.decisionVariable (← s.through e (.index rfl : Field .decisionVariable _)))
  | .logicalConstant => do
    return .make (.logicalConstant (← s.through e (.truth rfl : Field .logicalConstant _)))
  | .unary => do
    return .make (.unary k (← s.through e (.argument rfl : Field .unary _)))
  | .negation => do
    return .make (.negation (← s.through e (.argument rfl : Field .negation _)))
  | .binary => do
    let x ← s.through e (.left rfl : Field .binary _)
    let y ← s.through e (.right rfl : Field .binary _)
    return .make (.binary k x y)
  | .relational => do
    let x ← s.through e (.left rfl : Field .relational _)
    let y ← s.through e (.right rfl : Field .relational _)
    return .make (.relational k x y)
  | .binaryLogical => do
    let x ← s.through e (.left rfl : Field .binaryLogical _)
    let y ← s.through e (.right rfl : Field .binaryLogical _)
    return .make (.binaryLogical k x y)
  | .logicalCount => do
    let x ← s.through e (.left rfl : Field .logicalCount _)
    let y ← s.through e (.right rfl : Field .logicalCount _)
    return .make (.logicalCount k x y)
  | .conditional => do
    let c ← s.through e (.condition rfl : Field .conditional _)
    let x ← s.through e (.consequent rfl : Field .conditional _)
    let y ← s.through e (.alternative rfl : Field .conditional _)
    return .make (.conditional c x y)
  | .implication => do
    let c ← s.through e (.condition rfl : Field .implication _)
    let x ← s.through e (.consequent rfl : Field .implication _)
    let y ← s.through e (.alternative rfl : Field .implication _)
    return .make (.implication c x y)
  | .piecewiseLinear => do
    let xs ← s.through e (.slopes rfl : Field .piecewiseLinear _)
    let ys ← s.through e (.breakpoints rfl : Field .piecewiseLinear _)
    let x ← s.through e (.termVariable rfl : Field .piecewiseLinear _)
    return .term xs.toList ys.toList x
  | .call => do
    let f ← s.through e (.function rfl : Field .call _)
    s.listRecipe e .call (.beginCall f)
  | .vararg => s.listRecipe e .vararg (.beginVararg k)
  | .sum => s.listRecipe e .sum .beginSum
  | .numberOf => do
    let x ← s.through e (.reference rfl : Field .numberOf _)
    let xs ← s.through e (.operands (l := .numberOf) rfl : Field .numberOf _)
    return .list (l := .numberOf) (.beginNumberOf xs.size x) xs.toList.tail
  | .count => s.listRecipe e .count .beginCount
  | .iteratedLogical => s.listRecipe e .iteratedLogical (.beginIteratedLogical k)
  | .allDiff => s.listRecipe e .allDiff .beginAllDiff
  | .expr | .numeric | .logical => .error (.rejected (.invalidKind k))

def recipe (s : Store) (e : Handle .expr) : Except Failure (Recipe Handle FunctionRef) := do
  let k ← liftM e.kind
  s.recipeAs e k (.specific k)

end Store

def Recipe.Known (s : Store) : Recipe Handle FunctionRef → Prop
  | .make c => c.Known s
  | .list start xs => start.Known s ∧ ∀ x ∈ xs, x.Known s
  | .term _ _ x => x.Known s

def Construction.view? {H : View → Type} {F : Type} : Construction H F → Option View
  | .constant _ => some .numericConstant
  | .decisionVariable _ => some .decisionVariable
  | .logicalConstant _ => some .logicalConstant
  | .unary _ _ => some .unary
  | .binary _ _ _ => some .binary
  | .relational _ _ _ => some .relational
  | .binaryLogical _ _ _ => some .binaryLogical
  | .logicalCount _ _ _ => some .logicalCount
  | .negation _ => some .negation
  | .conditional _ _ _ => some .conditional
  | .implication _ _ _ => some .implication
  | _ => none

theorem Construction.plan_of_node? {c : Construction Handle FunctionRef} {v : View} {n : PlainNode}
    (m : Nat) (hn : c.node? = some n) (hview : c.view? = some v) (hv : v.accepts n.kind = true) :
    ∃ p, c.plan m = .ok (.node v n.kind p) := by
  cases c with
  | constant | decisionVariable | logicalConstant =>
    cases hn
    cases hview
    exact ⟨_, rfl⟩
  | unary k a =>
    obtain ⟨_ | x⟩ := a <;> cases hn
    cases hview
    exact ⟨_, bind_eq_ok.2 ⟨(), requireKind_eq_ok.2 hv, rfl⟩⟩
  | negation a =>
    obtain ⟨_ | x⟩ := a <;> cases hn
    cases hview
    exact ⟨_, rfl⟩
  | binary k a b | relational k a b | binaryLogical k a b | logicalCount k a b =>
    obtain ⟨_ | x⟩ := a <;> obtain ⟨_ | y⟩ := b <;> cases hn
    cases hview
    exact ⟨_, bind_eq_ok.2 ⟨(), requireKind_eq_ok.2 hv, rfl⟩⟩
  | conditional a b e | implication a b e =>
    obtain ⟨_ | x⟩ := a <;> obtain ⟨_ | y⟩ := b <;> cases hn
    cases hview
    exact ⟨_, rfl⟩
  | _ => cases hview

theorem Draft.ofKind_of_count {l : ListView} {k : Kind} {n least : Nat} (hleast : least ≤ n)
    (hmost : n < UInt32.size - 1) : (ofKind k n least : Except Rejection (Draft l)) =
      .ok { kind := k, function := .invalid, declared := n } :=
  bind_eq_ok.2 ⟨(), requireCount_eq_ok.2 ⟨hleast, hmost⟩, rfl⟩

theorem Construction.plan_beginCall {t : Store} {f : FunctionRef} {n : Nat} (hf : f.Registered t)
    (hn : n < UInt32.size - 1) : (Construction.beginCall f n).plan t.functions.size =
      .ok (.draft (.draft { kind := .call, function := f.id, declared := n : Draft .call })) := by
  obtain ⟨hvalid, hlt⟩ := hf
  have hfunction : Draft.requireFunction t.functions.size f = .ok () := by
    apply if_neg
    rw [FunctionRef.isNull, hvalid]
    simpa using hlt
  have hcall : Draft.call t.functions.size f n =
      .ok { kind := .call, function := f.id, declared := n } :=
    bind_eq_ok.2 ⟨(), hfunction, bind_eq_ok.2
      ⟨(), requireCount_eq_ok.2 ⟨Nat.zero_le n, hn⟩, rfl⟩⟩
  exact bind_eq_ok.2 ⟨_, hcall, rfl⟩

namespace Store

section Recipe

variable {s t : Store} {v w a b : View} {c : Content} {r : Ref} {n : Plain} {i : Nat}

theorem through_ofRef {f : Field v c} {x : c.Value} (hv : v.accepts r.kind = true)
    (hn : s.plain? r.id.index = some n) (hx : n.field? s.variableIndex? f = some (.ok x)) :
    s.through (.ofRef r) f = .ok x := by
  have hcast : (Handle.ofRef r : Handle .expr).cast v = .ok (.ofRef r) := by
    simp only [Handle.cast, Handle.ofRef, if_pos hv]
  rw [through, hcast]
  exact read_of_plain hn hx

variable (hn : s.plain? r.id.index = some n) (ht : t.Suits i r.kind n)
  (hv : v.accepts r.kind = true)

include hn ht hv

theorem exists_argument (hw : v.argument? = some w) : ∃ x, n = .unary x ∧
    (Handle.ofRef x : Handle w).Known t ∧ s.through (.ofRef r) (.argument hw) = .ok (.ofRef x) := by
  obtain ⟨x, rfl, hslot⟩ := ht.exists_argument hv hw
  exact ⟨x, rfl, ht.operand_known rfl hslot, through_ofRef hv hn rfl⟩

theorem exists_sides (hw : v.sides? = some (a, b)) : ∃ x y, n = .binary x y ∧
    ((Handle.ofRef x : Handle a).Known t ∧ (Handle.ofRef y : Handle b).Known t) ∧
      s.through (.ofRef r) (.left hw) = .ok (.ofRef x) ∧
        s.through (.ofRef r) (.right hw) = .ok (.ofRef y) := by
  obtain ⟨x, y, rfl, hleft, hright⟩ := ht.exists_sides hv hw
  refine ⟨x, y, rfl, ⟨ht.operand_known rfl hleft, ?_⟩, through_ofRef hv hn rfl,
    through_ofRef hv hn rfl⟩
  exact ht.operand_known (j := 1) rfl hright

theorem exists_branches (hw : v.branch? = some w) : ∃ x y z?, n = .branching x y z? ∧
    ((Handle.ofRef x : Handle .logical).Known t ∧ (Handle.ofRef y : Handle w).Known t ∧
      (Handle.mk z? : Handle w).Known t) ∧
        s.through (.ofRef r) (.condition hw) = .ok (.ofRef x) ∧
          s.through (.ofRef r) (.consequent hw) = .ok (.ofRef y) ∧
            s.through (.ofRef r) (.alternative hw) = .ok ⟨z?⟩ := by
  obtain ⟨x, y, z?, rfl, hcondition, hbranch⟩ := ht.exists_branches hv hw
  refine ⟨x, y, z?, rfl, ⟨ht.operand_known rfl hcondition, ?_, ?_⟩, through_ofRef hv hn rfl,
    through_ofRef hv hn rfl, through_ofRef hv hn rfl⟩
  · exact ht.operand_known (j := 1) rfl (hbranch 0)
  · intro z hz
    cases hz
    exact ht.operand_known (j := 2) rfl (hbranch 1) z rfl

theorem exists_operands {l : ListView} (hl : v.list? = some l) :
    n.list? = some n.operands ∧ (∀ x ∈ n.operands, (Handle.ofRef x : Handle l.element).Known t) ∧
      s.through (.ofRef r) (.operands hl) = .ok (n.operands.map .ofRef).toArray := by
  obtain ⟨hlist, hslot⟩ := ht.exists_list hv hl
  refine ⟨hlist, ?_, ?_⟩
  · intro x hx
    obtain ⟨j, hj⟩ := List.mem_iff_getElem?.1 hx
    exact ht.operand_known hj (hslot j)
  · apply through_ofRef hv hn
    rw [Plain.field?, hlist]
    rfl

theorem listRecipe_of_plain {l : ListView} (hl : v = l.view) (hcount : n.Countable) {f : FunctionId}
    {start : Nat → Construction Handle FunctionRef}
    (hplan : n.operands.length < UInt32.size - 1 →
      (start n.operands.length).plan t.functions.size = .ok (.draft (.draft
        ({ kind := r.kind, function := f, declared := n.operands.length } : Draft l))))
    (hcall : r.kind = .call → n = .call f n.operands)
    (hknown : (start n.operands.length).Known t) :
    ∃ R, s.listRecipe (.ofRef r) l start = .ok R ∧ R.Known t ∧ R.Makes t.functions.size r.kind n := by
  subst hl
  obtain ⟨hlist, hall, hread⟩ := exists_operands hn ht hv (View.list?_eq_some_iff.2 rfl)
  have hlt := hcount.listed
  rw [Plain.listed, hlist, Option.getD_some] at hlt
  have hplain : n = (Draft.holding
      { kind := r.kind, function := f, declared := n.operands.length : Draft l } n.operands).plain := by
    have hshape := ht.shape.trans (ListView.shape_eq hv)
    by_cases hk : r.kind = .call
    · simpa [Draft.plain, Draft.holding, hk] using hcall hk
    · rw [if_neg hk] at hshape
      cases n <;> cases hshape
      simp [Draft.plain, Draft.holding, hk, Plain.operands]
  have hsize : (n.operands.map (Handle.ofRef (v := l.element))).toArray.size =
      n.operands.length := by
    rw [List.size_toArray, List.length_map]
  refine ⟨_, bind_eq_ok.2 ⟨_, hread, rfl⟩, ⟨?_, ?_⟩, ?_⟩
  · rw [hsize]
    exact hknown
  · intro x hx
    obtain ⟨y, hy, rfl⟩ := List.mem_map.1 hx
    exact hall y hy
  · rw [hsize]
    have hmakes := Recipe.Makes.list _ _ n.operands (hplan hlt) rfl (Nat.zero_add _).symm
    rw [← hplain] at hmakes
    exact hmakes

theorem numberOfRecipe_of_plain (hcount : n.Countable) (hview : v = .numberOf) :
    ∃ R, s.recipeAs (.ofRef r) r.kind v = .ok R ∧ R.Known t ∧
      R.Makes t.functions.size r.kind n := by
  subst hview
  have hk : r.kind = .numberOf := of_decide_eq_true hv
  obtain ⟨hlist, hall, hread⟩ := exists_operands hn ht hv (l := .numberOf) rfl
  have hcounted := ht.counted hk
  have hshape := ht.shape
  rw [hk] at hshape
  cases n <;> cases hshape
  rename_i rs
  cases rs with
  | nil => exact absurd rfl hcounted
  | cons x rs =>
    have hx : (Handle.ofRef x : Handle .numeric).Known t := hall x List.mem_cons_self
    let d : Draft .numberOf :=
      { kind := .numberOf, function := .invalid, declared := rs.length + 1, operands := #[x] }
    have hplan : (Construction.beginNumberOf (rs.length + 1) (.ofRef x)).plan
        t.functions.size = .ok (.draft (.draft d)) := by
      have hbegin := Draft.ofKind_of_count (l := .numberOf) (k := .numberOf)
        (Nat.le_add_left 1 rs.length) hcount.listed
      exact bind_eq_ok.2 ⟨d, bind_eq_ok.2 ⟨_, hbegin, rfl⟩, rfl⟩
    have hmakes := Recipe.Makes.list _ d rs hplan hk.symm (Nat.add_comm rs.length 1)
    have hplain : (d.holding rs).plain = .list (x :: rs) := by
      simp [Draft.plain, Draft.holding, d]
    rw [hplain] at hmakes
    refine ⟨.list (l := .numberOf) (.beginNumberOf (rs.length + 1) (.ofRef x)) (rs.map .ofRef),
      bind_eq_ok.2 ⟨_, through_ofRef hv hn rfl, bind_eq_ok.2 ⟨_, hread, ?_⟩⟩, ⟨hx, ?_⟩, hmakes⟩
    · simp [Plain.operands, pure, Except.pure]
    · intro y hy
      obtain ⟨z, hz, rfl⟩ := List.mem_map.1 hy
      exact hall z (List.mem_cons_of_mem x hz)

omit hn ht hv in
theorem makes_of_node? {c : Construction Handle FunctionRef} (hnode : c.node? = some ⟨r.kind, n⟩)
    (hview : c.view? = some v) (hv : v.accepts r.kind = true) (m : Nat) :
    (Recipe.make c).Makes m r.kind n := by
  obtain ⟨p, hp⟩ := Construction.plan_of_node? m hnode hview hv
  exact .make c n v p hnode hp

theorem recipeAs_of_plain (hcount : n.Countable) (hspecific : v.isSpecific = true) :
    ∃ R, s.recipeAs (.ofRef r) r.kind v = .ok R ∧ R.Known t ∧
      R.Makes t.functions.size r.kind n := by
  cases v with
  | expr | numeric | logical => cases hspecific
  | numericConstant | decisionVariable | logicalConstant =>
    have hshape := ht.shape_eq hv rfl rfl
    have hk := of_decide_eq_true hv
    cases n <;> cases hshape
    refine ⟨_, bind_eq_ok.2 ⟨_, through_ofRef hv hn rfl, rfl⟩, trivial, ?_⟩
    exact makes_of_node? (by rw [hk]; rfl) rfl hv _
  | unary =>
    obtain ⟨x, rfl, hx, hread⟩ := exists_argument hn ht hv rfl
    exact ⟨_, bind_eq_ok.2 ⟨_, hread, rfl⟩, hx, makes_of_node? rfl rfl hv _⟩
  | negation =>
    obtain ⟨x, rfl, hx, hread⟩ := exists_argument hn ht hv rfl
    have hk : r.kind = .not := of_decide_eq_true hv
    refine ⟨_, bind_eq_ok.2 ⟨_, hread, rfl⟩, hx, ?_⟩
    exact makes_of_node? (by rw [hk]; rfl) rfl hv _
  | binary | relational | binaryLogical | logicalCount =>
    obtain ⟨x, y, rfl, hxy, hleft, hright⟩ := exists_sides hn ht hv rfl
    refine ⟨_, bind_eq_ok.2 ⟨_, hleft, bind_eq_ok.2 ⟨_, hright, rfl⟩⟩, hxy, ?_⟩
    exact makes_of_node? rfl rfl hv _
  | conditional | implication =>
    obtain ⟨x, y, z?, rfl, hxyz, hx, hy, hz⟩ := exists_branches hn ht hv rfl
    have hk := of_decide_eq_true hv
    refine ⟨_, bind_eq_ok.2 ⟨_, hx, bind_eq_ok.2 ⟨_, hy, bind_eq_ok.2 ⟨_, hz, rfl⟩⟩⟩, hxyz, ?_⟩
    exact makes_of_node? (by rw [hk]; rfl) rfl hv _
  | piecewiseLinear =>
    have hshape := ht.shape_eq hv rfl rfl
    cases n <;> cases hshape
    rename_i xs ys x
    obtain ⟨hys, hxs⟩ := ht.term xs ys x rfl
    refine ⟨.term xs ys (.ofRef x), bind_eq_ok.2 ⟨_, through_ofRef hv hn rfl, bind_eq_ok.2
      ⟨_, through_ofRef hv hn rfl, bind_eq_ok.2 ⟨_, through_ofRef hv hn rfl, rfl⟩⟩⟩, ?_, ?_⟩
    · exact ht.operand_known (j := 0) rfl (View.slot_piecewiseLinear hv rfl 0)
    · exact .term xs ys x (of_decide_eq_true hv) hys (hcount.breakpoints xs ys x rfl) hxs
  | call =>
    have hshape := ht.shape_eq hv rfl rfl
    have hk : r.kind = .call := of_decide_eq_true hv
    cases n <;> cases hshape
    rename_i f rs
    have hf : FunctionRef.Registered t ⟨f⟩ := ht.callee f rs rfl
    have hplan := fun hlt => hk ▸ Construction.plan_beginCall (n := rs.length) hf hlt
    have hcallee : (Construction.beginCall ⟨f⟩ rs.length).Known t := .inr hf
    obtain ⟨R, hR, hknown, hmakes⟩ :=
      listRecipe_of_plain (l := .call) hn ht hv rfl hcount hplan (fun _ => rfl) hcallee
    exact ⟨R, bind_eq_ok.2 ⟨_, through_ofRef hv hn rfl, hR⟩, hknown, hmakes⟩
  | vararg | iteratedLogical =>
    apply listRecipe_of_plain hn ht hv rfl hcount (f := .invalid)
    · intro hlt
      refine bind_eq_ok.2 ⟨_, bind_eq_ok.2 ⟨(), requireKind_eq_ok.2 hv, ?_⟩, rfl⟩
      exact Draft.ofKind_of_count (Nat.zero_le _) hlt
    · intro hk
      rw [hk] at hv
      cases hv
    · trivial
  | sum | count | allDiff =>
    have hk := of_decide_eq_true hv
    apply listRecipe_of_plain hn ht hv rfl hcount (f := .invalid)
    · intro hlt
      rw [hk]
      exact bind_eq_ok.2 ⟨_, Draft.ofKind_of_count (Nat.zero_le _) hlt, rfl⟩
    · intro hcall
      cases hk.symm.trans hcall
    · trivial
  | numberOf => exact numberOfRecipe_of_plain hn ht hv hcount rfl

end Recipe

end Store

end ModelExpr
