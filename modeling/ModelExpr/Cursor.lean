import ModelExpr.Store.Field
/-!
Cursors: a walk along the operands of one expression from both ends. What remains lies between a
front and a back position; taking moves one of them towards the other and never past it.
-/

namespace ModelExpr

structure Cursor (view : View) where
  owner : Option Ref
  operands : Array Ref
  front : Nat
  back : Nat
  front_le_back : front ≤ back
  back_le_size : back ≤ operands.size

namespace Cursor

variable {v : View}

def ofOperands (owner : Option Ref) (operands : Array Ref) : Cursor v :=
  ⟨owner, operands, 0, operands.size, Nat.zero_le _, Nat.le_refl _⟩

def position (c : Cursor v) : Nat := c.front

def length (c : Cursor v) : Nat := c.back - c.front

def remaining (c : Cursor v) : Array (Handle v) :=
  (c.operands.extract c.front c.back).map .ofRef

def atBack (c : Cursor v) : Cursor v :=
  { c with front := c.back, front_le_back := Nat.le_refl _ }

def atFront (c : Cursor v) : Cursor v :=
  { c with
    back := c.front
    front_le_back := Nat.le_refl _
    back_le_size := Nat.le_trans c.front_le_back c.back_le_size }

def nth (c : Cursor v) (k : Nat) : Option (Handle v) × Cursor v :=
  if h : c.front + k < c.back then
    have := c.back_le_size
    (some (.ofRef c.operands[c.front + k]), { c with front := c.front + k + 1, front_le_back := h })
  else (none, c.atBack)

def nthBack (c : Cursor v) (k : Nat) : Option (Handle v) × Cursor v :=
  if h : c.front + k < c.back then
    have := c.back_le_size
    (some (.ofRef c.operands[c.back - 1 - k]),
      { c with
        back := c.back - 1 - k
        front_le_back := by omega
        back_le_size := by omega })
  else (none, c.atFront)

def next (c : Cursor v) : Option (Handle v) × Cursor v := c.nth 0

def nextBack (c : Cursor v) : Option (Handle v) × Cursor v := c.nthBack 0

def same (c d : Cursor v) : Bool := c.owner = d.owner && c.front = d.front && c.back = d.back

def text (c : Cursor v) : String :=
  s!"ArgIter \x7b position: {c.position}, remaining: {c.length} \x7d"

end Cursor

def Store.cursor (s : Store) {l : ListView} (h : Handle l.view) :
    Except Fault (Cursor l.element) :=
  (s.readOperands h).map (.ofOperands h.ref?)

end ModelExpr
