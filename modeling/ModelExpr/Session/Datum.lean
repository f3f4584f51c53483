import ModelExpr.Factory.Call

namespace ModelExpr

inductive Datum where
  | nothing
  | truth (value : Bool)
  | count (value : Nat)
  | number (value : Binary64)
  | text (value : String)
  | list (values : List Datum)
  | record (parts : List (String × Datum))

namespace Datum

def texts (xs : List String) : Datum := .list (xs.map .text)

def ofOption (x : Option Datum) : Datum := x.getD .nothing

end Datum

inductive Refusal where
  | failure (f : Failure)
  -- the register holds nothing
  | unbound
  -- the store is finished and cannot grow
  | frozen
  | noField
  -- the request cannot be read, or a register holds something of another sort
  | malformed
  deriving DecidableEq

namespace Refusal

def parts : Refusal → List (String × Datum)
  | .failure (.rejected r) =>
    [("error", .text r.code), ("message", .text r.message), ("debug", .text r.text)]
  | .failure (.faulty f) => [("error", .text "panic"), ("message", .text f.message)]
  | .unbound => [("error", .text "unbound")]
  | .frozen => [("error", .text "frozen")]
  | .noField => [("error", .text "no_accessor")]
  | .malformed => [("error", .text "bad_input")]

def datum (r : Refusal) : Datum := .record r.parts

end Refusal

instance : MonadLift (Except Rejection) (Except Refusal) where
  monadLift x := x.mapError fun r => .failure (.rejected r)

instance : MonadLift (Except Fault) (Except Refusal) where
  monadLift x := x.mapError fun f => .failure (.faulty f)

instance : MonadLift (Except Failure) (Except Refusal) where
  monadLift x := x.mapError .failure

end ModelExpr
