import ModelExpr.Proofs.Client.Steps
/-!
Workshops: several factories and the drafts begun on them. Nothing ties a handle, a function or a
draft to the factory it is from, so a job may bring those of one factory to another.
-/

namespace ModelExpr

/-- What can be done in a workshop. Factories and products go by their numbers in the order in which
they were made. -/
inductive Job where
  | equip (options : Options)
  | act (factory : Nat) (action : Action Handle FunctionRef)

structure Workshop where
  factories : List Factory := []
  products : List (Option Product) := []

namespace Workshop

abbrev Outcome := Option (Except Failure (Option Product)) × Workshop

def product? (W : Workshop) (i : Nat) : Option Product := W.products[i]?.join

def client (W : Workshop) (f : Factory) : Client := { factory := f, products := W.products }

def perform (W : Workshop) : Job → Outcome
  | .equip o =>
    match Factory.ofOptions o with
    | .ok f => (some (.ok none), { W with factories := W.factories ++ [f] })
    | .error e => (some (.error (.faulty e)), W)
  | .act j a =>
    match W.factories[j]? with
    | some f =>
      let C := (W.client f).perform a
      (C.history.head?.map (·.answer),
        { factories := W.factories.set j C.factory, products := C.products })
    | none => (none, W)

def run (W : Workshop) (jobs : List Job) : Workshop := jobs.foldl (fun W job => (W.perform job).2) W

def Within (W : Workshop) : Prop := ∀ i p, W.product? i = some p → p.Within

variable {W : Workshop}

theorem Within.perform (hW : W.Within) (job : Job) : (W.perform job).2.Within := by
  cases job with
  | equip o =>
    simp only [Workshop.perform]
    split <;> exact hW
  | act j a =>
    simp only [Workshop.perform]
    split
    case h_1 f hf => exact Client.Within.perform (C := W.client f) hW a
    case h_2 => exact hW

theorem Within.run (hW : W.Within) (jobs : List Job) : (W.run jobs).Within := by
  induction jobs generalizing W with
  | nil => exact hW
  | cons job jobs ih => exact ih (hW.perform job)

theorem Within.empty : (Workshop.mk [] []).Within := by
  intro i p hp
  simp [product?] at hp

end Workshop

end ModelExpr
