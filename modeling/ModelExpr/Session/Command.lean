import ModelExpr.Session.Datum
import ModelExpr.Traversal.Basic

namespace ModelExpr

inductive Source (α : Type) where
  | register (name : String)
  | given (value : α)
  | malformed

abbrev HandleSource := Source AnyHandle

abbrev FunctionSource := Source FunctionRef

inductive Observer where
  | recorder (quiet : Bool) (stopExpr stop : List Kind)
  | decisionVariables
  | logicals
  | functions

inductive Move where
  | next (cursor : Nat)
  | nextBack (cursor : Nat)
  | nth (cursor count : Nat)
  | nthBack (cursor count : Nat)
  | length (cursor : Nat)
  | position (cursor : Nat)
  | text (cursor : Nat)
  | rest (cursor : Nat)
  | restBack (cursor : Nat)
  | copy (cursor : Nat)
  | start (owner : HandleSource) (store? : Option Nat)
  | same (left right : Nat)
  | malformed

inductive FunctionQuery where
  | name | id | isNull
  | same (other : FunctionSource)

mutual

inductive Command where
  | construct (construction : Construction (fun _ => HandleSource) FunctionSource)
  | add (draft : String) (operand : HandleSource)
  | addSlope (draft : String) (value : Binary64)
  | addBreakpoint (draft : String) (value : Binary64)
  | draft (draft : String)
  | finish (draft : String) (argument : HandleSource)
  | cast (on : HandleSource) (view : View)
  | same (left right : HandleSource)
  | distinct (on : List HandleSource)
  | field (on : HandleSource) (view? : Option View) (name : String) (index? : Option Nat)
  | function (on : FunctionSource) (query : FunctionQuery)
  | operands (on : HandleSource) (moves : List Move)
  | traverse (on : HandleSource) (start : Start) (observer : Observer)
  | summary
  | text
  | kindAt (id : ExprId)
  | exprAt (id : ExprId)
  | functionAt (index : Nat)
  | dump
  | openFactory (options : Options)
  | openEmpty (nodes operands : Nat)
  | copyStore
  | copyShared
  | close
  | share
  | idle
  | again (count : Nat) (steps : List Step)
  | malformed

inductive Step where
  | mk (store : Nat) (target? : Option String) (command : Command)

end

end ModelExpr
