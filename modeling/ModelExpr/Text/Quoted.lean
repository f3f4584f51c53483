import ModelExpr.Text.Visible

namespace ModelExpr

namespace Quoted

def letter? : Char → Option Char
  | '\x00' => some '0'
  | '\t' => some 't'
  | '\n' => some 'n'
  | '\r' => some 'r'
  | '"' => some '"'
  | '\\' => some '\\'
  | _ => none

def encode (c : Char) : List Char :=
  match letter? c with
  | some l => ['\\', l]
  | none =>
    if isVisible c then [c]
    else "\\u\x7b".toList ++ Nat.toDigits 16 c.toNat ++ "\x7d".toList

end Quoted

def quoted (s : String) : String := "\"" ++ String.ofList (s.toList.flatMap Quoted.encode) ++ "\""

end ModelExpr
