import LogRelay.Text.Visible

/-!
# Quoted text

Text for diagnostics stands between quotes, with quotes, backslashes and
characters that cannot be seen written as escapes.
-/

namespace LogRelay.Text

/-- The written form of one character. -/
def escape (char : Char) : List Char :=
  match char with
  | '\x00' => ['\\', '0']
  | '\t' => ['\\', 't']
  | '\n' => ['\\', 'n']
  | '\r' => ['\\', 'r']
  | '"' => ['\\', '"']
  | '\\' => ['\\', '\\']
  | _ =>
    if isVisible char then [char]
    else ['\\', 'u', '\x7b'] ++ Nat.toDigits 16 char.toNat ++ ['\x7d']

/-- Text between quotes, with its characters escaped. -/
def quote (text : String) : String :=
  String.ofList ('"' :: text.toList.flatMap escape ++ ['"'])

end LogRelay.Text
