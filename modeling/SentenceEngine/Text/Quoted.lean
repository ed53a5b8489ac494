import SentenceEngine.Text.Unprintable

/-!
# Quoted text

Text between double quotes as messages show it: quotes, backslashes and characters that do not
print are escaped.
-/

namespace SentenceEngine.Text

/-- An escape that names the code point of a character. -/
def codePointEscape (c : Char) : List Char :=
  '\\' :: 'u' :: '\x7b' :: Nat.toDigits 16 c.toNat ++ ['\x7d']

/-- A character between double quotes. -/
def quotedChar (c : Char) : List Char :=
  match c with
  | '"' => ['\\', '"']
  | '\\' => ['\\', '\\']
  | '\x00' => ['\\', '0']
  | '\n' => ['\\', 'n']
  | '\r' => ['\\', 'r']
  | '\t' => ['\\', 't']
  | c => if isPrintable c then [c] else codePointEscape c

/-- Text between double quotes. -/
def quoted (text : String) : String :=
  "\"" ++ String.ofList (text.toList.flatMap quotedChar) ++ "\""

end SentenceEngine.Text
