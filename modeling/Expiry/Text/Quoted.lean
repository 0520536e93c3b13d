import Expiry.Text.Printable

/-!
# Quoted text

A text in double quotes, on one line and free of characters that do not show. The quote and the
backslash get a backslash in front; tab, line feed, carriage return and the null character have
short escapes; every other character that is not printable is written as its code point in
hexadecimal, between braces after a backslash and a `u`.

## Main definitions

* `Text.escape` — one character as it stands between the quotes
* `Text.quote` — the quoted text
-/

namespace Expiry.Text

/-- A character as it stands between quotes. -/
def escape (c : Char) : List Char :=
  match c with
  | '\x00' => ['\\', '0']
  | '\t' => ['\\', 't']
  | '\n' => ['\\', 'n']
  | '\r' => ['\\', 'r']
  | '"' => ['\\', '"']
  | '\\' => ['\\', '\\']
  | c => if isPrintable c then [c] else ['\\', 'u', '\x7b'] ++ Nat.toDigits 16 c.toNat ++ ['\x7d']

/-- The text between double quotes, with escapes. -/
def quote (s : String) : String :=
  String.ofList ('"' :: s.toList.flatMap escape ++ ['"'])

end Expiry.Text
