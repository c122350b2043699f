import TapeMachine.Text.Hidden

/-!
# Quoted text

A quoted text stands between double quotes. Inside it a quote and a backslash are escaped by a
backslash, four control characters have a letter of their own, and every other character without a
visible form is written as its code in hexadecimal.
-/

set_option autoImplicit false

namespace TapeMachine.Text

/-- A code point in hexadecimal, between braces. -/
def codeEscape (character : Char) : List Char :=
  '\\' :: 'u' :: '\x7b' :: (Nat.toDigits 16 character.toNat ++ ['\x7d'])

/-- How one character is written inside quotes. -/
def escape (character : Char) : List Char :=
  match character with
  | '\x00' => ['\\', '0']
  | '\t' => ['\\', 't']
  | '\r' => ['\\', 'r']
  | '\n' => ['\\', 'n']
  | '"' => ['\\', '"']
  | '\\' => ['\\', '\\']
  | _ => if isHidden character then codeEscape character else [character]

/-- A text between double quotes. -/
def quoted (text : String) : String :=
  String.ofList ('"' :: (text.toList.flatMap escape ++ ['"']))

end TapeMachine.Text
