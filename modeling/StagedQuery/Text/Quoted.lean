/-
This file quotes texts: a quoted text stands between double quotes, with every
character that would not be seen, or would end the text early, written as an
escape.
-/

import StagedQuery.Text.Shown

namespace StagedQuery.Text

/-- The place of a character in hexadecimal digits. -/
def hexadecimal (character : Char) : List Char := Nat.toDigits 16 character.toNat

/-- A character as it is written inside quotes. -/
def quotedCharacter (character : Char) : List Char :=
  match character with
  | '\x00' => ['\\', '0']
  | '\t' => ['\\', 't']
  | '\n' => ['\\', 'n']
  | '\r' => ['\\', 'r']
  | '"' => ['\\', '"']
  | '\\' => ['\\', '\\']
  | _ =>
    if isShown character then [character]
    else ['\\', 'u', '\x7b'] ++ hexadecimal character ++ ['\x7d']

/-- A text between double quotes. -/
def quoted (text : String) : String :=
  String.ofList ('"' :: text.toList.flatMap quotedCharacter ++ ['"'])

end StagedQuery.Text
