/-
Quoted texts.

A quoted text stands between double quotes.  Inside, a double quote, a
backslash and the control characters are written with a backslash, so that the
closing quote is the only bare one; a single quote needs no backslash.
-/

namespace LeveledLog.Text

def hexadecimalNumeral (value : Nat) : String :=
  String.ofList (Nat.toDigits 16 value)

def quotedCharacter (character : Char) : String :=
  match character with
  | '\t' => "\\t"
  | '\r' => "\\r"
  | '\n' => "\\n"
  | '\x00' => "\\0"
  | '\x22' => "\\\""
  | '\x5c' => "\\\\"
  | _ =>
      if character.toNat < 0x20 || (0x7F ≤ character.toNat && character.toNat < 0xA0) then
        "\\u\x7b" ++ hexadecimalNumeral character.toNat ++ "\x7d"
      else
        character.toString

/-- The text between double quotes, with its characters escaped as needed. -/
def quoted (text : String) : String :=
  "\"" ++ String.join (text.toList.map quotedCharacter) ++ "\""

end LeveledLog.Text
