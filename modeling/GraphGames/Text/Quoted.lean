import GraphGames.Text.Printable
import GraphGames.Text.Extender

/-!
# Quoted text

A string is shown between double quotes. Inside, a character that would end the text, move the
cursor, or be invisible is replaced by an escape.

* `escape`: the text of one character inside quotes;
* `quoted`: the text of a string.
-/

namespace GraphGames.Text

/-- The text of a character by its code point. -/
def codePointEscape (c : Char) : List Char :=
  '\\' :: 'u' :: '\x7b' :: (Nat.toDigits 16 c.toNat ++ ['\x7d'])

/-- The text of a character inside double quotes. -/
def escape (c : Char) : List Char :=
  if c = '\x00' then ['\\', '0']
  else if c = '\t' then ['\\', 't']
  else if c = '\r' then ['\\', 'r']
  else if c = '\n' then ['\\', 'n']
  else if c = '\\' then ['\\', '\\']
  else if c = '"' then ['\\', '"']
  else if isExtender c || !isPrintable c then codePointEscape c
  else [c]

/-- The text of a string, between double quotes. -/
def quoted (s : String) : String :=
  String.ofList ('"' :: (s.toList.flatMap escape ++ ['"']))

example : escape '\u0cdc' = ['\u0cdc'] := by
  rw [escape, isExtender_eq_any, isPrintable_eq_any]
  decide +kernel

example : escape '\u115f' = ['\\', 'u', '\x7b', '1', '1', '5', 'f', '\x7d'] := by
  rw [escape, isExtender_eq_any, isPrintable_eq_any]
  decide +kernel

example : escape '\u0301' = ['\\', 'u', '\x7b', '3', '0', '1', '\x7d'] := by decide +kernel

example : escape '\uff9e' = ['\uff9e'] := by
  rw [escape, isExtender_eq_any, isPrintable_eq_any]
  decide +kernel

end GraphGames.Text
