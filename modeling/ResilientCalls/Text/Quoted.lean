import ResilientCalls.Text.Unprintable

/-!
# Quoted text

How text and single characters are written between quotes: the usual backslash escapes, and
unprintable characters by their number in hexadecimal.
-/

namespace ResilientCalls.Text

/-- The digits of a number in hexadecimal, lower case, without leading zeros. -/
def hex (n : Nat) : String := String.ofList (Nat.toDigits 16 n)

/-- An unprintable character by its number. -/
def byNumber (c : Char) : String := "\\u\x7b" ++ hex c.toNat ++ "\x7d"

/-- One character inside `quote` marks; the mark itself is escaped and the other mark is not. -/
def escapeChar (quote : Char) (c : Char) : String :=
  if c = '\x00' then "\\0"
  else if c = '\t' then "\\t"
  else if c = '\r' then "\\r"
  else if c = '\n' then "\\n"
  else if c = '\\' then "\\\\"
  else if c = quote then "\\" ++ String.singleton quote
  else if isUnprintable c then byNumber c
  else String.singleton c

/-- Characters one after the other, each escaped. -/
def escape (quote : Char) (cs : List Char) : String := String.join (cs.map (escapeChar quote))

/-- Text in double quotes. -/
def quoted (s : String) : String := "\"" ++ escape '"' s.toList ++ "\""

/-- A single character in single quotes. -/
def quotedChar (c : Char) : String := "'" ++ escapeChar '\'' c ++ "'"

end ResilientCalls.Text
