/-
  NetBoot.Text.Quoted — text in double quotes, for diagnostics.

  What would end the quotes, move the cursor or not show at all is spelled out: a quote, a
  backslash and the common control characters by a letter behind a backslash, any other character
  that is not printable by its number.
-/

import NetBoot.Text.Hex
import NetBoot.Text.Printable

namespace NetBoot.Text

/-- A character within quotes. -/
def quotedChar (c : Char) : String :=
  if c = '"' then "\\\""
  else if c = '\\' then "\\\\"
  else if c = '\n' then "\\n"
  else if c = '\r' then "\\r"
  else if c = '\t' then "\\t"
  else if c.toNat = 0 then "\\0"
  else if isPrintable c then c.toString
  else "\\u\x7b" ++ hex c.toNat ++ "\x7d"

def quoted (s : String) : String := "\"" ++ String.join (s.toList.map quotedChar) ++ "\""

end NetBoot.Text
