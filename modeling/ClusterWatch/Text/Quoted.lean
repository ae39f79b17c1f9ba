import ClusterWatch.Text.Hex
import ClusterWatch.Text.Hidden

/-!
# Quoted — a text as a message shows it

In a message a text stands between quotes, and each character that would not show is replaced
by an escape: a letter for the tab, the line ends and the null character, a backslash before a
quote or a backslash, and otherwise the code point in hexadecimal digits between braces.
-/

namespace ClusterWatch.Text

/-- A character as it stands between quotes. -/
def quotedChar (c : Char) : List Char :=
  if c = '\x00' then ['\\', '0']
  else if c = '\t' then ['\\', 't']
  else if c = '\r' then ['\\', 'r']
  else if c = '\n' then ['\\', 'n']
  else if c = '\\' then ['\\', '\\']
  else if c = '"' then ['\\', '"']
  else if isHidden c then ['\\', 'u', '{'] ++ hexNumeral c.toNat ++ ['}']
  else [c]

/-- A text between quotes. -/
def quoted (s : List Char) : List Char := ['"'] ++ s.flatMap quotedChar ++ ['"']

end ClusterWatch.Text
