import ClusterScaler.Text.Hidden

/-!
# Quoted text

Text as it is shown inside messages: between double quotes, with everything escaped that would not
be seen as itself.
-/

set_option autoImplicit false

namespace ClusterScaler.Text

/-- A code point as `\u\x7b..\x7d` with its hexadecimal number. -/
def codePointEscape (c : Char) : List Char :=
  ['\\', 'u', '\x7b'] ++ Nat.toDigits 16 c.toNat ++ ['\x7d']

/-- One character of a quoted text. -/
def quotedChar (c : Char) : List Char :=
  if c = '"' then ['\\', '"']
  else if c = '\\' then ['\\', '\\']
  else if c = '\n' then ['\\', 'n']
  else if c = '\r' then ['\\', 'r']
  else if c = '\t' then ['\\', 't']
  else if c = '\x00' then ['\\', '0']
  else if isHidden c then codePointEscape c
  else [c]

/-- `s` between double quotes, with quotes, backslashes and hidden characters escaped. -/
def quoted (s : String) : String :=
  String.ofList ('"' :: s.toList.flatMap quotedChar ++ ['"'])

end ClusterScaler.Text
