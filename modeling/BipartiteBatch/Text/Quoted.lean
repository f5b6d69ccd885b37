import BipartiteBatch.Text.Plain

/-!
# Quoted texts

Messages quote what they complain about: between double quotes, with a backslash before a quote or a
backslash, a letter for NUL, tab, line feed and carriage return, and the code point in braces for any
other character that does not stand for itself.
-/

namespace BipartiteBatch.Text

/-- The characters `\u`, the code point in hexadecimal between braces. -/
def codePoint (c : Char) : List Char :=
  ['\\', 'u', Char.ofNat 0x7B] ++ Nat.toDigits 16 c.toNat ++ [Char.ofNat 0x7D]

def quotedChar (c : Char) : List Char :=
  if c = '"' then ['\\', '"']
  else if c = '\\' then ['\\', '\\']
  else if c = '\t' then ['\\', 't']
  else if c = '\n' then ['\\', 'n']
  else if c = '\r' then ['\\', 'r']
  else if c = Char.ofNat 0 then ['\\', '0']
  else if isPlain c then [c]
  else codePoint c

def quoted (s : String) : String :=
  String.ofList ('"' :: s.toList.flatMap quotedChar ++ ['"'])

end BipartiteBatch.Text
