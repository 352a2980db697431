import MetricAgent.Text.Printable

/-!
# Quoted text in messages

A message shows a name between double quotes. A quote or a backslash inside
gets a backslash, the usual control characters get their letters, and every
other character that cannot be shown as it is appears as its code point in
hexadecimal between braces.
-/

namespace MetricAgent.Text

def quoteChar (c : Char) : List Char :=
  if c = '"' then ['\\', '"']
  else if c = '\\' then ['\\', '\\']
  else if c = '\n' then ['\\', 'n']
  else if c = '\r' then ['\\', 'r']
  else if c = '\t' then ['\\', 't']
  else if c.toNat = 0 then ['\\', '0']
  else if isShown c then [c]
  else '\\' :: 'u' :: '\x7b' :: Nat.toDigits 16 c.toNat ++ ['\x7d']

def quoted (s : String) : String :=
  String.ofList ('"' :: s.toList.flatMap quoteChar ++ ['"'])

end MetricAgent.Text
