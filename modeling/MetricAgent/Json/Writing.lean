import MetricAgent.Number.FloatText

/-!
# Writing JSON

A string is written between quotes. Inside, the quote, the backslash and the
control characters below the space are escaped, the common ones by a letter
and the others by four hexadecimal digits, and nothing else is. A finite
number is written with its shortest digits, in full between `1e-5` and
`1e16`.
-/

namespace MetricAgent.Json

/-- Numbers from `1e-5` to below `1e16` are written in full, a whole one with a
point and a zero. A tie goes to the even digit. -/
def floatLayout : FloatLayout := ⟨some (-5, 15), true, .toEven⟩

def hexDigit (n : Nat) : Char := Nat.digitChar n

def escapeChar (c : Char) : List Char :=
  if c = '"' then ['\\', '"']
  else if c = '\\' then ['\\', '\\']
  else if c.toNat = 8 then ['\\', 'b']
  else if c = '\t' then ['\\', 't']
  else if c = '\n' then ['\\', 'n']
  else if c.toNat = 12 then ['\\', 'f']
  else if c = '\r' then ['\\', 'r']
  else if c.toNat < 32 then ['\\', 'u', '0', '0', hexDigit (c.toNat / 16), hexDigit (c.toNat % 16)]
  else [c]

def string (s : String) : List Char := '"' :: s.toList.flatMap escapeChar ++ ['"']

def integer (n : Int) : List Char := (toString n).toList

/-- A number, or `null` for one that JSON cannot write. -/
def float (x : Binary64) : List Char :=
  if x.isFinite then floatLayout.finiteText x else ['n', 'u', 'l', 'l']

def bool (b : Bool) : List Char :=
  if b then ['t', 'r', 'u', 'e'] else ['f', 'a', 'l', 's', 'e']

def members : List (String × List Char) → List Char
  | [] => []
  | [(k, v)] => string k ++ ':' :: v
  | (k, v) :: rest => string k ++ ':' :: v ++ ',' :: members rest

/-- An object with members whose values are already written. -/
def object (ms : List (String × List Char)) : List Char := '\x7b' :: members ms ++ ['\x7d']

@[simp] theorem members_nil : members [] = [] := rfl

theorem members_cons_cons (k : String) (v : List Char) (m : String × List Char)
    (rest : List (String × List Char)) :
    members ((k, v) :: m :: rest) = string k ++ ':' :: v ++ ',' :: members (m :: rest) := rfl

end MetricAgent.Json
