import MetricAgent.Text.Digits

/-!
# Socket addresses

The address of a socket is a host by its number, of the fourth or the sixth
version of the protocol, and the number of a service there. Names of hosts are
no numbers.

Of an address of the sixth version the longest run of zeros may be left out,
and its last two groups may be written like an address of the fourth. It is
written in brackets, with the number of a scope behind a percent sign if it has
one. Each reader takes what it can from the front of a text and gives the rest.
-/

namespace MetricAgent

inductive SocketAddress where
  | v4 (octets : List Nat) (service : Nat)
  | v6 (groups : List Nat) (scope service : Nat)
deriving DecidableEq, Repr

namespace SocketAddress

/-- A reader: what is at the front of a text, and the rest. -/
abbrev Reader (α : Type) := List Char → Option (α × List Char)

def char? (c : Char) : Reader Unit
  | x :: rest => if x = c then some ((), rest) else none
  | [] => none

def number? (base bound : Nat) : Reader Nat := fun cs =>
  let digits := cs.takeWhile fun c => (Text.digit? base c).isSome
  match Text.ofDigits? base digits with
  | some n => if n < bound then some (n, cs.drop digits.length) else none
  | none => none

/-- Reads a number of an address of the fourth version, of at most three digits
and without a leading zero. -/
def octet? : Reader Nat := fun cs =>
  let digits := cs.takeWhile Char.isDigit
  if 3 < digits.length ∨ (digits.head? = some '0' ∧ digits.length ≠ 1) then none
  else number? 10 256 cs

def octets? : Reader (List Nat) := fun cs => do
  let (a, cs) ← octet? cs
  let (_, cs) ← char? '.' cs
  let (b, cs) ← octet? cs
  let (_, cs) ← char? '.' cs
  let (c, cs) ← octet? cs
  let (_, cs) ← char? '.' cs
  let (d, cs) ← octet? cs
  return ([a, b, c, d], cs)

/-- Reads a group of an address of the sixth version, of at most four digits. -/
def group? : Reader Nat := fun cs =>
  let digits := cs.takeWhile fun c => (Text.hexDigit? c).isSome
  if 4 < digits.length then none else number? 16 UInt16.size cs

/-- Reads the colon before every group but the first one. -/
def colon? (first : Bool) : Reader Unit := fun cs =>
  if first then some ((), cs) else char? ':' cs

/-- Reads up to `limit` groups, the last two of them possibly as an address of
the fourth version, and says whether they were. -/
def groups (first : Bool) : Nat → List Char → List Nat × Bool × List Char
  | 0, cs => ([], false, cs)
  | limit + 1, cs =>
    let embedded := if limit = 0 then none else (colon? first cs).bind fun (_, cs) => octets? cs
    match embedded with
    | some ([a, b, c, d], rest) => ([a * 256 + b, c * 256 + d], true, rest)
    | _ =>
      match (colon? first cs).bind fun (_, cs) => group? cs with
      | some (g, rest) =>
        let (gs, isEmbedded, rest) := groups false limit rest
        (g :: gs, isEmbedded, rest)
      | none => ([], false, cs)

def v6Groups? : Reader (List Nat) := fun cs => do
  let (head, isEmbedded, rest) := groups true 8 cs
  if head.length = 8 then return (head, rest)
  else if isEmbedded then none
  else
    let (_, rest) ← char? ':' rest
    let (_, rest) ← char? ':' rest
    let (tail, _, rest) := groups true (7 - head.length) rest
    return (head ++ List.replicate (8 - head.length - tail.length) 0 ++ tail, rest)

def service? : Reader Nat := fun cs => do
  let (_, cs) ← char? ':' cs
  number? 10 UInt16.size cs

/-- Reads the number of a scope. Without one it is zero. -/
def scope (cs : List Char) : Nat × List Char :=
  ((char? '%' cs).bind fun (_, cs) => number? 10 UInt32.size cs).getD (0, cs)

def v4? : Reader SocketAddress := fun cs => do
  let (octets, cs) ← octets? cs
  let (service, cs) ← service? cs
  return (.v4 octets service, cs)

def v6? : Reader SocketAddress := fun cs => do
  let (_, cs) ← char? '[' cs
  let (groups, cs) ← v6Groups? cs
  let (scope, cs) := scope cs
  let (_, cs) ← char? ']' cs
  let (service, cs) ← service? cs
  return (.v6 groups scope service, cs)

def ofText? (s : String) : Option SocketAddress :=
  match v4? s.toList <|> v6? s.toList with
  | some (a, []) => some a
  | _ => none

/-- The start and the length of the longest run of zeros, the first one of
those, where a run of `current` zeros ends in front of position `i`. -/
def longestRun (i current : Nat) (best : Nat × Nat) : List Nat → Nat × Nat
  | [] => best
  | g :: gs =>
    if g = 0 then
      let best := if best.2 < current + 1 then (i - current, current + 1) else best
      longestRun (i + 1) (current + 1) best gs
    else longestRun (i + 1) 0 best gs

def groupsText (gs : List Nat) : String :=
  ":".intercalate (gs.map fun g => String.ofList (Nat.toDigits 16 g))

def octetsText (octets : List Nat) : String := ".".intercalate (octets.map toString)

/-- An address of the sixth version, without brackets. A run of one zero is
written out. -/
def v6Text (gs : List Nat) : String :=
  match gs with
  | [0, 0, 0, 0, 0, 0xffff, a, b] => "::ffff:" ++ octetsText [a / 256, a % 256, b / 256, b % 256]
  | gs =>
    let (start, length) := longestRun 0 0 (0, 0) gs
    if 1 < length then groupsText (gs.take start) ++ "::" ++ groupsText (gs.drop (start + length))
    else groupsText gs

def text : SocketAddress → String
  | .v4 octets service => octetsText octets ++ ":" ++ toString service
  | .v6 groups scope service =>
    "[" ++ v6Text groups ++ (if scope = 0 then "" else "%" ++ toString scope) ++ "]:" ++ toString service

end SocketAddress

end MetricAgent
