import MetricAgent.Metric.Basic
import MetricAgent.Text.Bytes

/-!
# Series keys

The key of a series is a hash of its name and tags. What is hashed is a list
of writes: the name, and for each tag a line feed, the key, a line feed and
the value, where a text is written as its bytes and an end mark. The end mark
`0xff` occurs in no text, so the writes read as one list of bytes
(`SeriesKey.encoding`) determine the series.

The hash itself turns the state left by five bits, mixes a word in and
multiplies, all modulo `2 ^ 64`. Text is mixed in eight bytes at a time and,
near its end, four, two and one. So the bytes fix the series, while the hash
of 64 bits cannot.
-/

namespace MetricAgent

namespace SeriesKey

inductive Write where
  /-- A text, ended by its mark. -/
  | text (s : String)
  /-- The separator before a tag's key and before its value. -/
  | separator
deriving DecidableEq, Repr

def tagWrites : Tags → List Write
  | [] => []
  | (key, value) :: rest => .separator :: .text key :: .separator :: .text value :: tagWrites rest

def writes (name : String) (tags : Tags) : List Write := .text name :: tagWrites tags

def Write.bytes : Write → List UInt8
  | .text s => Text.bytes s ++ [0xff]
  | .separator => [0x0a]

def encoding (name : String) (tags : Tags) : List UInt8 :=
  (writes name tags).flatMap Write.bytes

def rotate (h : UInt64) : UInt64 := (h <<< 5) ||| (h >>> 59)

def absorb (h w : UInt64) : UInt64 := (rotate h ^^^ w) * 0x517cc1b727220a95

/-- Bytes as a word, the first byte lowest. -/
def word : List UInt8 → UInt64
  | [] => 0
  | b :: rest => b.toUInt64 ||| (word rest <<< 8)

/-- Mixes the last bytes of a text in, at most seven of them. -/
def absorbTail (h : UInt64) (bs : List UInt8) : UInt64 :=
  let (h, bs) := if 4 ≤ bs.length then (absorb h (word (bs.take 4)), bs.drop 4) else (h, bs)
  let (h, bs) := if 2 ≤ bs.length then (absorb h (word (bs.take 2)), bs.drop 2) else (h, bs)
  if 1 ≤ bs.length then absorb h (word (bs.take 1)) else h

def absorbBytes (h : UInt64) : List UInt8 → UInt64
  | a :: b :: c :: d :: e :: f :: g :: i :: rest =>
    absorbBytes (absorb h (word [a, b, c, d, e, f, g, i])) rest
  | bs => absorbTail h bs

def absorbWrite (h : UInt64) : Write → UInt64
  | .text s => absorb (absorbBytes h (Text.bytes s)) 0xff
  | .separator => absorb h 0x0a

def of (name : String) (tags : Tags) : UInt64 := (writes name tags).foldl absorbWrite 0

@[simp] theorem tagWrites_nil : tagWrites [] = [] := rfl

@[simp] theorem tagWrites_cons (key value : String) (rest : Tags) :
    tagWrites ((key, value) :: rest) =
      .separator :: .text key :: .separator :: .text value :: tagWrites rest := rfl

end SeriesKey

def Metric.seriesKey (m : Metric) : UInt64 := SeriesKey.of m.name m.tags

end MetricAgent
