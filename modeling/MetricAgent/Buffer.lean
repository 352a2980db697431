/-!
# Bounded buffers

A buffer keeps entries in the order in which they came and drops the oldest
when it is full. Entries leave in batches: `batch` hands out the oldest ones
that are not out already, without removing them, and the batch is later
accepted, which removes its entries for good, or rejected, which leaves them
where they are.

An entry may be pushed out while its batch is out. It is then displaced and
not dropped: if the batch is accepted it was delivered after all, and if the
batch is rejected it goes back to its place, which may push the newest entries
out. Numbers given out on arrival tell the entries apart and fix their places.
-/

namespace MetricAgent

structure Entry (α : Type) where
  seq : Nat
  item : α
deriving DecidableEq, Repr

/-- The entries handed out for one attempt to write, oldest first. -/
abbrev Batch (α : Type) := List (Entry α)

namespace Batch

def items {α : Type} (b : Batch α) : List α := b.map Entry.item

def seqs {α : Type} (b : Batch α) : List Nat := b.map Entry.seq

def covers {α : Type} (b : Batch α) (e : Entry α) : Bool := b.seqs.contains e.seq

end Batch

structure Buffer (α : Type) where
  capacity : Nat
  /-- The entries held, oldest first. -/
  entries : List (Entry α)
  nextSeq : Nat
  /-- The numbers of the entries that are out in a batch. -/
  inFlight : List Nat
  /-- The entries that were pushed out while in a batch. -/
  displaced : List (Entry α)
  dropped : Nat
deriving DecidableEq, Repr

namespace Buffer

variable {α : Type}

/-- An empty buffer. It holds at least one entry. -/
def make (capacity : Nat) : Buffer α := ⟨max capacity 1, [], 0, [], [], 0⟩

def size (b : Buffer α) : Nat := b.entries.length

def isOut (b : Buffer α) (e : Entry α) : Bool := b.inFlight.contains e.seq

/-- Pushes entries out: those that are in a batch are displaced, the others
dropped. -/
def discard (b : Buffer α) (es : List (Entry α)) : Buffer α :=
  { b with
    displaced := b.displaced ++ es.filter b.isOut
    dropped := b.dropped + es.countP fun e => !b.isOut e }

def makeRoom (b : Buffer α) : Buffer α :=
  if b.entries.length < b.capacity then b
  else ({ b with entries := b.entries.drop 1 }).discard (b.entries.take 1)

def add (b : Buffer α) (item : α) : Buffer α :=
  let b := b.makeRoom
  { b with entries := b.entries ++ [⟨b.nextSeq, item⟩], nextSeq := b.nextSeq + 1 }

def addAll (b : Buffer α) (items : List α) : Buffer α := items.foldl add b

/-- How many entries are dropped to make room for another one: one if the
buffer is full and its oldest entry is in no batch. -/
def lossToAdd (b : Buffer α) : Nat :=
  if b.entries.length < b.capacity then 0
  else (b.entries.take 1).countP fun e => !b.isOut e

/-- Adds items in order, and counts the entries that are dropped to make room
for them. -/
def addAllCounted (b : Buffer α) : List α → Buffer α × Nat
  | [] => (b, 0)
  | x :: xs =>
    let loss := b.lossToAdd
    let (b, losses) := (b.add x).addAllCounted xs
    (b, loss + losses)

/-- Hands out the `n` oldest entries that are in no batch, or as many as there
are. -/
def batch (b : Buffer α) (n : Nat) : Buffer α × Batch α :=
  let out := (b.entries.filter fun e => !b.isOut e).take n
  ({ b with inFlight := b.inFlight ++ Batch.seqs out }, out)

/-- Takes the numbers of a batch back. -/
def resolve (b : Buffer α) (out : Batch α) : Buffer α :=
  { b with inFlight := b.inFlight.filter fun s => !out.seqs.contains s }

def accept (b : Buffer α) (out : Batch α) : Buffer α :=
  let b := b.resolve out
  { b with
    entries := b.entries.filter fun e => !out.covers e
    displaced := b.displaced.filter fun e => !out.covers e }

/-- Puts an entry before the first one with a greater number. -/
def place (e : Entry α) : List (Entry α) → List (Entry α)
  | [] => [e]
  | f :: rest => if f.seq < e.seq then f :: place e rest else e :: f :: rest

/-- Cuts the newest entries off until the buffer holds no more than it can. -/
def cut (b : Buffer α) : Buffer α :=
  ({ b with entries := b.entries.take b.capacity }).discard (b.entries.drop b.capacity)

/-- Takes a batch back that was not written. Its displaced entries return to
their places. -/
def reject (b : Buffer α) (out : Batch α) : Buffer α :=
  let b := b.resolve out
  let returning := b.displaced.filter out.covers
  ({ b with
    displaced := b.displaced.filter fun e => !out.covers e
    entries := returning.foldl (fun es e => place e es) b.entries }).cut

@[simp] theorem addAll_nil (b : Buffer α) : b.addAll [] = b := rfl

@[simp] theorem addAll_cons (b : Buffer α) (x : α) (xs : List α) :
    b.addAll (x :: xs) = (b.add x).addAll xs := rfl

@[simp] theorem place_nil (e : Entry α) : place e [] = [e] := rfl

@[simp] theorem capacity_discard (b : Buffer α) (es : List (Entry α)) :
    (b.discard es).capacity = b.capacity := rfl

@[simp] theorem entries_discard (b : Buffer α) (es : List (Entry α)) :
    (b.discard es).entries = b.entries := rfl

theorem size_cut_le (b : Buffer α) : b.cut.size ≤ b.cut.capacity := by
  simp only [cut, size, entries_discard, capacity_discard, List.length_take]
  exact Nat.min_le_left _ _

end Buffer

end MetricAgent
