/-!
# Signals

A signal ends a phase. One broadcaster fires it, once, and any number of
watchers observe it. The broadcaster counts those watchers that were
registered with it as its peers until they observe the signal or are dropped,
and it can wait until none is left. A clone of a watcher is never a peer.
Dropping the broadcaster fires the signal too.

A watcher leaves the count in two moves: it lowers the count, and then tells
the broadcaster. A broadcaster that waits goes round in turns: it asks to be
notified, looks at the count and, if peers are left, awaits the notification.
Those who use a signal may do so side by side, so other moves can fall between
any two of these. `act`, `tell` and `turn` are the single moves. `step` is one
whole operation that nothing disturbs, and says what it answers.

Waiting is a series of polls: a watcher that receives and a broadcaster that
waits are polled until they are done.
-/

namespace MetricAgent

structure Watcher where
  received : Bool
  /-- The broadcaster counts it, or did. -/
  registered : Bool
  /-- The broadcaster does not count it any more. -/
  departed : Bool
deriving DecidableEq, Repr

inductive Slot where
  | idle (w : Watcher)
  /-- It is waiting for the signal. One that had observed it before is done at
  its second poll. -/
  | receiving (w : Watcher)
  | gone
deriving DecidableEq, Repr

def Slot.watcher? : Slot → Option Watcher
  | .idle w | .receiving w => some w
  | .gone => none

/-- What the broadcaster is doing. Once it has fired and waits, it asks for a
notification, looks at the count and awaits the notification, in turn. -/
inductive Broadcaster where
  | ready
  | asking
  | looking (notified : Bool)
  | awaiting (notified : Bool)
  | gone
deriving DecidableEq, Repr

/-- A notification reaches a broadcaster that has asked for one. -/
def Broadcaster.notify : Broadcaster → Broadcaster
  | .looking _ => .looking true
  | .awaiting _ => .awaiting true
  | b => b

structure Signal where
  broadcaster : Broadcaster
  fired : Bool
  peers : Nat
  /-- How often the count was lowered and the broadcaster has yet to be told. -/
  untold : Nat
  slots : List Slot
deriving DecidableEq, Repr

/-- What can be done; a number names a slot. -/
inductive SignalAction where
  | register (of : Nat)
  | clone (of : Nat)
  | tryReceive (of : Nat)
  /-- Begins to receive, or polls again. -/
  | receive (of : Nat)
  | drop (of : Nat)
  | fire
  | dropBroadcaster
  /-- Fires and begins to wait, or polls again. -/
  | fireAndWait
deriving DecidableEq, Repr

inductive SignalAnswer where
  | done
  | slot (n : Nat)
  /-- Whether the signal was observed, or a poll was the last one. -/
  | flag (b : Bool)
  | alreadyReceived
  /-- There is nothing to do it with. -/
  | invalid
deriving DecidableEq, Repr

def SignalAnswer.alreadyReceivedMessage : String := "signal has been received"

namespace Signal

def make : Signal := ⟨.ready, false, 1, 0, [.idle ⟨false, true, false⟩]⟩

def lower (s : Signal) : Signal :=
  if s.peers = 0 then s else { s with peers := s.peers - 1, untold := s.untold + 1 }

def depart (s : Signal) (w : Watcher) : Signal × Watcher :=
  if w.registered && !w.departed then (s.lower, { w with departed := true }) else (s, w)

def slot (s : Signal) (i : Nat) : Slot := s.slots.getD i .gone

def setSlot (s : Signal) (i : Nat) (x : Slot) : Signal := { s with slots := s.slots.set i x }

def addWatcher (s : Signal) (w : Watcher) : Signal × SignalAnswer :=
  ({ s with slots := s.slots ++ [.idle w] }, .slot s.slots.length)

/-- A watcher observes the signal, leaves the count and stays. -/
def observe (s : Signal) (i : Nat) (w : Watcher) : Signal :=
  let (s, w) := s.depart { w with received := true }
  s.setSlot i (.idle w)

/-- A watcher leaves the count and is no more. -/
def release (s : Signal) (i : Nat) (w : Watcher) : Signal := (s.depart w).1.setSlot i .gone

/-- The signal is fired, by sending it or by dropping the broadcaster. -/
def fire (s : Signal) : Signal × SignalAnswer :=
  if s.broadcaster = .ready then ({ s with broadcaster := .gone, fired := true }, .done)
  else (s, .invalid)

/-- The broadcaster fires and begins to wait, unless it has done so. -/
def beginWait (s : Signal) : Signal :=
  if s.broadcaster = .ready then { s with broadcaster := .asking, fired := true } else s

/-- Does an operation as far as its first move. What is left is to tell the
broadcaster of a departure, or to take the turns of a poll. -/
def act (s : Signal) : SignalAction → Signal × SignalAnswer
  | .register i =>
    match s.slot i with
    | .idle w =>
      if w.received then (s, .alreadyReceived)
      else ({ s with peers := s.peers + 1 }).addWatcher ⟨false, true, false⟩
    | _ => (s, .invalid)
  | .clone i =>
    match s.slot i with
    | .idle w => s.addWatcher ⟨w.received, false, false⟩
    | _ => (s, .invalid)
  | .tryReceive i =>
    match s.slot i with
    | .idle w =>
      if w.received then (s, .alreadyReceived)
      else if s.fired then (s.observe i w, .flag true)
      else (s, .flag false)
    | _ => (s, .invalid)
  | .receive i =>
    match s.slot i with
    | .idle w =>
      if w.received || !s.fired then (s.setSlot i (.receiving w), .flag false)
      else (s.release i w, .flag true)
    | .receiving w => if s.fired then (s.release i w, .flag true) else (s, .flag false)
    | .gone => (s, .invalid)
  | .drop i =>
    match s.slot i with
    | .idle w | .receiving w => (s.release i w, .done)
    | .gone => (s, .done)
  | .fire | .dropBroadcaster => s.fire
  | .fireAndWait => if s.broadcaster = .gone then (s, .invalid) else (s.beginWait, .done)

def tell (s : Signal) : Signal :=
  if s.untold = 0 then s
  else { s with untold := s.untold - 1, broadcaster := s.broadcaster.notify }

/-- A broadcaster that waits takes its next turn. It rests once it is gone, or
awaits a notification that has not come. -/
def turn (s : Signal) : Signal :=
  match s.broadcaster with
  | .asking => { s with broadcaster := .looking false }
  | .looking notified =>
    { s with broadcaster := if s.peers = 0 then .gone else .awaiting notified }
  | .awaiting true => { s with broadcaster := .asking }
  | .ready | .awaiting false | .gone => s

/-- Takes turns until the broadcaster rests. Four are enough if nothing comes in
between: it may find itself notified, and then it asks and looks once more. -/
def poll (s : Signal) : Signal := s.turn.turn.turn.turn

def step (s : Signal) : SignalAction → Signal × SignalAnswer
  | .fireAndWait =>
    let (s, answer) := s.act .fireAndWait
    if answer = .invalid then (s, .invalid)
    else (s.poll, .flag (s.poll.broadcaster = .gone))
  | a => ((s.act a).1.tell, (s.act a).2)

/-- The count that the broadcaster gives while it is there and idle. -/
def visiblePeers (s : Signal) : Option Nat :=
  if s.broadcaster = .ready then some s.peers else none

end Signal

end MetricAgent
