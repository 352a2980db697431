import MetricAgent.Tick.Ticker

/-!
# Tickers on a clock

A ticker reads the clock once, when a wait begins, and then waits for as long
as the deadline is ahead. A wait that is not dropped moves the clock on by just
its length. Between the waits, and after a wait that was dropped, the clock can
be set to any time.

`ClockedTicker.run?` follows a ticker through all of this and records its
waits. It breaks off where a deadline would leave the range of durations.
-/

namespace MetricAgent

/-- What happens to a ticker and its clock. A draw is the jitter of a deadline,
if there is need for a new one. -/
inductive TickerAction where
  | tick (draw : Duration)
  /-- A tick that is dropped in its wait. -/
  | abandon (draw : Duration)
  | setClock (now : Duration)
deriving DecidableEq, Repr

def TickerAction.DrawnBelow (bound : Duration) : TickerAction → Prop
  | .tick draw | .abandon draw => draw = .zero ∨ draw < bound
  | .setClock _ => True

structure Wait (τ : Type) where
  began : τ
  deadline : τ
  /-- What the clock says when it is over; nothing if it is dropped. -/
  ended : Option τ
deriving DecidableEq, Repr

namespace Wait

variable {τ σ : Type}

def map (f : τ → σ) (w : Wait τ) : Wait σ := ⟨f w.began, f w.deadline, w.ended.map f⟩

/-- The deadline that a tick returns once its wait is over. -/
def returned? (w : Wait τ) : Option τ := w.ended.map fun _ => w.deadline

theorem returned?_map (f : τ → σ) (w : Wait τ) : (w.map f).returned? = w.returned?.map f := by
  simp [returned?, map, Function.comp_def]

theorem filterMap_returned?_map (f : τ → σ) (waits : List (Wait τ)) :
    (waits.map (map f)).filterMap returned? = (waits.filterMap returned?).map f := by
  rw [List.filterMap_map, List.map_filterMap]
  exact congrArg (List.filterMap · waits) (funext (returned?_map f))

end Wait

structure ClockedTicker where
  ticker : Ticker
  now : Duration
deriving DecidableEq, Repr

namespace ClockedTicker

/-- Does one action, and says how it waited. -/
def step? (s : ClockedTicker) : TickerAction → Option (ClockedTicker × List (Wait Duration))
  | .tick draw => do
    let (t, deadline) ← s.ticker.tick? s.now draw
    let ended ← s.now.add? (deadline.sub s.now)
    return (⟨t, ended⟩, [⟨s.now, deadline, some ended⟩])
  | .abandon draw => do
    let (t, deadline) ← s.ticker.begin? s.now draw
    return (⟨t, s.now⟩, [⟨s.now, deadline, none⟩])
  | .setClock now => return (⟨s.ticker, now⟩, [])

def run? (s : ClockedTicker) : List TickerAction → Option (ClockedTicker × List (Wait Duration))
  | [] => some (s, [])
  | a :: actions => do
    let (s, first) ← s.step? a
    let (s, rest) ← s.run? actions
    return (s, first ++ rest)

end ClockedTicker

end MetricAgent
