import Gamebook.Session.Basic
import Gamebook.Session.View

/-!
The loop around a session, under a clock that counts milliseconds.

Inputs wait in a queue; while a countdown runs a ticker takes a second off it each period. Inputs
go first, and one call is made at a time, so that a slow fetch holds up everything behind it. After
each call the loop publishes the events it recorded and the new view. A loop ends when its queue
is closed and empty, or when it finds nobody listening.
-/
namespace Gamebook

inductive Update where
  | view (v : View)
  | events (l : List Event)
  | failed (e : LoadError)

/-- Where the loop runs: what calls find outside, and how long a fetch takes, which may depend on
the number of fetches before it. -/
structure Surroundings extends Outside where
  delay : Nat → String → Nat

structure Ticker where
  period : Nat
  deadline : Nat
deriving DecidableEq, Repr

namespace Ticker

/-- How late a tick may come and still leave the next one where it was due. -/
def tolerance : Nat := 5

def arm (period now : Nat) : Ticker := ⟨period, now + period⟩

/-- After a tick the next is due a period after the last was, or after now if that was missed. -/
def fire (t : Ticker) (now : Nat) : Ticker :=
  if t.deadline + tolerance < now then arm t.period now
  else { t with deadline := t.deadline + t.period }

end Ticker

structure Loop where
  session : Session
  ticker : Ticker
  /-- The countdown that the ticker was armed for. -/
  armedEpoch : Nat
  /-- The inputs accepted and not yet begun. -/
  queue : List Input
  accepting : Bool
  listening : Bool
  /-- The input that waits for its fetch, and when that ends. -/
  busy : Option (Nat × Input)
  running : Bool

namespace Loop

def updatesOf (events : List Event) (s : State) : List Update :=
  (if events.isEmpty then [] else [.events events]) ++ [.view (.ofState s)]

/-- Takes the pending events and publishes them with the view, or ends if nobody listens. -/
def publish (l : Loop) : Loop × List Update :=
  let (session, events) := l.session.takeEvents
  if l.listening then ({ l with session }, updatesOf events session.state)
  else ({ l with session, running := false }, [])

/-- Arms the ticker anew if a countdown was started. -/
def rearm (now : Nat) (l : Loop) : Loop :=
  let epoch := l.session.state.countdown.epoch
  if epoch = l.armedEpoch then l
  else { l with armedEpoch := epoch, ticker := .arm l.ticker.period now }

/-- Starts the loop around a session. -/
def start (session : Session) (period now : Nat) : Loop × List Update :=
  { session
    ticker := .arm period now
    armedEpoch := session.state.countdown.epoch
    queue := []
    accepting := true
    listening := true
    busy := none
    running := true : Loop }.publish

/-! ### From outside -/

/-- Sends an input; says whether it was accepted. -/
def send (i : Input) (l : Loop) : Loop × Bool :=
  if l.accepting && l.running then ({ l with queue := l.queue ++ [i] }, true) else (l, false)

def close (l : Loop) : Loop := { l with accepting := false }

def deafen (l : Loop) : Loop := { l with listening := false }

/-! ### Moves of the loop -/

/-- Carries out an input whose fetch, if it has one, has come to its end. -/
def finish (w : Outside) (now : Nat) (i : Input) (l : Loop) : Loop × List Update :=
  let (session, answer) := l.session.handle w i
  let l := { l with session, busy := none }
  match answer with
  | .ok _ => (l.rearm now).publish
  | .error e =>
    if l.listening then
      let (l, updates) := (l.rearm now).publish
      (l, .failed e :: updates)
    else ({ l with running := false }, [])

def tick (w : Outside) (now : Nat) (l : Loop) : Loop × List Update :=
  let (session, _) := l.session.tick w
  let l := { l with session, ticker := l.ticker.fire now }
  (l.rearm now).publish

inductive Move where
  | finish (i : Input)
  | begin (i : Input) (rest : List Input)
  | tick
  | stop

/-- The next move that needs nothing from outside, and its time. -/
def next? (now : Nat) (l : Loop) : Option (Nat × Move) :=
  if !l.running then none
  else
    match l.busy, l.queue with
    | some (time, i), _ => some (max now time, .finish i)
    | none, i :: rest => some (now, .begin i rest)
    | none, [] =>
      if !l.accepting then some (now, .stop)
      else if l.session.state.countdown.isRunning then some (max now l.ticker.deadline, .tick)
      else none

def delayOf (w : Surroundings) (l : Loop) (i : Input) : Nat :=
  match i.request? l.session.state with
  | some locator => w.delay l.session.fetched.length locator
  | none => 0

def move (w : Surroundings) (now : Nat) (l : Loop) : Move → Loop × List Update
  | .finish i => l.finish w.toOutside now i
  | .begin i rest =>
    let l := { l with queue := rest }
    let delay := l.delayOf w i
    if delay = 0 then l.finish w.toOutside now i
    else ({ l with busy := some (now + delay, i) }, [])
  | .tick => l.tick w.toOutside now
  | .stop => ({ l with running := false }, [])

/-- Makes at most `fuel` moves, those whose time lies before `limit` if there is one. -/
def moves (w : Surroundings) (limit : Option Nat) : Nat → Nat → Loop → Loop × List Update
  | 0, _, l => (l, [])
  | fuel + 1, now, l =>
    match l.next? now with
    | none => (l, [])
    | some (time, m) =>
      if limit.any (· ≤ time) then (l, [])
      else
        let (l, updates) := l.move w time m
        let (l, more) := moves w limit fuel time l
        (l, updates ++ more)

/-- Lets the time from `now` up to and without `limit` pass. -/
def runUntil (w : Surroundings) (now limit : Nat) (l : Loop) : Loop × List Update :=
  l.moves w (some limit) (limit + 2 * l.queue.length + 4) now

/-- Closes the queue and runs to the end. -/
def runToEnd (w : Surroundings) (now : Nat) (l : Loop) : Loop × List Update :=
  l.close.moves w none (2 * l.queue.length + 4) now

end Loop

end Gamebook
