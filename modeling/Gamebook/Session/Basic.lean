import Gamebook.Book.Loading
import Gamebook.Session.Event
import Gamebook.Session.Plan

/-!
A play session: the state of a reading and what has been recorded of it.

Every call runs to its end before the next. A call that makes no sense in the state it meets is
ignored and says so; only loading a book can fail, and then the state is as before. `perform` gives
all calls one form, so that a run of a session is a list of calls.
-/
namespace Gamebook

/-- What a call finds outside: the text at each locator, and the time. -/
structure Outside where
  fetch : String → Except LoadError String
  now : Int

structure Session where
  state : State
  /-- Events recorded and not yet taken. -/
  pending : List Event
  lastNumber : Nat
  /-- The number of the call that records events now. -/
  call : Nat
  /-- The pictures asked for so far. -/
  preloaded : List String
  /-- The locators fetched so far. -/
  fetched : List String

/-- What a host asks of a session. -/
inductive Input where
  | advance
  | select (index : Nat)
  | choose (index : Nat)
  | chooseTimed (index : Nat)
  | navigate (screen : String)
  | runAction (action : Action)
  | press (index : Nat)
  | scroll (delta : Float)
  | load (locator : String)
deriving DecidableEq, Repr

namespace Session

def initial : Session := ⟨.initial, [], 0, 0, [], []⟩

def beginCall (s : Session) : Session := { s with call := s.call + 1 }

def record (w : Outside) (kind : EventKind) (s : Session) : Session :=
  { s with
    pending := s.pending ++ [⟨s.lastNumber + 1, s.call, w.now, kind.typeName, kind⟩]
    lastNumber := s.lastNumber + 1 }

def takeEvents (s : Session) : Session × List Event := ({ s with pending := [] }, s.pending)

/-- Asks for the picture of the screen at the cursor, and records that the screen was entered. -/
def announce (w : Outside) (s : Session) : Session :=
  match s.state.screenId with
  | none => s
  | some id =>
    let picture := (s.state.screen?.bind Screen.backdrop).toList
    { s with preloaded := s.preloaded ++ picture }.record w (.screenEntered id)

/-- Enters a screen that the book defines. -/
def enter (w : Outside) (id : String) (s : Session) : Session × Bool :=
  if s.state.defines id then ({ s with state := s.state.place id }.announce w, true)
  else (s, false)

/-- Fetches and decodes a book, and only then replaces the active one. -/
def swapIn (w : Outside) (locator : String) (s : Session) : Session × Except LoadError Unit :=
  let s := { s with fetched := s.fetched ++ [locator] }
  match w.fetch locator with
  | .error e => (s, .error e)
  | .ok text =>
    match Book.decode locator text with
    | .error e => (s, .error e)
    | .ok book =>
      let loaded := .bookLoaded locator book.start book.screens.size (versionHash text)
      (({ s with state := s.state.adopt book }.record w loaded).announce w, .ok ())

/-- Carries out a plan. -/
def carryOut (w : Outside) (s : Session) : Plan → Session × Except LoadError Unit
  | .nextLine =>
    let index := s.state.dialogueIndex + 1
    ({ s with state := { s.state with dialogueIndex := index } }.record w
      (.dialogueAdvanced s.state.activeId index), .ok ())
  | .openChoices =>
    let count := (s.state.screen?.map fun screen => screen.choiceSet.length).getD 0
    ({ s with state := { s.state with menuOpen := true } }.record w
      (.choicesPresented s.state.activeId count), .ok ())
  | .startCountdown t =>
    let countdown := s.state.countdown.start s.state.activeId t
    ({ s with state := { s.state with countdown } }.record w
      (.countdownStarted s.state.activeId countdown.remaining t.defaultIndex.toNat), .ok ())
  | .dispatch (.navigate id) => ((s.enter w id).1, .ok ())
  | .goTo id => ((s.enter w id).1, .ok ())
  | .dispatch (.loadBook path) => s.swapIn w path
  | .dispatch .advance => (s, .ok ())
  | .stay => (s, .ok ())

def step (w : Outside) (s : Session) : Session × Except LoadError Unit :=
  s.carryOut w (.ofState s.state)

/-- Picks an option: records the choice and enters the option's screen, if the book defines it. -/
def resolve (w : Outside) (index : Nat) (next : String) (timed : Bool) (s : Session) :
    Session × Bool :=
  if s.state.defines next then
    (s.record w (.choiceMade s.state.activeId index next timed)).enter w next
  else (s, false)

/-- The option of this index among the screen's timed choices. -/
def timedOption? (s : State) (index : Nat) : Option Choice := do
  let screen ← s.screen?
  let t ← screen.timedChoices
  t.options[index]?

def pickTimed (w : Outside) (index : Nat) (s : Session) : Session × Bool :=
  match timedOption? s.state index with
  | some option => s.resolve w index option.next true
  | none => (s, false)

/-! ### Calls -/

def load (w : Outside) (locator : String) (s : Session) : Session × Except LoadError Unit :=
  s.beginCall.swapIn w locator

def advance (w : Outside) (s : Session) : Session × Except LoadError Unit :=
  s.beginCall.step w

def runAction (w : Outside) (action : Action) (s : Session) : Session × Except LoadError Unit :=
  match action with
  | .navigate id => ((s.beginCall.enter w id).1, .ok ())
  | .loadBook path => s.beginCall.swapIn w path
  | .advance => s.beginCall.step w

/-- The action of a button of the screen, counted from zero, on a screen of a known kind. -/
def buttonAction? (s : State) (index : Nat) : Option Action := do
  let screen ← s.screen?
  if screen.kind = .unknown then none
  else
    let button ← screen.buttons[index]?
    button.action

def press (w : Outside) (index : Nat) (s : Session) : Session × Except LoadError Bool :=
  match buttonAction? s.state index with
  | none => (s, .ok false)
  | some action =>
    let (s, outcome) := s.runAction w action
    (s, outcome.map fun _ => true)

def navigate (w : Outside) (id : String) (s : Session) : Session × Bool :=
  s.beginCall.enter w id

def choose (w : Outside) (index : Nat) (s : Session) : Session × Bool :=
  let s := s.beginCall
  if s.state.mode = .choice then
    match s.state.screen?.bind fun screen => screen.choiceSet[index]? with
    | some choice => s.resolve w index choice.next false
    | none => (s, false)
  else (s, false)

def chooseTimed (w : Outside) (index : Nat) (s : Session) : Session × Bool :=
  let s := s.beginCall
  if s.state.mode = .timed then s.pickTimed w index else (s, false)

/-- Picks an option of whichever menu is on the screen. -/
def select (w : Outside) (index : Nat) (s : Session) : Session × Bool :=
  match s.state.mode with
  | .choice => s.choose w index
  | .timed => s.chooseTimed w index
  | _ => (s, false)

/-- Takes a second off the countdown; the last one picks the default option. -/
def tick (w : Outside) (s : Session) : Session × Bool :=
  let s := s.beginCall
  let (countdown, outcome) := s.state.countdown.tick
  let s := { s with state := { s.state with countdown } }
  match outcome with
  | .idle => (s, false)
  | .counting remaining => (s.record w (.countdownTicked s.state.activeId remaining), true)
  | .expired owner defaultIndex =>
    let s := s.record w (.countdownExpired owner defaultIndex)
    if s.state.screenId = some owner then ((s.pickTimed w defaultIndex).1, true) else (s, true)

/-- Scrolls a screen, not above its top. -/
def scroll (delta : Float) (s : Session) : Session × Bool :=
  match s.state.screen? with
  | none => (s, false)
  | some _ =>
    let offset := s.state.scrollOffset + delta
    let offset := if 0 < offset then offset else 0
    ({ s with state := { s.state with scrollOffset := offset } }, true)

def unitAnswer (r : Session × Except LoadError Unit) : Session × Except LoadError Bool :=
  (r.1, r.2.map fun _ => true)

def boolAnswer (r : Session × Bool) : Session × Except LoadError Bool := (r.1, .ok r.2)

/-- Carries out an input. The answer says whether it was heeded; what has no answer of its own
counts as heeded. -/
def handle (w : Outside) (s : Session) : Input → Session × Except LoadError Bool
  | .advance => unitAnswer (s.advance w)
  | .select index => boolAnswer (s.select w index)
  | .choose index => boolAnswer (s.choose w index)
  | .chooseTimed index => boolAnswer (s.chooseTimed w index)
  | .navigate id => boolAnswer (s.navigate w id)
  | .runAction action => unitAnswer (s.runAction w action)
  | .press index => s.press w index
  | .scroll delta => boolAnswer (s.scroll delta)
  | .load locator => unitAnswer (s.load w locator)

end Session

/-- Everything that can happen to a session. -/
inductive Call where
  | input (i : Input)
  | tick
deriving DecidableEq, Repr

def Session.perform (w : Outside) (s : Session) : Call → Session × Except LoadError Bool
  | .input i => s.handle w i
  | .tick => boolAnswer (s.tick w)

/-! ### What a call asks for

Which book a call will ask for is told from the state before it, and it is one book at most. -/

def Plan.request? : Plan → Option String
  | dispatch (.loadBook path) => some path
  | _ => none

def Action.request? (s : State) : Action → Option String
  | loadBook path => some path
  | advance => (Plan.ofState s).request?
  | navigate _ => none

def Input.request? (s : State) : Input → Option String
  | load locator => some locator
  | runAction action => action.request? s
  | press index => (Session.buttonAction? s index).bind (Action.request? s)
  | advance => (Plan.ofState s).request?
  | _ => none

end Gamebook
