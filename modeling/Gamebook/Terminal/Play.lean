import Gamebook.Files.Tree
import Gamebook.Session.Loop
import Gamebook.Terminal.Command
import Gamebook.Terminal.Drawing
import Gamebook.Terminal.Failure

/-!
Playing at a terminal: typed lines go to the loop as inputs, and what the loop publishes is drawn.
A view is drawn if it shows something else than the one published before it.
-/
namespace Gamebook

structure Play where
  loop : Loop
  /-- The last view published. -/
  current : Option View
  /-- What has been typed of a line. -/
  typed : List UInt8
  /-- What has been drawn and not been taken, the latest first. -/
  drawn : List String
  /-- How many bytes still fit on the screen, if that is limited. -/
  room : Option Nat
  ended : Option (Except Failure Unit)

namespace Play

/-- Writes texts one after another; one that does not fit is not written and ends the play. -/
def write (p : Play) : List String → Play
  | [] => p
  | text :: rest =>
    match p.room with
    | none => { p with drawn := text :: p.drawn }.write rest
    | some room =>
      if text.utf8ByteSize ≤ room then
        { p with drawn := text :: p.drawn, room := some (room - text.utf8ByteSize) }.write rest
      else { p with ended := some (.error (.terminal .screenFull)) }

/-- Draws a view that differs from the one before. -/
def showView (p : Play) (v : View) : Play :=
  let p :=
    match p.current with
    | some shown => if shown.same v then p else p.write [v.draw]
    | none => p.write [v.draw]
  { p with current := some v }

def showUpdate (p : Play) : Update → Play
  | .view v => p.showView v
  | .events _ => p
  | .failed e => p.write (["! "] ++ e.parts ++ ["\n"])

/-- Shows updates in order, as long as the play goes on. -/
def showAll (p : Play) : List Update → Play
  | [] => p
  | u :: rest => if p.ended.isSome then p else (p.showUpdate u).showAll rest

/-- Shows what the loop publishes on its way to `limit`. -/
def pass (w : Surroundings) (now limit : Nat) (p : Play) : Play :=
  if p.ended.isSome then p
  else
    let (loop, updates) := p.loop.runUntil w now limit
    { p with loop }.showAll updates

/-- Leaves: what was sent is still handled, and all that is published is shown. -/
def leave (w : Surroundings) (now : Nat) (p : Play) : Play :=
  let (loop, updates) := p.loop.runToEnd w now
  let p := { p with loop }.showAll updates
  if p.ended.isSome then p else { p with ended := some (.ok ()) }

def hasChoices (p : Play) : Bool := (p.current.map View.hasChoices).getD false

/-- Takes a line that was typed to its end. -/
def takeLine (w : Surroundings) (now : Nat) (line : List UInt8) (p : Play) : Play :=
  match Text.decodeUtf8 line with
  | .error flaw => { p with ended := some (.error (.terminal (.badInput flaw))) }
  | .ok text =>
    match Command.parse text p.hasChoices with
    | .input i => { p with loop := (p.loop.send i).1 }
    | .quit => p.leave w now
    | .unknown => p.write [Command.help, "\n"]

def takeLines (w : Surroundings) (now : Nat) (p : Play) : List (List UInt8) → Play
  | [] => p
  | line :: rest => if p.ended.isSome then p else (p.takeLine w now line).takeLines w now rest

/-- Splits bytes into whole lines, each with its line break, and the start of another. -/
def splitLines : List UInt8 → List (List UInt8) × List UInt8
  | [] => ([], [])
  | b :: rest =>
    let (lines, last) := splitLines rest
    if b = 10 then ([b] :: lines, last)
    else
      match lines with
      | [] => ([], b :: last)
      | line :: lines => ((b :: line) :: lines, last)

def type (w : Surroundings) (now : Nat) (bytes : List UInt8) (p : Play) : Play :=
  if p.ended.isSome then p
  else
    let (lines, typed) := splitLines (p.typed ++ bytes)
    { p with typed }.takeLines w now lines

/-- The end of what is typed: a last line may lack its break. -/
def endInput (w : Surroundings) (now : Nat) (p : Play) : Play :=
  if p.ended.isSome then p
  else
    let p := if p.typed.isEmpty then p else { p with typed := [] }.takeLine w now p.typed
    if p.ended.isSome then p else p.leave w now

def takeOutput (p : Play) : Play × String :=
  ({ p with drawn := [] }, String.join p.drawn.reverse)

/-- Loads the start book and starts the loop. -/
def start (w : Surroundings) (settings : Settings) (room : Option Nat) (now : Nat) :
    Except LoadError Play := do
  let (session, outcome) := Session.initial.load w.toOutside settings.startBook
  outcome
  let (loop, updates) := Loop.start session settings.tickMillis now
  return { loop, current := none, typed := [], drawn := [], room, ended := none : Play }.showAll
    updates

end Play

end Gamebook
