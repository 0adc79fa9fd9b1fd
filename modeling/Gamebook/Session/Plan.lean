import Gamebook.Session.State

/-!
What advancing does, worked out from the state alone: the next line, and after the last line the
first that the screen has of choices, a countdown, an action and a next screen.
-/
namespace Gamebook

inductive Plan where
  | nextLine
  | openChoices
  | startCountdown (t : TimedChoices)
  | dispatch (a : Action)
  | goTo (id : String)
  | stay
deriving DecidableEq, Repr

/-- What is done after a screen's last line. An action that advances is passed over, since it
would only ask again. -/
def Plan.afterLines (screen : Screen) : Plan :=
  match screen.choices, screen.timedChoices, screen.action, screen.next with
  | some _, _, _, _ => openChoices
  | none, some t, _, _ => startCountdown t
  | none, none, some (.navigate id), _ => dispatch (.navigate id)
  | none, none, some (.loadBook path), _ => dispatch (.loadBook path)
  | none, none, _, some id => goTo id
  | none, none, _, none => stay

/-- Nothing happens without a screen, on a screen of unknown kind, or while a countdown runs. -/
def Plan.ofState (s : State) : Plan :=
  match s.screen? with
  | none => stay
  | some screen =>
    if screen.kind = .unknown || s.countdown.isRunning then stay
    else if s.dialogueIndex + 1 < screen.lines.length then nextLine
    else afterLines screen

end Gamebook
