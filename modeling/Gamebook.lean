import Gamebook.Book.Validation
import Gamebook.Main
import Gamebook.Proofs.Session.Shift
import Gamebook.Proofs.Session.History
import Gamebook.Proofs.Session.Turn
import Gamebook.Proofs.Session.Coherence
import Gamebook.Proofs.Session.Replay
import Gamebook.Proofs.Loop.Moves
import Gamebook.Proofs.Loop.Run
import Gamebook.Proofs.Loop.Fuel
import Gamebook.Proofs.Loop.Sequential
import Gamebook.Proofs.Session.Expiry
import Gamebook.Proofs.Session.Lifetime
import Gamebook.Proofs.Dict
import Gamebook.Proofs.Text.ByteOrder
import Gamebook.Proofs.Book.Sound
import Gamebook.Proofs.Book.Issues
import Gamebook.Proofs.Book.RoundTrip
import Gamebook.Proofs.Book.Authored
import Gamebook.Proofs.Book.Schema
import Gamebook.Proofs.Session.SoundBook
import Gamebook.Proofs.Loop.Ticker
import Gamebook.Proofs.Loop.Timing
import Gamebook.Proofs.Session.Entering
import Gamebook.Proofs.Session.AwaitedPick
import Gamebook.Proofs.Terminal.Drawing
import Gamebook.Proofs.Terminal.TypedNumber
import Gamebook.Proofs.Terminal.Shown
import Gamebook.Proofs.Terminal.Table
import Gamebook.Proofs.Terminal.Ending
import Gamebook.Proofs.Terminal.Playing
import Gamebook.Proofs.Session.Lines
import Gamebook.Proofs.Session.Misuse
import Gamebook.Proofs.Session.Inert
import Gamebook.Proofs.Session.Numbering
import Gamebook.Proofs.Session.OneStep
import Gamebook.Proofs.Session.Effects
import Gamebook.Proofs.Files.ContentRoot
import Gamebook.Proofs.Files.Lexical
import Gamebook.Proofs.Json.Normal
import Gamebook.Proofs.Json.Record
import Gamebook.Proofs.Json.Values
import Gamebook.Proofs.Text.Trim
import Gamebook.Proofs.Book.Format
import Gamebook.Proofs.Session.Countdown
import Gamebook.Proofs.Terminal.Grammar
import Gamebook.Proofs.Json.Padded
import Gamebook.Proofs.Session.Payload
