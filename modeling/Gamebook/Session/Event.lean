import Gamebook.Book.Codec

/-!
What a session records: events, each with its number in the session and the call it belongs to.
-/
namespace Gamebook

open Json (Draft Problem fail)

inductive EventKind where
  | bookLoaded (locator start : String) (screenCount : Nat) (versionHash : String)
  | screenEntered (screen : String)
  | dialogueAdvanced (screen : String) (index : Nat)
  | choicesPresented (screen : String) (count : Nat)
  | countdownStarted (screen : String) (seconds defaultIndex : Nat)
  | countdownTicked (screen : String) (remaining : Nat)
  | countdownExpired (screen : String) (defaultIndex : Nat)
  | choiceMade (screen : String) (index : Nat) (next : String) (timed : Bool)
deriving DecidableEq, Repr

structure Event where
  number : Nat
  /-- The call that recorded the event; all events of one call share it. -/
  call : Nat
  /-- When the event was recorded, in Unix seconds. -/
  time : Int
  /-- The name under which hosts subscribe to the event. -/
  type : String
  kind : EventKind
deriving DecidableEq, Repr

namespace EventKind

inductive Tag where
  | bookLoaded
  | screenEntered
  | dialogueAdvanced
  | choicesPresented
  | countdownStarted
  | countdownTicked
  | countdownExpired
  | choiceMade
deriving DecidableEq, Repr

namespace Tag

def all : List Tag :=
  [bookLoaded, screenEntered, dialogueAdvanced, choicesPresented, countdownStarted,
    countdownTicked, countdownExpired, choiceMade]

def name : Tag → String
  | bookLoaded => "BookLoaded"
  | screenEntered => "ScreenEntered"
  | dialogueAdvanced => "DialogueAdvanced"
  | choicesPresented => "ChoicesPresented"
  | countdownStarted => "CountdownStarted"
  | countdownTicked => "CountdownTicked"
  | countdownExpired => "CountdownExpired"
  | choiceMade => "ChoiceMade"

def ofName (s : String) : Except Problem Tag :=
  match all.find? (·.name == s) with
  | some tag => .ok tag
  | none => fail (.unknownVariant s (all.map name))

end Tag

def tag : EventKind → Tag
  | bookLoaded .. => .bookLoaded
  | screenEntered .. => .screenEntered
  | dialogueAdvanced .. => .dialogueAdvanced
  | choicesPresented .. => .choicesPresented
  | countdownStarted .. => .countdownStarted
  | countdownTicked .. => .countdownTicked
  | countdownExpired .. => .countdownExpired
  | choiceMade .. => .choiceMade

/-- The type that events of this kind carry. -/
def typeName : EventKind → String
  | bookLoaded .. => "narrative.book_loaded"
  | screenEntered .. => "narrative.screen_entered"
  | dialogueAdvanced .. => "narrative.dialogue_advanced"
  | choicesPresented .. => "narrative.choices_presented"
  | countdownStarted .. => "narrative.countdown_started"
  | countdownTicked .. => "narrative.countdown_ticked"
  | countdownExpired .. => "narrative.countdown_expired"
  | choiceMade .. => "narrative.choice_made"

def content : EventKind → List (String × Json)
  | bookLoaded locator start screenCount versionHash =>
    [("locator", .string locator), ("start", .string start), ("screen_count", .int screenCount),
      ("version_hash", .string versionHash)]
  | screenEntered screen => [("screen_id", .string screen)]
  | dialogueAdvanced screen index => [("screen_id", .string screen), ("index", .int index)]
  | choicesPresented screen count => [("screen_id", .string screen), ("count", .int count)]
  | countdownStarted screen seconds defaultIndex =>
    [("screen_id", .string screen), ("seconds", .int seconds),
      ("default_index", .int defaultIndex)]
  | countdownTicked screen remaining =>
    [("screen_id", .string screen), ("remaining", .int remaining)]
  | countdownExpired screen defaultIndex =>
    [("screen_id", .string screen), ("default_index", .int defaultIndex)]
  | choiceMade screen index next timed =>
    [("screen_id", .string screen), ("index", .int index), ("next", .string next),
      ("timed", .bool timed)]

/-- An object whose one member is named for the kind. -/
def toJson (e : EventKind) : Json :=
  .ofMembers [(e.tag.name, .ofMembers e.content)]

/-! ### Reading -/

/-- The fields that the kinds have between them. -/
structure Fields where
  locator : String
  start : String
  screenCount : Nat
  versionHash : String
  screen : String
  index : Nat
  count : Nat
  seconds : Nat
  defaultIndex : Nat
  remaining : Nat
  next : String
  timed : Bool

namespace Fields

def blank : Fields := ⟨"", "", 0, "", "", 0, 0, 0, 0, 0, "", false⟩

def locatorField : Json.Field Fields :=
  .needed "locator" Draft.text fun v e => { e with locator := v }

def startField : Json.Field Fields :=
  .needed "start" Draft.text fun v e => { e with start := v }

def screenCountField : Json.Field Fields :=
  .needed "screen_count" Draft.word64 fun v e => { e with screenCount := v }

def versionHashField : Json.Field Fields :=
  .needed "version_hash" Draft.text fun v e => { e with versionHash := v }

def screenField : Json.Field Fields :=
  .needed "screen_id" Draft.text fun v e => { e with screen := v }

def indexField : Json.Field Fields :=
  .needed "index" Draft.word64 fun v e => { e with index := v }

def countField : Json.Field Fields :=
  .needed "count" Draft.word64 fun v e => { e with count := v }

def secondsField : Json.Field Fields :=
  .needed "seconds" Draft.word32 fun v e => { e with seconds := v }

def defaultIndexField : Json.Field Fields :=
  .needed "default_index" Draft.word64 fun v e => { e with defaultIndex := v }

def remainingField : Json.Field Fields :=
  .needed "remaining" Draft.word32 fun v e => { e with remaining := v }

def nextField : Json.Field Fields :=
  .needed "next" Draft.text fun v e => { e with next := v }

def timedField : Json.Field Fields :=
  .needed "timed" Draft.boolean fun v e => { e with timed := v }

end Fields

namespace Tag

def fields : Tag → List (Json.Field Fields)
  | bookLoaded =>
    [Fields.locatorField, Fields.startField, Fields.screenCountField, Fields.versionHashField]
  | screenEntered => [Fields.screenField]
  | dialogueAdvanced => [Fields.screenField, Fields.indexField]
  | choicesPresented => [Fields.screenField, Fields.countField]
  | countdownStarted => [Fields.screenField, Fields.secondsField, Fields.defaultIndexField]
  | countdownTicked => [Fields.screenField, Fields.remainingField]
  | countdownExpired => [Fields.screenField, Fields.defaultIndexField]
  | choiceMade => [Fields.screenField, Fields.indexField, Fields.nextField, Fields.timedField]

def build (e : Fields) : Tag → EventKind
  | bookLoaded => .bookLoaded e.locator e.start e.screenCount e.versionHash
  | screenEntered => .screenEntered e.screen
  | dialogueAdvanced => .dialogueAdvanced e.screen e.index
  | choicesPresented => .choicesPresented e.screen e.count
  | countdownStarted => .countdownStarted e.screen e.seconds e.defaultIndex
  | countdownTicked => .countdownTicked e.screen e.remaining
  | countdownExpired => .countdownExpired e.screen e.defaultIndex
  | choiceMade => .choiceMade e.screen e.index e.next e.timed

end Tag

def ofDraft : Draft → Except Problem EventKind :=
  Draft.variant Tag.ofName
    (fun _ => fail (.wrongType .plainVariant .variantWithContent))
    fun tag d => do
      let fields ← d.record tag.name tag.fields .blank
      return tag.build fields

def ofJsonText (text : String) : Except Problem EventKind :=
  (Json.Document.read text).decode ofDraft

end EventKind

end Gamebook
