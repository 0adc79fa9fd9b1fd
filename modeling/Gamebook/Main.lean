import Gamebook.Terminal.Play
import Std.Time.DateTime.Timestamp

/-!
The player at a real terminal. Files, the clock and typed lines come from the system here; what they
mean is decided by `Play`.
-/
namespace Gamebook.Player

def FileFault.ofError? : IO.Error → Option FileFault
  | .noFileOrDirectory .. => some .notFound
  | .inappropriateType _ code _ => some (if code = 21 then .isDirectory else .notDirectory)
  | .invalidArgument _ code _ => if code = 36 then some .nameTooLong else none
  | _ => none

/-- The text at a locator under the root, read from a file. -/
def readShelf (root locator : String) : IO (Except LoadError String) := do
  match shelfPath root locator with
  | .error e => return .error e
  | .ok path =>
    let failed := fun fault => Except.error (FileFault.toLoadError locator fault)
    if path.toList.contains '\x00' then return failed .nulInName
    match ← (IO.FS.readBinFile path).toBaseIO with
    | .ok bytes =>
      return (Text.decodeUtf8 bytes.toList).mapError fun _ => FileFault.toLoadError locator .notText
    | .error e =>
      match FileFault.ofError? e with
      | some fault => return failed fault
      | none => return .error (.fetch locator (toString e))

/-- What is found outside now, when the book at no other locator than this one is asked for. -/
def surroundings (root : String) (locator : Option String) : IO Surroundings := do
  let time ← Std.Time.Timestamp.now
  let fetched ←
    match locator with
    | some locator => readShelf root locator
    | none => pure (.error (.notFound ""))
  return {
    fetch := fun _ => fetched
    now := time.toSecondsSinceUnixEpoch.val
    delay := fun _ _ => 0 }

/-- The book that the next input in the queue asks for. -/
def nextRequest (p : Play) : Option String :=
  p.loop.queue.head?.bind (·.request? p.loop.session.state)

/-- Reads a line with its break, which a last line without one is given; nothing at the end. -/
partial def readLine (input : IO.FS.Stream) (line : ByteArray) : IO ByteArray := do
  let next ← input.read 1
  if next.isEmpty then return if line.isEmpty then line else line.push 10
  let line := line ++ next
  if next.toList = [10] then return line
  readLine input line

/-- How long to wait before looking for a line or a tick again, in milliseconds. -/
def pause : UInt32 := 5

/-- Plays on from `p`, where `line` is being typed. -/
partial def playOn (root : String) (input output : IO.FS.Stream)
    (line : Task (Except IO.Error ByteArray)) (p : Play) : IO (Except Failure Unit) := do
  let now ← IO.monoMsNow
  let w ← surroundings root (nextRequest p)
  let (p, text) := (p.pass w now (now + 1)).takeOutput
  if !text.isEmpty then
    output.putStr text
    output.flush
  match p.ended with
  | some result => return result
  | none =>
    if ← IO.hasFinished line then
      let bytes ← IO.ofExcept (← IO.wait line)
      if bytes.isEmpty then playOn root input output line (p.endInput w now)
      else
        let p := p.type w now bytes.toList
        if p.ended.isSome then playOn root input output line p
        else playOn root input output (← IO.asTask (readLine input .empty) .dedicated) p
    else
      IO.sleep pause
      playOn root input output line p

/-- Plays with the settings that the environment gives. -/
def play : IO (Except Failure Unit) := do
  let values ← Settings.names.mapM fun name => do
    let value ← IO.getEnv name
    return (name, value)
  match Settings.ofLookup fun name => (values.lookup name).join with
  | .error flaw => return .error (.settings flaw.message)
  | .ok settings =>
    let w ← surroundings settings.contentRoot (some settings.startBook)
    match Play.start w settings none (← IO.monoMsNow) with
    | .error e => return .error (.load e)
    | .ok p =>
      let input ← IO.getStdin
      let output ← IO.getStdout
      let line ← IO.asTask (readLine input .empty) .dedicated
      playOn settings.contentRoot input output line p

end Gamebook.Player

def main : IO UInt32 := do
  match ← Gamebook.Player.play with
  | .ok _ => return 0
  | .error failure =>
    IO.eprintln ("Error: " ++ failure.detail)
    return 1
