import Mathlib.Data.List.Forall2
import Gamebook.Proofs.Session.Turn
import Gamebook.Session.View

/-!
# Entering a screen wipes what came before

On whichever route a call enters a screen, it leaves the reader at the top of
it: `Turn.state_of_entered` gives the whole state, and there is nothing of the
old one in it but the book and the number of countdowns started so far.

No call looks at that number (`aged_shift`), nor at the time of its events
(`timeless_shift`), nor at the history.  So two sessions that entered the same
screen of the same book have the same future, that of the state
`State.top book id 0`: `exists_future` puts a run from either as one and the
same run with the session's own history in front, its events and its epoch
counted on from there.
-/

namespace Gamebook

/-! ### The top of a screen -/

/-- The top of a screen, with so many countdowns started before. -/
def State.top (book : Option Book) (id : String) (epoch : Nat) : State :=
  ⟨book, some id, 0, 0, false, ⟨none, epoch⟩⟩

theorem State.top_eq_aged (book : Option Book) (id : String) (epoch : Nat) :
    top book id epoch = (top book id 0).aged epoch := by
  simp [top, aged, Countdown.aged]

/-- The same state but for the number of countdowns started before. -/
def State.SameButEpoch (s t : State) : Prop :=
  { s with countdown := { s.countdown with epoch := t.countdown.epoch } } = t

theorem State.sameButEpoch_aged (s : State) (m n : Nat) : (s.aged m).SameButEpoch (s.aged n) := rfl

/-- **A turn that enters a screen** leaves the top of it. -/
theorem Turn.state_of_entered {w : Outside} {s s' : State} {c : Call} {kinds : List EventKind}
    {id : String} (ht : Turn w s c kinds s') (hid : .screenEntered id ∈ kinds) :
    s' = .top s'.book id s'.countdown.epoch := by
  cases ht with
  | entered =>
    obtain rfl : id = _ := by simpa using hid
    rfl
  | loaded =>
    obtain rfl : id = _ := by simpa using hid
    rfl
  | picked =>
    obtain rfl : id = _ := by simpa using hid
    rfl
  | defaulted =>
    obtain rfl : id = _ := by simpa using hid
    rfl
  | _ => simp at hid

/-! ### What no call looks at -/

def Event.timeless (e : Event) : Event := { e with time := 0 }

def Outside.timeless (w : Outside) : Outside := { w with now := 0 }

namespace Session

/-- The session with its events taken out of time. -/
def timeless (s : Session) : Session := { s with pending := s.pending.map Event.timeless }

/-- The session with `n` more countdowns started before. -/
def aged (n : Nat) (s : Session) : Session := { s with state := s.state.aged n }

theorem timeless_shift (w : Outside) : Shift 0 w w.timeless timeless where
  fetch := rfl
  state _ _ := rfl
  beginCall _ := rfl
  record kind s := by simp [record, timeless, Event.timeless, Outside.timeless]
  preloaded _ _ := rfl
  fetched _ _ := rfl

theorem aged_shift (n : Nat) (w : Outside) : Shift n w w (aged n) where
  fetch := rfl
  state _ _ := rfl
  beginCall _ := rfl
  record _ _ := rfl
  preloaded _ _ := rfl
  fetched _ _ := rfl

/-! ### The same calls -/

/-- The same calls, made where the same locators lead to the same texts. -/
def SameCalls (first second : List (Outside × Call)) : Prop :=
  List.Forall₂ (fun c d => c.1.fetch = d.1.fetch ∧ c.2 = d.2) first second

theorem SameCalls.timeless_eq {first second : List (Outside × Call)}
    (h : SameCalls first second) :
    (first.map fun c => (c.1.timeless, c.2)) = second.map fun c => (c.1.timeless, c.2) := by
  induction h with
  | nil => rfl
  | @cons c d first second hcall _ ih =>
    obtain ⟨hfetch, hsame⟩ := hcall
    have htimeless : c.1.timeless = d.1.timeless := by
      simp [Outside.timeless, hfetch]
    simp [htimeless, hsame, ih]

theorem SameCalls.run_eq {first second : List (Outside × Call)} (h : SameCalls first second)
    (z : State) :
    ((ofState z).run first).timeless = ((ofState z).run second).timeless ∧
      (ofState z).answers first = (ofState z).answers second := by
  have hstart : (ofState z).timeless = ofState z := rfl
  constructor
  · rw [← run_shift _ timeless_shift first, ← run_shift _ timeless_shift second, h.timeless_eq]
  · rw [← answers_shift _ timeless_shift first, ← answers_shift _ timeless_shift second,
      h.timeless_eq]

/-- **The future of a session** is that of a state with no countdown started before: a run adds
the same to any history, with the epoch counted on. -/
theorem exists_future {t : Session} {z : State} {epoch : Nat} (h : t.state = z.aged epoch)
    (later : List (Outside × Call)) :
    t.run later = t.followedBy (((ofState z).run later).aged epoch) ∧
      t.answers later = (ofState z).answers later := by
  have hstart : t.followedBy ((ofState z).aged epoch) = t := by
    have hself := followedBy_ofState t
    rwa [h] at hself
  have hid : (later.map fun c => (id c.1, c.2)) = later := List.map_id later
  have hrun := run_shift (ofState z) (g := id) (aged_shift epoch) later
  have hanswers := answers_shift (ofState z) (g := id) (aged_shift epoch) later
  rw [hid] at hrun hanswers
  have hrunFrom := run_followedBy t ((ofState z).aged epoch) later
  have hanswersFrom := answers_followedBy t ((ofState z).aged epoch) later
  rw [hstart, hrun] at hrunFrom
  rw [hstart, hanswers] at hanswersFrom
  exact ⟨hrunFrom, hanswersFrom⟩

theorem map_later (n m k : Nat) (events : List Event) :
    ((events.map (Event.later n m)).map fun e => (e.number + k, e.kind)) =
      (events.map Event.timeless).map fun e => (e.number + (n + k), e.kind) := by
  rw [List.map_map, List.map_map]
  refine List.map_congr_left fun e _ => ?_
  have hnumber : n + e.number + k = e.number + (n + k) := by omega
  simp [Event.later, Event.timeless, hnumber]

end Session

open Session in
/-- **Entering a screen wipes what came before.**  Two sessions whose last call entered the same
screen of the same book, on whatever routes, are in one state but for the number of countdowns
started before.  The same calls, made where locators lead to the same texts, get the same answers
from both and show the same views, and they leave both in one state again but for that number, which
has grown by as much; the events that they record are of the same kinds, with numbers as far apart as
before. -/
theorem entering_wipes_history {w₁ w₂ : Outside} {s₁ s₂ : Session} {c₁ c₂ : Call} {id : String}
    (h₁ : .screenEntered id ∈ (s₁.recorded w₁ c₁).map (·.kind))
    (h₂ : .screenEntered id ∈ (s₂.recorded w₂ c₂).map (·.kind))
    (hbook : (s₁.perform w₁ c₁).1.state.book = (s₂.perform w₂ c₂).1.state.book) :
    let t₁ := (s₁.perform w₁ c₁).1
    let t₂ := (s₂.perform w₂ c₂).1
    t₁.state.SameButEpoch t₂.state ∧
      ∀ later₁ later₂ : List (Outside × Call), SameCalls later₁ later₂ →
        t₁.answers later₁ = t₂.answers later₂ ∧
        View.ofState (t₁.run later₁).state = View.ofState (t₂.run later₂).state ∧
        (t₁.run later₁).state.SameButEpoch (t₂.run later₂).state ∧
        (t₁.run later₁).state.countdown.epoch + t₂.state.countdown.epoch =
          (t₂.run later₂).state.countdown.epoch + t₁.state.countdown.epoch ∧
        ((t₁.recordedIn later₁).map fun e => (e.number + t₂.lastNumber, e.kind)) =
          (t₂.recordedIn later₂).map fun e => (e.number + t₁.lastNumber, e.kind) := by
  intro t₁ t₂
  let z : State := .top t₁.state.book id 0
  have hz₁ : t₁.state = z.aged t₁.state.countdown.epoch := by
    rw [← State.top_eq_aged]
    exact (s₁.perform_turn w₁ c₁).state_of_entered h₁
  have hz₂ : t₂.state = z.aged t₂.state.countdown.epoch := by
    rw [← State.top_eq_aged, hbook]
    exact (s₂.perform_turn w₂ c₂).state_of_entered h₂
  refine ⟨?_, fun later₁ later₂ hlater => ?_⟩
  · rw [hz₁, hz₂]
    exact z.sameButEpoch_aged _ _
  · obtain ⟨hrun₁, hanswers₁⟩ := exists_future hz₁ later₁
    obtain ⟨hrun₂, hanswers₂⟩ := exists_future hz₂ later₂
    obtain ⟨htimeless, hanswers⟩ := hlater.run_eq z
    have hstate : ((ofState z).run later₁).timeless.state =
        ((ofState z).run later₂).timeless.state := by rw [htimeless]
    have hpending : ((ofState z).run later₁).timeless.pending =
        ((ofState z).run later₂).timeless.pending := by rw [htimeless]
    change ((ofState z).run later₁).state = ((ofState z).run later₂).state at hstate
    change ((ofState z).run later₁).pending.map _ =
      ((ofState z).run later₂).pending.map _ at hpending
    have hstate₁ := congrArg Session.state hrun₁
    have hstate₂ := congrArg Session.state hrun₂
    change _ = ((ofState z).run later₁).state.aged _ at hstate₁
    change _ = ((ofState z).run later₂).state.aged _ at hstate₂
    rw [← hstate] at hstate₂
    refine ⟨hanswers₁.trans (hanswers.trans hanswers₂.symm), ?_, ?_, ?_, ?_⟩
    · rw [hstate₁, hstate₂]
      rfl
    · rw [hstate₁, hstate₂]
      exact State.sameButEpoch_aged _ _ _
    · rw [hstate₁, hstate₂]
      change _ + _ + _ = _ + _ + _
      omega
    · rw [recordedIn_of_run_eq _ _ hrun₁, recordedIn_of_run_eq _ _ hrun₂, map_later, map_later]
      change (((ofState z).run later₁).pending.map _).map _ =
        (((ofState z).run later₂).pending.map _).map _
      rw [hpending, Nat.add_comm t₁.lastNumber]

/-- A hall with three seconds to leave it. -/
def timedHall : Screen :=
  { Screen.blank with
    kind := .timed
    timedChoices := some ⟨3, 0, [⟨"Wait", "hall"⟩, ⟨"Leave", "garden"⟩]⟩ }

def inTimedHall : State :=
  { State.initial with
    book := some ⟨"hall", .ofList [("hall", timedHall)]⟩
    screenId := some "hall" }

/-- A session that is on no screen yet. -/
def newcomer : Session := .ofState { inTimedHall with screenId := none }

/-- A session in the hall with the page scrolled, and in the last second of its second countdown. -/
def returner : Session :=
  .ofState { inTimedHall with scrollOffset := 40, countdown := ⟨some ⟨"hall", 1, 0⟩, 2⟩ }

/-- Surroundings without any book. -/
def nowhere : Outside := ⟨fun locator => .error (.notFound locator), 0⟩

/-- The calls that start the countdown in the hall, and a second of it. -/
def waitInHall : List (Outside × Call) := [(nowhere, .input .advance), (nowhere, .tick)]

/-- One reader walks into the hall, another is led back to it by a countdown.  Then both wait there
for a second. -/
theorem entering_hall_wipes_history :
    let walked := (newcomer.perform nowhere (.input (.navigate "hall"))).1.run waitInHall
    let led := (returner.perform nowhere .tick).1.run waitInHall
    returner.state.countdown.isRunning = true ∧
      walked.state.countdown.running = some ⟨"hall", 2, 0⟩ ∧
      led.state.countdown.epoch = walked.state.countdown.epoch + 2 ∧
      View.ofState walked.state = View.ofState led.state := by
  intro walked led
  have hsame : Session.SameCalls waitInHall waitInHall :=
    List.forall₂_same.2 fun _ _ => ⟨rfl, rfl⟩
  have hwalked : .screenEntered "hall" ∈
      (newcomer.recorded nowhere (.input (.navigate "hall"))).map (·.kind) := by decide
  have hled : .screenEntered "hall" ∈ (returner.recorded nowhere .tick).map (·.kind) := by decide
  have hwiped := entering_wipes_history hwalked hled rfl
  obtain ⟨_, hview, _, hepoch, _⟩ := hwiped.2 waitInHall waitInHall hsame
  exact ⟨rfl, rfl, hepoch.symm, hview⟩

end Gamebook
