import Mathlib.Logic.Basic
import Gamebook.Proofs.Session.Turn

/-!
# The events account for the state

`Account` is the part of a state that the events tell: the screen, the cursor,
the open menu and the countdown.  `Account.note` says what each event changes,
without looking at the session, and `Account.replay` follows the events from
the start.  Replaying the events that a call records moves the account just as
the call moves the state (`replay_turn`), so the events recorded so far always
tell where the reader is (`replay_run`).

The two parts of a state that no event tells are the book and the scroll
offset.  A book is changed only with a `bookLoaded` event, the offset only by
scrolling or with a `screenEntered` event.
-/

namespace Gamebook

/-- The part of a state that the events tell. -/
structure Account where
  screenId : Option String
  dialogueIndex : Nat
  menuOpen : Bool
  countdown : Countdown

namespace Account

def blank : Account := ⟨none, 0, false, ⟨none, 0⟩⟩

def ofState (s : State) : Account := ⟨s.screenId, s.dialogueIndex, s.menuOpen, s.countdown⟩

/-- What an event changes. -/
def note (a : Account) : EventKind → Account
  | .bookLoaded .. => a
  | .screenEntered screen => ⟨some screen, 0, false, { a.countdown with running := none }⟩
  | .dialogueAdvanced _ index => { a with dialogueIndex := index }
  | .choicesPresented .. => { a with menuOpen := true }
  | .countdownStarted screen seconds defaultIndex =>
    { a with countdown := ⟨some ⟨screen, seconds, defaultIndex⟩, a.countdown.epoch + 1⟩ }
  | .countdownTicked _ remaining =>
    { a with countdown :=
      { a.countdown with running := a.countdown.running.map ({ · with remaining }) } }
  | .countdownExpired .. => { a with countdown := { a.countdown with running := none } }
  | .choiceMade .. => a

/-- What a list of events tells, from the start. -/
def replay (kinds : List EventKind) : Account := kinds.foldl note blank

/-- **Replaying the events of a turn moves the account as the turn moves the state.** -/
theorem replay_turn {w : Outside} {s s' : State} {c : Call} {kinds : List EventKind}
    (ht : Turn w s c kinds s') : kinds.foldl note (ofState s) = ofState s' := by
  cases ht with
  | ignored => rfl
  | scrolled => rfl
  | nextLine => rfl
  | menuOpened => rfl
  | countdownStarted => rfl
  | entered => rfl
  | loaded => rfl
  | picked => rfl
  | ticked hr _ => simp [note, ofState, hr]
  | expired => rfl
  | defaulted => rfl

theorem replay_run (calls : List (Outside × Call)) (s : Session)
    (h : replay s.kinds = ofState s.state) :
    replay (s.run calls).kinds = ofState (s.run calls).state := by
  induction calls generalizing s with
  | nil => exact h
  | cons c rest ih =>
    refine ih _ ?_
    rw [replay, Session.kinds_perform, List.foldl_append]
    rw [replay] at h
    rw [h, replay_turn (s.perform_turn c.1 c.2)]

end Account

/-! ### What no event tells -/

theorem Turn.book_eq {w : Outside} {s s' : State} {c : Call} {kinds : List EventKind}
    (ht : Turn w s c kinds s') : s'.book = s.book ∨ ∃ kind ∈ kinds, kind.tag = .bookLoaded := by
  cases ht with
  | loaded => exact Or.inr ⟨_, List.mem_cons_self, rfl⟩
  | _ => exact Or.inl rfl

theorem Turn.scrollOffset_eq {w : Outside} {s s' : State} {c : Call} {kinds : List EventKind}
    (ht : Turn w s c kinds s') : s'.scrollOffset = s.scrollOffset ∨
      (∃ delta, c = .input (.scroll delta)) ∨ ∃ kind ∈ kinds, kind.tag = .screenEntered := by
  cases ht with
  | scrolled delta _ => exact Or.inr (Or.inl ⟨delta, rfl⟩)
  | entered => exact Or.inr (Or.inr ⟨_, List.mem_cons_self, rfl⟩)
  | loaded => exact Or.inr (Or.inr ⟨_, List.mem_cons_of_mem _ List.mem_cons_self, rfl⟩)
  | picked => exact Or.inr (Or.inr ⟨_, List.mem_cons_of_mem _ List.mem_cons_self, rfl⟩)
  | defaulted =>
    exact Or.inr (Or.inr
      ⟨_, List.mem_cons_of_mem _ (List.mem_cons_of_mem _ List.mem_cons_self), rfl⟩)
  | _ => exact Or.inl rfl

/-- **The events account for the state.**  After any run from the start they tell the screen, the
cursor, the open menu and the countdown; the book and the scroll offset change only in calls that
show it. -/
theorem events_account_for_state :
    (∀ calls : List (Outside × Call),
      Account.replay (Session.initial.run calls).kinds =
        .ofState (Session.initial.run calls).state) ∧
    ∀ (w : Outside) (s : Session) (c : Call),
      ((s.perform w c).1.state.book = s.state.book ∨
        ∃ e ∈ s.recorded w c, e.kind.tag = .bookLoaded) ∧
      ((s.perform w c).1.state.scrollOffset = s.state.scrollOffset ∨
        (∃ delta, c = .input (.scroll delta)) ∨
        ∃ e ∈ s.recorded w c, e.kind.tag = .screenEntered) := by
  refine ⟨fun calls => Account.replay_run calls .initial rfl, fun w s c => ?_⟩
  have hturn := s.perform_turn w c
  have hbook := hturn.book_eq
  have hscroll := hturn.scrollOffset_eq
  simp only [List.mem_map, exists_exists_and_eq_and] at hbook hscroll
  exact ⟨hbook, hscroll⟩

end Gamebook
