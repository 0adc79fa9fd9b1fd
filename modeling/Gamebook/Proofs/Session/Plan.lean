import Gamebook.Session.Plan

/-!
# When which step is planned

`Plan.ofState` is read backwards: from the plan to the screen it was made on
(`Plan.exists_screen`), and from there to what that screen has.
-/

namespace Gamebook

namespace State

theorem screen?_eq_some_iff {s : State} {screen : Screen} :
    s.screen? = some screen ↔
      ∃ book id, s.book = some book ∧ s.screenId = some id ∧ book.screen? id = some screen := by
  simp [screen?, Option.bind_eq_some_iff]

theorem contains_of_screen? {s : State} {screen : Screen} {book : Book} {id : String}
    (hscreen : s.screen? = some screen) (hbook : s.book = some book) (hid : s.screenId = some id) :
    book.contains id = true := by
  obtain ⟨book', id', hbook', hid', hfound⟩ := screen?_eq_some_iff.1 hscreen
  obtain rfl : book = book' := Option.some.inj (hbook.symm.trans hbook')
  obtain rfl : id = id' := Option.some.inj (hid.symm.trans hid')
  unfold Book.contains Dict.contains
  rw [show book.screens.find? id = some screen from hfound]
  rfl

theorem defines_iff {s : State} {id : String} :
    s.defines id = true ↔ ∃ book, s.book = some book ∧ book.contains id = true := by
  unfold defines
  cases s.book <;> simp

end State

namespace Plan

/-- A plan to do something is made on a screen of a known kind with no countdown running. -/
theorem exists_screen {s : State} (h : ofState s ≠ stay) :
    ∃ screen, s.screen? = some screen ∧ screen.kind ≠ .unknown ∧ s.countdown.running = none ∧
      ofState s =
        if s.dialogueIndex + 1 < screen.lines.length then nextLine else afterLines screen := by
  unfold ofState at h ⊢
  cases hscreen : s.screen? with
  | none => simp [hscreen] at h
  | some screen =>
    simp only [hscreen] at h ⊢
    split at h <;> rename_i hinert
    · exact absurd rfl h
    · rw [if_neg hinert]
      simp only [Bool.or_eq_true, decide_eq_true_eq, not_or, Countdown.isRunning,
        Option.not_isSome_iff_eq_none] at hinert
      exact ⟨screen, rfl, hinert.1, hinert.2, rfl⟩

theorem idle {s : State} {plan : Plan} (h : ofState s = plan) (hstay : plan ≠ stay) :
    s.countdown.running = none := by
  obtain ⟨_, _, _, hidle, _⟩ := exists_screen (s := s) (by rw [h]; exact hstay)
  exact hidle

theorem afterLines_ne_nextLine (screen : Screen) : afterLines screen ≠ nextLine := by
  unfold afterLines
  split <;> simp

theorem afterLines_eq_openChoices {screen : Screen} (h : afterLines screen = openChoices) :
    screen.choices.isSome = true := by
  unfold afterLines at h
  split at h <;> simp_all

theorem afterLines_eq_startCountdown {screen : Screen} {t : TimedChoices}
    (h : afterLines screen = startCountdown t) :
    screen.choices = none ∧ screen.timedChoices = some t := by
  unfold afterLines at h
  split at h <;> simp_all

theorem afterLines_eq_goTo {screen : Screen} {id : String} (h : afterLines screen = goTo id) :
    screen.next = some id := by
  unfold afterLines at h
  split at h <;> simp_all

theorem afterLines_eq_navigate {screen : Screen} {id : String}
    (h : afterLines screen = dispatch (.navigate id)) : screen.action = some (.navigate id) := by
  unfold afterLines at h
  split at h <;> simp_all

theorem exists_screen_of_nextLine {s : State} (h : ofState s = nextLine) :
    ∃ screen, s.screen? = some screen ∧ screen.kind ≠ .unknown ∧ s.countdown.running = none ∧
      s.dialogueIndex + 1 < screen.lines.length := by
  obtain ⟨screen, hscreen, hkind, hidle, hplan⟩ := exists_screen (s := s) (by simp [h])
  rw [h] at hplan
  split at hplan
  · exact ⟨screen, hscreen, hkind, hidle, ‹_›⟩
  · exact absurd hplan.symm (afterLines_ne_nextLine screen)

/-- Any plan but the next line is made after the last one. -/
theorem exists_screen_of_afterLines {s : State} {plan : Plan} (h : ofState s = plan)
    (hstay : plan ≠ stay) (hline : plan ≠ nextLine) :
    ∃ screen, s.screen? = some screen ∧ screen.kind ≠ .unknown ∧ s.countdown.running = none ∧
      screen.lines.length ≤ s.dialogueIndex + 1 ∧ afterLines screen = plan := by
  obtain ⟨screen, hscreen, hkind, hidle, hplan⟩ := exists_screen (s := s) (by simp [h, hstay])
  rw [h] at hplan
  split at hplan
  · exact absurd hplan hline
  · exact ⟨screen, hscreen, hkind, hidle, by omega, hplan.symm⟩

end Plan

end Gamebook
