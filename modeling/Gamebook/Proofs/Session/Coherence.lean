import Gamebook.Proofs.Session.Plan
import Gamebook.Proofs.Session.Turn
import Gamebook.Session.View

/-!
# The parts of a reachable state fit together

`State.Coherent` says how the book, the screen, the cursor, the open menu and
the running countdown of a state constrain each other.  The parts hold only
together: that a menu stays shut while lines are left needs the cursor, that a
countdown belongs to the active screen needs every way of leaving the screen to
stop it.  Every turn keeps it (`State.Coherent.turn`), so it holds after every
run from the start (`coherent_run`), whatever books the calls find.
-/

namespace Gamebook

namespace State

/-- Nothing has been read of the screen: the first line, no menu, no countdown. -/
def AtTop (s : State) : Prop :=
  s.dialogueIndex = 0 ∧ s.menuOpen = false ∧ s.countdown.running = none

structure Coherent (s : State) : Prop where
  bookless : s.book = none → s.screenId = none ∧ s.AtTop
  /-- The screen is one of the book's, unless the book starts on one that it does not define. -/
  placed : ∀ book, s.book = some book → ∃ id, s.screenId = some id ∧
    (book.contains id = true ∨ book.contains id = false ∧ id = book.start ∧ s.AtTop)
  cursor : s.dialogueIndex = 0 ∨
    ∃ screen, s.screen? = some screen ∧ s.dialogueIndex < screen.lines.length
  menu : s.menuOpen = true → s.countdown.running = none ∧
    ∃ screen, s.screen? = some screen ∧ screen.kind ≠ .unknown ∧ screen.choices.isSome = true ∧
      screen.lines.length ≤ s.dialogueIndex + 1
  countdown : ∀ r, s.countdown.running = some r → s.screenId = some r.owner ∧
    ∃ screen t, s.screen? = some screen ∧ screen.kind ≠ .unknown ∧ screen.choices = none ∧
      screen.timedChoices = some t ∧ screen.lines.length ≤ s.dialogueIndex + 1 ∧
      r.defaultIndex = t.defaultIndex.toNat ∧ 0 < r.remaining ∧ r.remaining ≤ t.duration

namespace Coherent

theorem initial : State.initial.Coherent where
  bookless _ := ⟨rfl, rfl, rfl, rfl⟩
  placed _ h := nomatch h
  cursor := Or.inl rfl
  menu h := nomatch h
  countdown _ h := nomatch h

/-- On a screen that the book defines, the first two parts hold by themselves. -/
theorem of_screen? {s : State} {screen : Screen} (hscreen : s.screen? = some screen)
    (hcursor : s.dialogueIndex = 0 ∨ s.dialogueIndex < screen.lines.length)
    (hmenu : s.menuOpen = true → s.countdown.running = none ∧ screen.kind ≠ .unknown ∧
      screen.choices.isSome = true ∧ screen.lines.length ≤ s.dialogueIndex + 1)
    (hcountdown : ∀ r, s.countdown.running = some r → s.screenId = some r.owner ∧
      ∃ t, screen.kind ≠ .unknown ∧ screen.choices = none ∧ screen.timedChoices = some t ∧
        screen.lines.length ≤ s.dialogueIndex + 1 ∧ r.defaultIndex = t.defaultIndex.toNat ∧
        0 < r.remaining ∧ r.remaining ≤ t.duration) : s.Coherent where
  bookless hbook := by
    obtain ⟨book, _, hbook', _⟩ := screen?_eq_some_iff.1 hscreen
    simp [hbook] at hbook'
  placed book hbook := by
    obtain ⟨_, id, _, hid, _⟩ := screen?_eq_some_iff.1 hscreen
    exact ⟨id, hid, Or.inl (contains_of_screen? hscreen hbook hid)⟩
  cursor := hcursor.imp_right fun h => ⟨screen, hscreen, h⟩
  menu h := by
    obtain ⟨hidle, hkind, hchoices, hover⟩ := hmenu h
    exact ⟨hidle, screen, hscreen, hkind, hchoices, hover⟩
  countdown r h := by
    obtain ⟨howner, t, hrest⟩ := hcountdown r h
    exact ⟨howner, screen, t, hscreen, hrest⟩

theorem cursor_of_screen? {s : State} {screen : Screen} (h : s.Coherent)
    (hscreen : s.screen? = some screen) :
    s.dialogueIndex = 0 ∨ s.dialogueIndex < screen.lines.length := by
  refine h.cursor.imp_right fun ⟨screen', hscreen', hlt⟩ => ?_
  rwa [Option.some.inj (hscreen.symm.trans hscreen')]

theorem menu_of_screen? {s : State} {screen : Screen} (h : s.Coherent)
    (hscreen : s.screen? = some screen) (hopen : s.menuOpen = true) :
    screen.choices.isSome = true ∧ screen.lines.length ≤ s.dialogueIndex + 1 := by
  obtain ⟨_, screen', hscreen', _, hchoices, hover⟩ := h.menu hopen
  rw [Option.some.inj (hscreen.symm.trans hscreen')]
  exact ⟨hchoices, hover⟩

theorem place {s : State} {id : String} (hid : s.defines id = true) : (s.place id).Coherent := by
  obtain ⟨book, hbook, hcontains⟩ := defines_iff.1 hid
  obtain ⟨screen, hfound⟩ := Option.isSome_iff_exists.1 hcontains
  have hscreen : (s.place id).screen? = some screen :=
    screen?_eq_some_iff.2 ⟨book, id, hbook, rfl, hfound⟩
  exact of_screen? hscreen (Or.inl rfl) nofun nofun

theorem adopt (s : State) (book : Book) : (s.adopt book).Coherent where
  bookless h := nomatch h
  placed book' h := by
    obtain rfl : book = book' := Option.some.inj h
    cases hstart : book.contains book.start with
    | true => exact ⟨book.start, rfl, Or.inl hstart⟩
    | false => exact ⟨book.start, rfl, Or.inr ⟨hstart, rfl, rfl, rfl, rfl⟩⟩
  cursor := Or.inl rfl
  menu h := nomatch h
  countdown _ h := nomatch h

theorem nextLine {s : State} (h : s.Coherent) (hplan : Plan.ofState s = .nextLine) :
    { s with dialogueIndex := s.dialogueIndex + 1 : State }.Coherent := by
  obtain ⟨screen, hscreen, _, hidle, hmore⟩ := Plan.exists_screen_of_nextLine hplan
  refine of_screen? hscreen (Or.inr hmore) (fun hopen => ?_) (fun r hr => ?_)
  · -- an open menu means that no lines are left
    have hover := (h.menu_of_screen? hscreen hopen).2
    omega
  · simp [hidle] at hr

theorem openMenu {s : State} (h : s.Coherent) (hplan : Plan.ofState s = .openChoices) :
    { s with menuOpen := true }.Coherent := by
  obtain ⟨screen, hscreen, hkind, hidle, hover, hafter⟩ :=
    Plan.exists_screen_of_afterLines hplan nofun nofun
  refine of_screen? hscreen (h.cursor_of_screen? hscreen) (fun _ => ?_) (fun r hr => ?_)
  · exact ⟨hidle, hkind, Plan.afterLines_eq_openChoices hafter, hover⟩
  · simp [hidle] at hr

theorem startCountdown {s : State} {t : TimedChoices} (h : s.Coherent)
    (hplan : Plan.ofState s = .startCountdown t) :
    { s with countdown := s.countdown.start s.activeId t }.Coherent := by
  obtain ⟨screen, hscreen, hkind, _, hover, hafter⟩ :=
    Plan.exists_screen_of_afterLines hplan nofun nofun
  obtain ⟨hchoices, htimed⟩ := Plan.afterLines_eq_startCountdown hafter
  refine of_screen? hscreen (h.cursor_of_screen? hscreen) (fun hopen => ?_) (fun r hr => ?_)
  · -- an open menu means authored choices, which come before a countdown
    have hsome := (h.menu_of_screen? hscreen hopen).1
    simp [hchoices] at hsome
  · obtain rfl := Option.some.inj hr
    obtain ⟨_, id, _, hid, _⟩ := screen?_eq_some_iff.1 hscreen
    refine ⟨by simp [activeId, hid], t, hkind, hchoices, htimed, hover, rfl, ?_, Nat.le_refl _⟩
    exact t.duration_pos

theorem tick {s : State} {r : Running} (h : s.Coherent) (hr : s.countdown.running = some r)
    (hlast : 1 < r.remaining) :
    { s with countdown :=
      { s.countdown with
        running := some { r with remaining := r.remaining - 1 } } : State }.Coherent := by
  obtain ⟨howner, screen, t, hscreen, hkind, hchoices, htimed, hover, hdefault, _, hmost⟩ :=
    h.countdown r hr
  refine of_screen? hscreen (h.cursor_of_screen? hscreen) (fun hopen => ?_) (fun r' hr' => ?_)
  · simp [(h.menu hopen).1] at hr
  · obtain rfl := Option.some.inj hr'
    refine ⟨howner, t, hkind, hchoices, htimed, hover, hdefault, ?_, ?_⟩
    · change 0 < r.remaining - 1
      omega
    · change r.remaining - 1 ≤ t.duration
      omega

theorem cancel {s : State} (h : s.Coherent) :
    { s with countdown := s.countdown.cancel }.Coherent where
  bookless hbook := by
    obtain ⟨hid, hindex, hmenu, _⟩ := h.bookless hbook
    exact ⟨hid, hindex, hmenu, rfl⟩
  placed book hbook := by
    obtain ⟨id, hid, hdefined | ⟨hdangling, hstart, hindex, hmenu, _⟩⟩ := h.placed book hbook
    · exact ⟨id, hid, Or.inl hdefined⟩
    · exact ⟨id, hid, Or.inr ⟨hdangling, hstart, hindex, hmenu, rfl⟩⟩
  cursor := h.cursor
  menu hopen := ⟨rfl, (h.menu hopen).2⟩
  countdown _ hr := nomatch hr

/-- **Every turn keeps a state coherent.** -/
theorem turn {w : Outside} {s s' : State} {c : Call} {kinds : List EventKind} (h : s.Coherent)
    (ht : Turn w s c kinds s') : s'.Coherent := by
  cases ht with
  | ignored => exact h
  | scrolled => exact ⟨h.bookless, h.placed, h.cursor, h.menu, h.countdown⟩
  | nextLine _ hplan => exact h.nextLine hplan
  | menuOpened _ hplan _ => exact h.openMenu hplan
  | countdownStarted _ hplan => exact h.startCountdown hplan
  | entered _ _ hid => exact place hid
  | loaded _ _ _ => exact adopt s _
  | picked _ _ hnext => exact place hnext
  | ticked hr hlast => exact h.tick hr hlast
  | expired _ _ _ => exact h.cancel
  | defaulted _ _ _ _ hnext => exact place hnext

theorem of_run (calls : List (Outside × Call)) : (Session.initial.run calls).state.Coherent :=
  Session.run_induction (P := State.Coherent) _ (fun w c s h => h.turn (s.perform_turn w c))
    calls .initial

theorem line_isSome_iff {s : State} (h : s.Coherent) :
    (View.ofState s).line.isSome = true ↔
      ∃ screen, s.screen? = some screen ∧ screen.lines ≠ [] := by
  have hline : (View.ofState s).line =
      s.screen?.bind fun screen => screen.lines[s.dialogueIndex]? := rfl
  rw [hline]
  cases hscreen : s.screen? with
  | none => simp
  | some screen =>
    simp only [Option.bind_some, isSome_getElem?, Option.some.injEq, exists_eq_left', ne_eq,
      ← List.length_eq_zero_iff]
    constructor
    · intro hlt
      omega
    · intro hne
      rcases h.cursor_of_screen? hscreen with hzero | hlt
      · omega
      · exact hlt

end Coherent

end State

/-- **The parts of a reachable state fit together**, and a line is in view exactly when the
screen has lines. -/
theorem coherent_run (calls : List (Outside × Call)) :
    (Session.initial.run calls).state.Coherent ∧
      ((View.ofState (Session.initial.run calls).state).line.isSome = true ↔
        ∃ screen, (Session.initial.run calls).state.screen? = some screen ∧
          screen.lines ≠ []) := by
  have hcoherent := State.Coherent.of_run calls
  exact ⟨hcoherent, hcoherent.line_isSome_iff⟩

end Gamebook
