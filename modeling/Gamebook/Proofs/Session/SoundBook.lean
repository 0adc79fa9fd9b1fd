import Gamebook.Proofs.Book.Sound
import Gamebook.Proofs.Session.Expiry

/-!
# A sound book never strands its reader

`Session.Reads book s` says that `s` comes about by loading `book` and by calls
that leave it the active book.  Such a state is coherent, and if the book is
sound the active screen is one of the book's (`Reads.exists_screen`).  Every
reference that the reader can follow from there is one that the checks of the
book have followed: the options of the menu on the screen, the default of a
countdown, the next screen, the action and the buttons.
-/

namespace Gamebook

/-- The book was loaded, and the calls since have left it the active one. -/
inductive Session.Reads (book : Book) : Session → Prop
  | loaded (w : Outside) (s : Session) (c : Call)
      (hloaded : ∃ e ∈ s.recorded w c, e.kind.tag = .bookLoaded)
      (hbook : (s.perform w c).1.state.book = some book) : Reads book (s.perform w c).1
  | call (w : Outside) {s : Session} (c : Call) (h : Reads book s)
      (hbook : (s.perform w c).1.state.book = some book) : Reads book (s.perform w c).1

theorem Turn.exists_adopt {w : Outside} {s s' : State} {c : Call} {kinds : List EventKind}
    (ht : Turn w s c kinds s') (hloaded : ∃ kind ∈ kinds, kind.tag = .bookLoaded) :
    ∃ book, s' = s.adopt book := by
  have hnone (hall : kinds.all (·.tag ≠ .bookLoaded) = true) : False := by
    obtain ⟨kind, hkind, htag⟩ := hloaded
    have hother := List.all_eq_true.1 hall kind hkind
    exact of_decide_eq_true hother htag
  cases ht with
  | loaded => exact ⟨_, rfl⟩
  | _ => exact (hnone rfl).elim

namespace Session

namespace Reads

variable {book : Book} {s : Session}

theorem book_eq (h : s.Reads book) : s.state.book = some book := by
  cases h with
  | loaded w s c hloaded hbook => exact hbook
  | call w c h hbook => exact hbook

theorem coherent (h : s.Reads book) : s.state.Coherent := by
  induction h with
  | loaded w s c hloaded hbook =>
    obtain ⟨e, he, htag⟩ := hloaded
    obtain ⟨adopted, hadopted⟩ :=
      (s.perform_turn w c).exists_adopt ⟨e.kind, List.mem_map.2 ⟨e, he, rfl⟩, htag⟩
    rw [hadopted]
    exact .adopt s.state adopted
  | call w c h hbook ih => exact ih.turn (perform_turn w _ c)

theorem defines_eq (h : s.Reads book) (id : String) : s.state.defines id = book.contains id := by
  unfold State.defines
  rw [h.book_eq]

/-- **The active screen is one of the book's**, and as sound as the book. -/
theorem exists_screen (h : s.Reads book) (hsound : book.Sound) :
    ∃ screen, s.state.screen? = some screen ∧ screen.Sound book := by
  obtain ⟨id, hid, hplaced⟩ := h.coherent.placed book h.book_eq
  have hcontains : book.contains id = true := by
    rcases hplaced with hdefined | ⟨hdangling, rfl, _⟩
    · exact hdefined
    · rw [hsound.start] at hdangling
      nomatch hdangling
  obtain ⟨screen, hfound⟩ := Option.isSome_iff_exists.1 hcontains
  exact ⟨screen, State.screen?_eq_some_iff.2 ⟨book, id, h.book_eq, hid, hfound⟩,
    hsound.screen id screen hfound⟩

end Reads

/-! ### On a sound screen -/

variable {book : Book} {s : Session} {screen : Screen}

theorem mode_ne_none (hscreen : s.state.screen? = some screen) (hsound : screen.Sound book) :
    s.state.mode ≠ .none := by
  unfold State.mode
  split
  · nofun
  · split
    · nofun
    · rw [hscreen]
      have hkind := hsound.kind
      cases hk : screen.kind with
      | unknown => exact absurd hk hkind
      | _ => simp [Mode.ofScreen, ScreenKind.mode, hk]

/-- On a sound screen a timed mode means a timed menu, with the countdown running or not. -/
theorem exists_timedChoices (h : s.Reads book) (hscreen : s.state.screen? = some screen)
    (hsound : screen.Sound book) (hmode : s.state.mode = .timed) :
    ∃ t, screen.timedChoices = some t := by
  cases hrunning : s.state.countdown.running with
  | some r =>
    obtain ⟨_, screen', t, hscreen', _, _, ht, _⟩ := h.coherent.countdown r hrunning
    obtain rfl := Option.some.inj (hscreen.symm.trans hscreen')
    exact ⟨t, ht⟩
  | none =>
    have hidle : s.state.countdown.isRunning = false := by rw [Countdown.isRunning, hrunning]; rfl
    unfold State.mode at hmode
    rw [hidle, if_neg Bool.false_ne_true, hscreen] at hmode
    split at hmode
    · cases hmode
    · refine Option.isSome_iff_exists.1 (hsound.timed ?_)
      cases hk : screen.kind with
      | timed => rfl
      | _ => simp [Mode.ofScreen, ScreenKind.mode, hk] at hmode

theorem option?_choice (hscreen : s.state.screen? = some screen) (index : Nat) :
    s.state.option? index false = screen.choiceSet[index]? := by
  unfold State.option?
  rw [hscreen]
  rfl

theorem option?_timed (hscreen : s.state.screen? = some screen) {t : TimedChoices}
    (ht : screen.timedChoices = some t) (index : Nat) :
    s.state.option? index true = t.options[index]? := by
  unfold State.option? timedOption?
  rw [if_pos rfl, hscreen]
  simp [ht]

theorem exists_option_iff {options : List Choice} {defines : String → Bool}
    (hdefines : ∀ option ∈ options, defines option.next = true) (index : Nat) :
    (∃ option, options[index]? = some option ∧ defines option.next = true) ↔
      index < options.length := by
  constructor
  · rintro ⟨option, hoption, _⟩
    exact (List.getElem?_eq_some_iff.1 hoption).1
  · intro hindex
    exact ⟨options[index], List.getElem?_eq_getElem hindex,
      hdefines _ (List.getElem_mem hindex)⟩

theorem contains_of_leadsTo (hscreen : s.state.screen? = some screen)
    (hsound : screen.Sound book) {id : String}
    (hplan : (Plan.ofState s.state).leadsTo? = some id) : book.contains id = true := by
  cases hof : Plan.ofState s.state with
  | goTo target =>
    rw [hof] at hplan
    obtain rfl := Option.some.inj hplan
    obtain ⟨screen', hscreen', _, _, _, hafter⟩ := Plan.exists_screen_of_afterLines hof nofun nofun
    obtain rfl := Option.some.inj (hscreen.symm.trans hscreen')
    exact hsound.contains_of_next (Plan.afterLines_eq_goTo hafter)
  | dispatch action =>
    cases action with
    | navigate target =>
      rw [hof] at hplan
      obtain rfl := Option.some.inj hplan
      obtain ⟨screen', hscreen', _, _, _, hafter⟩ :=
        Plan.exists_screen_of_afterLines hof nofun nofun
      obtain rfl := Option.some.inj (hscreen.symm.trans hscreen')
      exact hsound.contains_of_action (Plan.afterLines_eq_navigate hafter)
    | _ => rw [hof] at hplan; nomatch hplan
  | _ => rw [hof] at hplan; nomatch hplan

/-! ### Moves to another screen -/

/-- The call moves to this screen: it is there, at the top, and nothing else was recorded. -/
def Enters (w : Outside) (s : Session) (c : Call) (id : String) : Prop :=
  (s.perform w c).2 = .ok true ∧ (s.perform w c).1.state = s.state.place id ∧
    (s.recorded w c).map (·.kind) = [.screenEntered id]

theorem enters_of_perform_eq {w : Outside} {c : Call} {id : String}
    (hid : s.state.defines id = true)
    (hperform : s.perform w c = ((s.beginCall.enter w id).1, .ok true)) : s.Enters w c id := by
  obtain ⟨hkinds, hstate⟩ := enter_of_defines w (s := s.beginCall) hid
  refine ⟨by rw [hperform], by rw [hperform]; exact hstate, map_kind_recorded ?_⟩
  rw [hperform]
  exact hkinds

theorem carryOut_enters {w : Outside} {id : String} {plan : Plan}
    (hplan : plan.leadsTo? = some id) :
    s.beginCall.carryOut w plan = ((s.beginCall.enter w id).1, .ok ()) := by
  cases plan with
  | goTo target =>
    obtain rfl := Option.some.inj hplan
    rfl
  | dispatch action =>
    cases action with
    | navigate target =>
      obtain rfl := Option.some.inj hplan
      rfl
    | _ => nomatch hplan
  | _ => nomatch hplan

theorem advance_enters {w : Outside} {i : Input} {id : String}
    (hi : i.action? s.state = some .advance)
    (hplan : (Plan.ofState s.state).leadsTo? = some id) (hid : s.state.defines id = true) :
    s.Enters w (.input i) id := by
  refine enters_of_perform_eq hid ?_
  change s.handle w i = _
  rw [handle_advance hi, carryOut_enters hplan]
  rfl

theorem press_enters {w : Outside} {index : Nat} {button : Element} {id : String}
    (hscreen : s.state.screen? = some screen) (hkind : screen.kind ≠ .unknown)
    (hbutton : screen.buttons[index]? = some button)
    (haction : button.action = some (.navigate id)) (hid : s.state.defines id = true) :
    s.Enters w (.input (.press index)) id := by
  have hpressed : buttonAction? s.state index = some (.navigate id) := by
    unfold buttonAction?
    simp [hscreen, hkind, hbutton, haction]
  refine enters_of_perform_eq hid ?_
  exact handle_of_action (i := .press index) hpressed nofun

/-- **A countdown on a sound screen that expires** enters the screen of its default option. -/
theorem exists_expiry (h : s.Reads book) (hscreen : s.state.screen? = some screen)
    (hsound : screen.Sound book) (w : Outside) {owner : String} {defaultIndex : Nat}
    (hexpires : s.state.countdown.tick.2 = .expired owner defaultIndex) :
    ∃ option, s.state.option? defaultIndex true = some option ∧
      (s.perform w .tick).1.state = s.state.place option.next ∧
      (s.recorded w .tick).map (·.kind) = [.countdownExpired owner defaultIndex,
        .choiceMade owner defaultIndex option.next true, .screenEntered option.next] := by
  obtain ⟨r, hr, hlast, rfl, rfl⟩ := Countdown.tick_eq_expired_iff.1 hexpires
  obtain ⟨howner, screen', t, hscreen', _, _, ht, _, hdefault, _⟩ := h.coherent.countdown r hr
  obtain rfl := Option.some.inj (hscreen.symm.trans hscreen')
  have hrange := hsound.defaultIndex t ht
  rw [← hdefault] at hrange
  have hoption := (option?_timed hscreen ht r.defaultIndex).trans (List.getElem?_eq_getElem hrange)
  have hnext : s.state.defines t.options[r.defaultIndex].next = true := by
    rw [h.defines_eq]
    exact hsound.contains_of_option ht (List.getElem_mem hrange)
  obtain ⟨hstate, hkinds⟩ := tick_of_default (w := w) hr howner hlast hoption hnext
  exact ⟨_, hoption, hstate, map_kind_recorded hkinds⟩

end Session

open Session in
/-- **A sound book never strands its reader.**  While a book with no issues is read, there is an
active screen and something to show; each option of the menu on it can be picked, and nothing but
these; a countdown that expires enters the screen of its default option, and so do an advance that
is to move on and a button that leads somewhere. -/
theorem sound_book_never_strands {book : Book} (hissues : book.issues = []) {s : Session}
    (h : s.Reads book) (w : Outside) :
    ∃ screen, s.state.screen? = some screen ∧ s.state.mode ≠ .none ∧
      (s.state.mode = .choice →
        ∀ index, (s.choose w index).2 = true ↔ index < screen.choiceSet.length) ∧
      (s.state.mode = .timed → ∃ t, screen.timedChoices = some t ∧
        ∀ index, (s.chooseTimed w index).2 = true ↔ index < t.options.length) ∧
      (∀ owner defaultIndex, s.state.countdown.tick.2 = .expired owner defaultIndex →
        ∃ option, s.state.option? defaultIndex true = some option ∧
          (s.perform w .tick).1.state = s.state.place option.next ∧
          (s.recorded w .tick).map (·.kind) = [.countdownExpired owner defaultIndex,
            .choiceMade owner defaultIndex option.next true, .screenEntered option.next]) ∧
      (∀ i id, i.action? s.state = some .advance → (Plan.ofState s.state).leadsTo? = some id →
        s.Enters w (.input i) id) ∧
      ∀ index button id, screen.buttons[index]? = some button →
        button.action = some (.navigate id) → s.Enters w (.input (.press index)) id := by
  obtain ⟨screen, hscreen, hsound⟩ := h.exists_screen (Book.sound_of_issues hissues)
  refine ⟨screen, hscreen, mode_ne_none hscreen hsound, fun hmode index => ?_, fun hmode => ?_,
    fun owner defaultIndex hexpires => exists_expiry h hscreen hsound w hexpires,
    fun i id hi hplan => ?_, fun index button id hbutton haction => ?_⟩
  · rw [choose_answer_iff, and_iff_right hmode, option?_choice hscreen]
    refine exists_option_iff (fun option hoption => ?_) index
    rw [h.defines_eq]
    exact hsound.contains_of_choiceSet hoption
  · obtain ⟨t, ht⟩ := exists_timedChoices h hscreen hsound hmode
    refine ⟨t, ht, fun index => ?_⟩
    rw [chooseTimed_answer_iff, and_iff_right hmode, option?_timed hscreen ht]
    refine exists_option_iff (fun option hoption => ?_) index
    rw [h.defines_eq]
    exact hsound.contains_of_option ht hoption
  · refine advance_enters hi hplan ?_
    rw [h.defines_eq]
    exact contains_of_leadsTo hscreen hsound hplan
  · refine press_enters hscreen hsound.kind hbutton haction ?_
    rw [h.defines_eq]
    have hbuttons := List.mem_of_getElem? hbutton
    exact hsound.contains_of_element (List.mem_filter.1 hbuttons).1 haction

/-- A call that loads a book with no issues begins its reading. -/
theorem Session.exists_reads {w : Outside} {s : Session} {c : Call}
    (hloaded : .bookLoaded ∈ (s.recorded w c).map (·.kind.tag))
    (hissues : (s.perform w c).1.state.book.map Book.issues = some []) :
    ∃ book, book.issues = [] ∧ (s.perform w c).1.Reads book := by
  obtain ⟨book, hbook, hclean⟩ := Option.map_eq_some_iff.1 hissues
  obtain ⟨e, he, htag⟩ := List.mem_map.1 hloaded
  exact ⟨book, hclean, .loaded w s c ⟨e, he, htag⟩ hbook⟩

def loadDoor : Call := .input (.load "door.yaml")

/-- The session that has just read the book of the door. -/
def loadedAtDoor : Session := (Session.initial.perform atDoor loadDoor).1

/-- The book of the door has no issues, and its one option can be picked. -/
theorem sound_book_at_door :
    ∃ book : Book, book.issues = [] ∧ loadedAtDoor.Reads book ∧
      ∀ index, (loadedAtDoor.chooseTimed atDoor index).2 = true ↔ index < 1 := by
  have hfacts : .bookLoaded ∈ (Session.initial.recorded atDoor loadDoor).map (·.kind.tag) ∧
      loadedAtDoor.state.book.map Book.issues = some [] ∧ loadedAtDoor.state.mode = .timed ∧
      (loadedAtDoor.state.screen?.bind (·.timedChoices)).map (·.options.length) = some 1 := by
    decide +kernel
  obtain ⟨htags, hbooks, hmode, hlength⟩ := hfacts
  obtain ⟨book, hissues, hreads⟩ : ∃ book, book.issues = [] ∧ loadedAtDoor.Reads book :=
    Session.exists_reads htags hbooks
  obtain ⟨screen, hscreen, _, _, htimed, _⟩ := sound_book_never_strands hissues hreads atDoor
  obtain ⟨t, ht, hanswers⟩ := htimed hmode
  rw [hscreen, Option.bind_some, ht, Option.map_some] at hlength
  refine ⟨book, hissues, hreads, fun index => ?_⟩
  rw [hanswers index, Option.some.inj hlength]

end Gamebook
