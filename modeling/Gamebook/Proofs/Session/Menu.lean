import Gamebook.Proofs.Session.Replay
import Gamebook.Proofs.Session.SoundBook

/-!
# What a menu offers

`State.offered` are the options that the view lists and that picks are made
from, in either mode.  In a sound book they are there, with one exception: a
screen of any kind may declare choices and then open a menu of them after its
last line, but only on a `choices` screen do the checks look whether there are
any (`Screen.EmptyMenu`).

`menu_empty_iff` says that nothing else leaves a reader before an empty menu,
and `clean_book_with_empty_menu` is a book where this happens.
-/

namespace Gamebook

/-! ### Options on offer -/

/-- The options that the state offers, of the menu that its mode shows. -/
def State.offered (s : State) : List Choice :=
  (s.screen?.map fun screen => screen.offered s.mode).getD []

theorem State.offered_eq {s : State} {screen : Screen} (hscreen : s.screen? = some screen) :
    s.offered = screen.offered s.mode := by
  simp [offered, hscreen]

theorem View.choices_ofState (s : State) : (ofState s).choices = s.offered.map (·.text) := by
  unfold ofState State.offered
  cases s.screen? with
  | none => rfl
  | some screen => rfl

theorem State.offered_eq_nil {s : State} (hchoice : s.mode ≠ .choice) (htimed : s.mode ≠ .timed) :
    s.offered = [] := by
  unfold offered
  cases s.screen? with
  | none => rfl
  | some screen =>
    cases hmode : s.mode with
    | choice => exact absurd hmode hchoice
    | timed => exact absurd hmode htimed
    | _ => rfl

section Lookup

variable {s : State} (index : Nat)

theorem State.offered_getElem?_choice (hmode : s.mode = .choice) :
    s.offered[index]? = s.option? index false := by
  unfold offered option?
  cases s.screen? with
  | none => rfl
  | some screen => simp [hmode, Screen.offered]

theorem State.offered_getElem?_timed (hmode : s.mode = .timed) :
    s.offered[index]? = s.option? index true := by
  unfold offered option? Session.timedOption?
  cases s.screen? with
  | none => rfl
  | some screen =>
    cases ht : screen.timedChoices with
    | none => simp [hmode, Screen.offered, ht]
    | some t => simp [hmode, Screen.offered, ht]

end Lookup

theorem State.offered_getElem?_of_pick {s : State} {i : Input} {index : Nat} {timed : Bool}
    (hi : i.pick? s = some (index, timed)) : s.offered[index]? = s.option? index timed := by
  have hmode := Input.mode_of_pick hi
  cases timed with
  | false => exact offered_getElem?_choice index hmode
  | true => exact offered_getElem?_timed index hmode

theorem Screen.offered_timed {screen : Screen} {t : TimedChoices}
    (ht : screen.timedChoices = some t) : screen.offered .timed = t.options := by
  simp [offered, ht]

theorem State.menuOpen_or_kind {s : State} {screen : Screen} (hscreen : s.screen? = some screen)
    (hmode : s.mode = .choice) : s.menuOpen = true ∨ screen.kind = .choices := by
  unfold mode at hmode
  rw [hscreen] at hmode
  by_cases hrunning : s.countdown.isRunning = true
  · simp [hrunning] at hmode
  · by_cases hopen : s.menuOpen = true
    · exact Or.inl hopen
    · refine Or.inr ?_
      simp only [hrunning, hopen, Bool.false_eq_true, if_false, Mode.ofScreen] at hmode
      cases hkind : screen.kind with
      | choices => rfl
      | _ => simp [hkind, ScreenKind.mode] at hmode

/-! ### Menus without options -/

/-- The screen declares a menu without options, and is not of the kind whose menu is checked. -/
def Screen.EmptyMenu (screen : Screen) : Prop :=
  screen.kind ≠ .choices ∧ screen.choices = some []

theorem Screen.choiceSet_of_choices {screen : Screen} {choices : List Choice}
    (h : screen.choices = some choices) : screen.choiceSet = choices := by
  simp [choiceSet, h]

/-- On a sound screen that declares choices only an unchecked menu is empty. -/
theorem Screen.Sound.choiceSet_eq_nil_iff {screen : Screen} {b : Book} (h : screen.Sound b)
    (hchoices : screen.choices.isSome = true) : screen.choiceSet = [] ↔ screen.EmptyMenu := by
  obtain ⟨choices, hsome⟩ := Option.isSome_iff_exists.1 hchoices
  constructor
  · intro hnil
    have hkind : screen.kind ≠ .choices := fun hkind => h.choices hkind hnil
    rw [Screen.choiceSet_of_choices hsome] at hnil
    exact ⟨hkind, by rw [hsome, hnil]⟩
  · intro hempty
    exact Screen.choiceSet_of_choices hempty.2

theorem Screen.Sound.options_ne_nil {screen : Screen} {b : Book} (h : screen.Sound b)
    {t : TimedChoices} (ht : screen.timedChoices = some t) : t.options ≠ [] := by
  have hdefault := h.defaultIndex t ht
  intro hnil
  simp [hnil] at hdefault

namespace Session

variable {book : Book} {s : Session} {screen : Screen}

theorem choiceSet_eq_nil_iff (h : s.Reads book) (hscreen : s.state.screen? = some screen)
    (hsound : screen.Sound book) (hmode : s.state.mode = .choice) :
    screen.choiceSet = [] ↔ screen.EmptyMenu := by
  rcases State.menuOpen_or_kind hscreen hmode with hopen | hkind
  · have hchoices := (h.coherent.menu_of_screen? hscreen hopen).1
    exact hsound.choiceSet_eq_nil_iff hchoices
  · constructor
    · intro hnil
      exact absurd hnil (hsound.choices hkind)
    · intro hempty
      exact absurd hkind hempty.1

/-- What a sound book offers in a mode that shows a menu. -/
theorem offered_eq_nil_iff (h : s.Reads book) (hscreen : s.state.screen? = some screen)
    (hsound : screen.Sound book) (hmode : s.state.mode = .choice ∨ s.state.mode = .timed) :
    s.state.offered = [] ↔ s.state.mode = .choice ∧ screen.EmptyMenu := by
  rw [State.offered_eq hscreen]
  rcases hmode with hchoice | htimed
  · rw [hchoice]
    have hset := choiceSet_eq_nil_iff h hscreen hsound hchoice
    exact hset.trans (and_iff_right rfl).symm
  · obtain ⟨t, ht⟩ := exists_timedChoices h hscreen hsound htimed
    rw [htimed, Screen.offered_timed ht]
    have hoptions := hsound.options_ne_nil ht
    simp [hoptions]

end Session

theorem Turn.exists_presented {w : Outside} {s s' : State} {c : Call} {kinds : List EventKind}
    {id : String} {count : Nat} (ht : Turn w s c kinds s')
    (hmem : .choicesPresented id count ∈ kinds) :
    ∃ screen, s.screen? = some screen ∧ screen.choices.isSome = true ∧
      count = screen.choiceSet.length := by
  cases ht with
  | menuOpened _ hplan hscreen =>
    obtain ⟨screen, hscreen', _, _, _, hafter⟩ := Plan.exists_screen_of_afterLines hplan nofun nofun
    obtain rfl := Option.some.inj (hscreen'.symm.trans hscreen)
    obtain ⟨_, hcount⟩ := EventKind.choicesPresented.inj (List.mem_singleton.1 hmem)
    exact ⟨screen, hscreen, Plan.afterLines_eq_openChoices hafter, hcount⟩
  | _ => simp at hmem

open Session in
/-- **A book with no issues shows an empty menu only where no check looks.**  While it is read, a
mode that shows a menu lists options and every menu presented counts some, unless the screen is of
another kind than `choices` and declares a list of choices that is empty; and there the menu is
empty indeed. -/
theorem menu_empty_iff {book : Book} (hissues : book.issues = []) {s : Session}
    (h : s.Reads book) (w : Outside) :
    ∃ screen, s.state.screen? = some screen ∧
      (s.state.mode = .choice ∨ s.state.mode = .timed →
        ((View.ofState s.state).choices = [] ↔ s.state.mode = .choice ∧ screen.EmptyMenu)) ∧
      ∀ c id count, .choicesPresented id count ∈ (s.recorded w c).map (·.kind) →
        (count = 0 ↔ screen.EmptyMenu) := by
  obtain ⟨screen, hscreen, hsound⟩ := h.exists_screen (Book.sound_of_issues hissues)
  refine ⟨screen, hscreen, fun hmode => ?_, fun c id count hmem => ?_⟩
  · rw [View.choices_ofState, List.map_eq_nil_iff]
    exact offered_eq_nil_iff h hscreen hsound hmode
  · obtain ⟨presented, hpresented, hchoices, rfl⟩ := (s.perform_turn w c).exists_presented hmem
    obtain rfl := Option.some.inj (hscreen.symm.trans hpresented)
    rw [List.length_eq_zero_iff]
    exact hsound.choiceSet_eq_nil_iff hchoices

/-! ### Two books -/

/-- At the door the options are listed. -/
theorem menu_at_door :
    ∃ book : Book, book.issues = [] ∧ loadedAtDoor.Reads book ∧ loadedAtDoor.state.mode = .timed ∧
      (View.ofState loadedAtDoor.state).choices ≠ [] := by
  have hfacts : .bookLoaded ∈ (Session.initial.recorded atDoor loadDoor).map (·.kind.tag) ∧
      loadedAtDoor.state.book.map Book.issues = some [] ∧ loadedAtDoor.state.mode = .timed := by
    decide +kernel
  obtain ⟨hloaded, hissues, hmode⟩ := hfacts
  obtain ⟨book, hclean, hreads⟩ : ∃ book, book.issues = [] ∧ loadedAtDoor.Reads book :=
    Session.exists_reads hloaded hissues
  refine ⟨book, hclean, hreads, hmode, fun hnil => ?_⟩
  obtain ⟨screen, _, hempty, _⟩ := menu_empty_iff hclean hreads atDoor
  have hchoice := ((hempty (Or.inr hmode)).1 hnil).1
  rw [hmode] at hchoice
  nomatch hchoice

/-- A hall that is no `choices` screen and declares no choices to make. -/
def hallText : String := "start: hall\nscreens:\n  hall:\n    type: dialogue\n    choices: []\n"

def inHall : Outside := ⟨fun _ => .ok hallText, 0⟩

def loadHall : Call := .input (.load "hall.yaml")

/-- The session that has just read the book of the hall. -/
def loadedInHall : Session := (Session.initial.perform inHall loadHall).1

/-- A book with no issues can show an empty menu: one step into the hall presents it. -/
theorem clean_book_with_empty_menu :
    let stepped := (loadedInHall.perform inHall (.input .advance)).1
    ∃ book : Book, book.issues = [] ∧ loadedInHall.Reads book ∧
      loadedInHall.state.mode = .dialogue ∧
      (loadedInHall.recorded inHall (.input .advance)).map (·.kind) =
        [.choicesPresented "hall" 0] ∧
      stepped.Reads book ∧ stepped.state.mode = .choice ∧
      (View.ofState stepped.state).choices = [] := by
  intro stepped
  have hfacts : .bookLoaded ∈ (Session.initial.recorded inHall loadHall).map (·.kind.tag) ∧
      loadedInHall.state.book.map Book.issues = some [] ∧ loadedInHall.state.mode = .dialogue ∧
      (loadedInHall.recorded inHall (.input .advance)).map (·.kind) =
        [.choicesPresented "hall" 0] ∧
      stepped.state.mode = .choice ∧ (View.ofState stepped.state).choices = [] := by
    decide +kernel
  obtain ⟨hloaded, hissues, hmode, hpresented, hchoice, hnil⟩ := hfacts
  obtain ⟨book, hclean, hreads⟩ : ∃ book, book.issues = [] ∧ loadedInHall.Reads book :=
    Session.exists_reads hloaded hissues
  have hbook : stepped.state.book = some book := by
    rcases (loadedInHall.perform_turn inHall (.input .advance)).book_eq with
      hkept | ⟨kind, hkind, htag⟩
    · exact hkept.trans hreads.book_eq
    · rw [hpresented, List.mem_singleton] at hkind
      subst hkind
      nomatch htag
  exact ⟨book, hclean, hreads, hmode, hpresented, .call inHall _ hreads hbook, hchoice, hnil⟩

end Gamebook
