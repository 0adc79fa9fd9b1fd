import Gamebook.Proofs.Session.Menu

/-!
# Whether a menu waits for a pick

A plain menu shows its next line, is presented again, or leaves the session as
it is when the reader asks to advance (`Session.AwaitsPick`), as long as what is
planned is none of the ways out of a screen (`Plan.Stays`, `awaitsPick_iff`).
On a screen that declares its choices no way out is planned.  But a `choices`
screen may have its options from its buttons instead, and plans pass these over:
after its last line it starts a countdown, loads a book or moves on like any
other screen.

`menu_awaits_pick_iff` says on which screens a menu waits, and
`menu_of_buttons_passed_over` has one that does not.
-/

namespace Gamebook

/-- The screen that is moved to after the last line, if no menu, countdown or book is. -/
def Screen.onward? (screen : Screen) : Option String :=
  match screen.action with
  | some (.navigate id) => some id
  | _ => screen.next

namespace Plan

/-- A plan that does not lead out of the screen: there is no countdown, no book and no other screen
to it. -/
def Stays (s : State) : Plan → Prop
  | nextLine => True
  | openChoices => True
  | startCountdown _ => False
  | dispatch (.navigate id) => s.defines id = false
  | dispatch (.loadBook _) => False
  | dispatch .advance => True
  | goTo id => s.defines id = false
  | stay => True

theorem stays_afterLines_iff (s : State) (screen : Screen) :
    (afterLines screen).Stays s ↔ screen.choices.isSome = true ∨
      screen.timedChoices = none ∧ (∀ path, screen.action ≠ some (.loadBook path)) ∧
        ∀ id, screen.onward? = some id → s.defines id = false := by
  unfold afterLines Screen.onward?
  cases screen.choices with
  | some choices => simp [Stays]
  | none =>
    cases screen.timedChoices with
    | some t => simp [Stays]
    | none =>
      cases screen.action with
      | none => cases screen.next <;> simp [Stays]
      | some action =>
        cases action with
        | navigate id => simp [Stays]
        | loadBook path => simp [Stays]
        | advance => cases screen.next <;> simp [Stays]

end Plan

namespace Session

variable {w : Outside} {s : Session} {i : Input}

theorem fetched_swapIn (w : Outside) (locator : String) (s : Session) :
    (s.swapIn w locator).1.fetched = s.fetched ++ [locator] := by
  unfold swapIn
  cases w.fetch locator with
  | error e => rfl
  | ok text =>
    dsimp only
    cases Book.decode locator text with
    | error e => rfl
    | ok book => rfl

/-- The input leaves the menu where it is: at most the next line is shown, or the menu again. -/
structure AwaitsPick (w : Outside) (i : Input) (s : Session) : Prop where
  screenId : (s.perform w (.input i)).1.state.screenId = s.state.screenId
  book : (s.perform w (.input i)).1.state.book = s.state.book
  mode : (s.perform w (.input i)).1.state.mode = .choice
  idle : (s.perform w (.input i)).1.state.countdown.running = none
  fetched : (s.perform w (.input i)).1.fetched = s.fetched
  shows : (s.recorded w (.input i)).map (·.kind) = [] ∨
    (s.recorded w (.input i)).map (·.kind) =
      [.dialogueAdvanced s.state.activeId (s.state.dialogueIndex + 1)] ∨
    ∃ count, (s.recorded w (.input i)).map (·.kind) = [.choicesPresented s.state.activeId count]

theorem running_of_mode_choice (hmode : s.state.mode = .choice) :
    s.state.countdown.running = none := by
  cases hrunning : s.state.countdown.running with
  | none => rfl
  | some r => simp [State.mode, Countdown.isRunning, hrunning] at hmode

theorem awaitsPick_of_unchanged (hmode : s.state.mode = .choice)
    (h : (s.perform w (.input i)).1 = s.beginCall) : s.AwaitsPick w i where
  screenId := by rw [h]; rfl
  book := by rw [h]; rfl
  mode := by rw [h]; exact hmode
  idle := by rw [h]; exact running_of_mode_choice hmode
  fetched := by rw [h]; rfl
  shows := by
    refine Or.inl (map_kind_recorded ?_)
    rw [h]
    exact (List.append_nil _).symm

theorem awaitsPick_enter_iff (hmode : s.state.mode = .choice) {id : String}
    (h : (s.perform w (.input i)).1 = (s.beginCall.enter w id).1) :
    s.AwaitsPick w i ↔ s.state.defines id = false := by
  cases hid : s.state.defines id with
  | false =>
    rw [enter_of_not_defines w (s := s.beginCall) hid] at h
    exact iff_of_true (awaitsPick_of_unchanged hmode h) rfl
  | true =>
    obtain ⟨hkinds, _⟩ := enter_of_defines w (s := s.beginCall) hid
    rw [← h] at hkinds
    have hentered : (s.recorded w (.input i)).map (·.kind) = [.screenEntered id] :=
      map_kind_recorded hkinds
    refine iff_of_false (fun hawaits => ?_) (by simp)
    have hshows := hawaits.shows
    simp [hentered] at hshows

/-- **A menu waits for a pick just as long as the plan stays.** -/
theorem awaitsPick_iff (hi : i.action? s.state = some .advance) (hmode : s.state.mode = .choice) :
    s.AwaitsPick w i ↔ (Plan.ofState s.state).Stays s.state := by
  have hperform : (s.perform w (.input i)).1 =
      (s.beginCall.carryOut w (Plan.ofState s.state)).1 :=
    congrArg Prod.fst (handle_advance hi)
  have hidle := running_of_mode_choice hmode
  cases hplan : Plan.ofState s.state with
  | nextLine =>
    rw [hplan] at hperform
    refine iff_of_true ⟨?_, ?_, ?_, ?_, ?_, ?_⟩ trivial
    · rw [hperform]; rfl
    · rw [hperform]; rfl
    · rw [hperform]; exact hmode
    · rw [hperform]; exact hidle
    · rw [hperform]; rfl
    · refine Or.inr (Or.inl (map_kind_recorded ?_))
      rw [hperform]
      exact kinds_record ..
  | openChoices =>
    rw [hplan] at hperform
    refine iff_of_true ⟨?_, ?_, ?_, ?_, ?_, ?_⟩ trivial
    · rw [hperform]; rfl
    · rw [hperform]; rfl
    · rw [hperform]
      simp [carryOut, record, State.mode, Countdown.isRunning, hidle]
    · rw [hperform]; exact hidle
    · rw [hperform]; rfl
    · have hkinds := congrArg kinds hperform
      exact Or.inr (Or.inr ⟨_, map_kind_recorded (hkinds.trans (kinds_record ..))⟩)
  | startCountdown t =>
    rw [hplan] at hperform
    refine iff_of_false (fun hawaits => ?_) id
    have hrunning := hawaits.idle
    rw [hperform] at hrunning
    cases hrunning
  | goTo id =>
    rw [hplan] at hperform
    exact awaitsPick_enter_iff hmode hperform
  | stay =>
    rw [hplan] at hperform
    exact iff_of_true (awaitsPick_of_unchanged hmode hperform) trivial
  | dispatch action =>
    rw [hplan] at hperform
    cases action with
    | navigate id => exact awaitsPick_enter_iff hmode hperform
    | advance => exact iff_of_true (awaitsPick_of_unchanged hmode hperform) trivial
    | loadBook path =>
      refine iff_of_false (fun hawaits => ?_) id
      have hfetched := hawaits.fetched
      rw [hperform] at hfetched
      have hnoted := fetched_swapIn w path s.beginCall
      exact List.cons_ne_nil path [] (List.append_right_eq_self.1 (hnoted.symm.trans hfetched))

end Session

/-! ### On which screens a menu waits -/

/-- In a menu the plan is the next line of a screen, or what comes after its lines. -/
theorem Plan.ofState_of_mode_choice {s : State} {screen : Screen} (h : s.Coherent)
    (hscreen : s.screen? = some screen) (hmode : s.mode = .choice) :
    ofState s =
      if s.dialogueIndex + 1 < screen.lines.length then nextLine else afterLines screen := by
  have hidle : s.countdown.isRunning = false := by
    cases hrunning : s.countdown.isRunning with
    | false => rfl
    | true => simp [State.mode, hrunning] at hmode
  have hkind : screen.kind ≠ .unknown := by
    rcases State.menuOpen_or_kind hscreen hmode with hopen | hkind
    · obtain ⟨_, screen', hscreen', hkind, _⟩ := h.menu hopen
      rwa [Option.some.inj (hscreen.symm.trans hscreen')]
    · simp [hkind]
  unfold ofState
  simp [hscreen, hkind, hidle]

/-- **The menus that wait for a pick.**  Asked to advance, a plain menu stays in view as long as
there are lines left or the screen declares its choices.  With options from its buttons alone it
stays only if the screen has no countdown, asks for no book, and has no other screen to move to. -/
theorem menu_awaits_pick_iff (calls : List (Outside × Call)) (w : Outside) {i : Input}
    {screen : Screen} (hscreen : (Session.initial.run calls).state.screen? = some screen)
    (hmode : (Session.initial.run calls).state.mode = .choice)
    (hi : i.action? (Session.initial.run calls).state = some .advance) :
    (Session.initial.run calls).AwaitsPick w i ↔
      (Session.initial.run calls).state.dialogueIndex + 1 < screen.lines.length ∨
        screen.choices.isSome = true ∨
        screen.timedChoices = none ∧ (∀ path, screen.action ≠ some (.loadBook path)) ∧
          ∀ id, screen.onward? = some id →
            (Session.initial.run calls).state.defines id = false := by
  have hcoherent := State.Coherent.of_run calls
  rw [Session.awaitsPick_iff hi hmode, Plan.ofState_of_mode_choice hcoherent hscreen hmode]
  split <;> rename_i hmore
  · exact iff_of_true trivial (Or.inl hmore)
  · rw [or_iff_right hmore]
    exact Plan.stays_afterLines_iff _ screen

/-- An inn whose one choice is declared. -/
def innText : String :=
  "start: inn\nscreens:\n inn:\n  type: choices\n  choices:\n  - text: Stay\n    next: inn\n"

def atInn : Outside := ⟨fun _ => .ok innText, 0⟩

/-- The inn waits. -/
theorem inn_awaits_pick :
    let calls := [(atInn, .input (.load "inn.yaml"))]
    (Session.initial.run calls).state.mode = .choice ∧
      (Session.initial.run calls).AwaitsPick atInn .advance := by
  intro calls
  have hfacts : (Session.initial.run calls).state.mode = .choice ∧
      (Session.initial.run calls).state.screen?.map (·.choices.isSome) = some true := by
    decide +kernel
  obtain ⟨hmode, hscreens⟩ := hfacts
  obtain ⟨screen, hscreen, hchoices⟩ := Option.map_eq_some_iff.1 hscreens
  exact ⟨hmode, (menu_awaits_pick_iff calls atInn hscreen hmode rfl).2 (Or.inr (Or.inl hchoices))⟩

/-- A hub whose one choice is a button, with a road onward. -/
def hubText : String :=
  "start: hub\nscreens:\n hub:\n  type: choices\n  next: road\n  elements:\n" ++
    "  - type: button\n    text: Stay\n    action:\n     type: navigate\n     screen: hub\n" ++
    " road:\n  type: ui\n"

def atHub : Outside := ⟨fun _ => .ok hubText, 0⟩

/-- The hub does not wait: it shows a menu with an option, and advancing takes the road. -/
theorem menu_of_buttons_passed_over :
    let calls := [(atHub, .input (.load "hub.yaml"))]
    (Session.initial.run calls).state.mode = .choice ∧
      (Session.initial.run calls).state.screen?.map (·.choiceSet) = some [⟨"Stay", "hub"⟩] ∧
      (Session.initial.run calls).state.screenId = some "hub" ∧
      ((Session.initial.run calls).perform atHub (.input .advance)).1.state.screenId =
        some "road" ∧
      ((Session.initial.run calls).perform atHub (.input .advance)).1.state.mode = .ui ∧
      ¬(Session.initial.run calls).AwaitsPick atHub .advance := by
  intro calls
  have hfacts : (Session.initial.run calls).state.mode = .choice ∧
      (Session.initial.run calls).state.screen?.map (·.choiceSet) = some [⟨"Stay", "hub"⟩] ∧
      (Session.initial.run calls).state.screenId = some "hub" ∧
      ((Session.initial.run calls).perform atHub (.input .advance)).1.state.screenId =
        some "road" ∧
      ((Session.initial.run calls).perform atHub (.input .advance)).1.state.mode = .ui := by
    decide +kernel
  obtain ⟨hmode, hset, hid, hmoved, hshown⟩ := hfacts
  refine ⟨hmode, hset, hid, hmoved, hshown, fun hawaits => ?_⟩
  have hmode' := hawaits.mode
  rw [hshown] at hmode'
  nomatch hmode'

end Gamebook
