import Gamebook.Proofs.Session.Coherence

/-!
# Nothing happens on an inert screen

A state is inert if it has no screen of a known kind: there is no book, the book
does not have the screen, or the kind of the screen is unknown.  Nothing is then
planned and no button does anything, whatever the screen declares.  Picks and
ticks need more: that no menu is open there and no countdown runs, which holds of
the states that can be reached (`Coherent.idle_of_inert`,
`Coherent.mode_of_inert`).

So what a reader can do but move elsewhere, scroll or load a book
(`Call.nudges`) leaves an inert session as it is (`perform_of_inert`), any number
of times (`inert_screen_stays`).
-/

namespace Gamebook

/-! ### Inert states -/

/-- There is no screen of a known kind. -/
def State.Inert (s : State) : Prop := ∀ screen, s.screen? = some screen → screen.kind = .unknown

namespace State

variable {s : State}

theorem inert_iff :
    s.Inert ↔ s.book = none ∨ s.screen? = none ∨
      ∃ screen, s.screen? = some screen ∧ screen.kind = .unknown := by
  constructor
  · intro h
    cases hscreen : s.screen? with
    | none => exact Or.inr (Or.inl rfl)
    | some screen => exact Or.inr (Or.inr ⟨screen, rfl, h screen hscreen⟩)
  · intro h screen hscreen
    rcases h with hbook | hnone | ⟨unknown, hunknown, hkind⟩
    · obtain ⟨book, _, hsome, _⟩ := screen?_eq_some_iff.1 hscreen
      rw [hbook] at hsome
      nomatch hsome
    · rw [hnone] at hscreen
      nomatch hscreen
    · rw [hscreen] at hunknown
      obtain rfl := Option.some.inj hunknown
      exact hkind

theorem Inert.plan_eq_stay (h : s.Inert) : Plan.ofState s = .stay := by
  by_cases hplan : Plan.ofState s = .stay
  · exact hplan
  · obtain ⟨screen, hscreen, hkind, _⟩ := Plan.exists_screen hplan
    exact absurd (h screen hscreen) hkind

theorem Inert.buttonAction?_eq_none (h : s.Inert) (index : Nat) :
    Session.buttonAction? s index = none := by
  unfold Session.buttonAction?
  cases hscreen : s.screen? with
  | none => rfl
  | some screen => simp [h screen hscreen]

namespace Coherent

/-- No countdown runs: one that runs belongs to a screen of a known kind. -/
theorem idle_of_inert (h : s.Coherent) (hinert : s.Inert) : s.countdown.running = none := by
  cases hr : s.countdown.running with
  | none => rfl
  | some r =>
    obtain ⟨_, screen, _, hscreen, hkind, _⟩ := h.countdown r hr
    exact absurd (hinert screen hscreen) hkind

/-- Nothing is shown: neither a countdown nor an open menu, and the kind of the screen is none. -/
theorem mode_of_inert (h : s.Coherent) (hinert : s.Inert) : s.mode = .none := by
  have hidle := h.idle_of_inert hinert
  have hmenu : s.menuOpen = false := by
    cases hopen : s.menuOpen with
    | false => rfl
    | true =>
      obtain ⟨_, screen, hscreen, hkind, _⟩ := h.menu hopen
      exact absurd (hinert screen hscreen) hkind
  have hshown : Mode.ofScreen s.screen? = .none := by
    cases hscreen : s.screen? with
    | none => rfl
    | some screen => simp [Mode.ofScreen, hinert screen hscreen, ScreenKind.mode]
  simp [mode, Countdown.isRunning, hidle, hmenu, hshown]

theorem view_of_inert (h : s.Coherent) (hinert : s.Inert) :
    (View.ofState s).mode = .none ∧ (View.ofState s).choices = [] ∧
      (View.ofState s).timeRemaining = none := by
  have hmode := h.mode_of_inert hinert
  refine ⟨hmode, ?_, ?_⟩
  · unfold View.ofState
    cases s.screen? with
    | none => rfl
    | some screen => simp [hmode, Screen.offered]
  · simp [View.ofState, h.idle_of_inert hinert]

end Coherent

end State

/-! ### Calls that change nothing there -/

/-- Whether an input asks to go on from where the reader is, by whatever there is to go on with. -/
def Input.nudges : Input → Bool
  | advance | runAction .advance | press _ | select _ | choose _ | chooseTimed _ => true
  | _ => false

def Call.nudges : Call → Bool
  | input i => i.nudges
  | tick => true

namespace Session

variable {w : Outside} {s : Session}

theorem handle_advance_of_inert (hinert : s.state.Inert) {i : Input}
    (hi : i.action? s.state = some .advance) : s.handle w i = (s.beginCall, .ok true) := by
  rw [handle_advance hi, hinert.plan_eq_stay]
  rfl

theorem handle_pick_of_inert (h : s.state.Coherent) (hinert : s.state.Inert) {i : Input}
    (hpicks : i.picks = true) : ∃ call, s.handle w i = ({ s with call }, .ok false) := by
  refine handle_of_no_pick hpicks ?_
  have hmode := h.mode_of_inert hinert
  cases i with
  | choose index => simp [Input.pick?, hmode]
  | chooseTimed index => simp [Input.pick?, hmode]
  | select index => simp [Input.pick?, hmode]
  | _ => rfl

theorem handle_of_inert (h : s.state.Coherent) (hinert : s.state.Inert) {i : Input}
    (hi : i.nudges = true) :
    ∃ call heeded, s.handle w i = ({ s with call }, .ok heeded) := by
  have hpicks (hpicks : i.picks = true) :
      ∃ call heeded, s.handle w i = ({ s with call }, .ok heeded) := by
    obtain ⟨call, hignored⟩ := handle_pick_of_inert (w := w) h hinert hpicks
    exact ⟨call, false, hignored⟩
  cases i with
  | advance => exact ⟨_, _, handle_advance_of_inert (i := .advance) hinert rfl⟩
  | runAction action =>
    cases action with
    | advance => exact ⟨_, _, handle_advance_of_inert (i := .runAction .advance) hinert rfl⟩
    | _ => nomatch hi
  | press index =>
    refine ⟨s.call, false, ?_⟩
    show s.press w index = _
    rw [press, hinert.buttonAction?_eq_none]
  | select index => exact hpicks rfl
  | choose index => exact hpicks rfl
  | chooseTimed index => exact hpicks rfl
  | _ => nomatch hi

/-- **In an inert state a nudge changes nothing**, and does not fail. -/
theorem perform_of_inert (h : s.state.Coherent) (hinert : s.state.Inert) {c : Call}
    (hc : c.nudges = true) :
    ∃ call heeded, s.perform w c = ({ s with call }, .ok heeded) := by
  cases c with
  | input i => exact handle_of_inert h hinert hc
  | tick =>
    have htick := tick_of_idle w (h.idle_of_inert hinert)
    exact ⟨_, _, congrArg boolAnswer htick⟩

theorem run_of_inert (s : Session) (h : s.state.Coherent) (hinert : s.state.Inert)
    (later : List (Outside × Call)) (hlater : ∀ c ∈ later, c.2.nudges = true) :
    (∃ call, s.run later = { s with call }) ∧
      ∀ answer ∈ s.answers later, ∃ heeded, answer = .ok heeded := by
  induction later generalizing s with
  | nil => exact ⟨⟨s.call, rfl⟩, nofun⟩
  | cons c rest ih =>
    obtain ⟨call, heeded, hperform⟩ :=
      perform_of_inert (w := c.1) h hinert (hlater c List.mem_cons_self)
    obtain ⟨⟨call', hrun⟩, hanswers⟩ :=
      ih { s with call } h hinert fun d hd => hlater d (List.mem_cons_of_mem _ hd)
    constructor
    · exact ⟨call', by rw [run_cons, hperform, hrun]⟩
    · intro answer hanswer
      rw [answers, hperform] at hanswer
      rcases List.mem_cons.1 hanswer with rfl | hmem
      · exact ⟨heeded, rfl⟩
      · exact hanswers answer hmem

end Session

open Session in
/-- **Nothing happens on an inert screen.**  In a state that can be reached without a book, without
a screen in it, or on a screen of unknown kind, a reader may advance, pick and press whatever there
is and let time pass, any number of times: the session stays as it is but for the number of the
call, no call fails, and the view shows no mode, no choices and no time. -/
theorem inert_screen_stays (calls later : List (Outside × Call))
    (hinert : (initial.run calls).state.book = none ∨ (initial.run calls).state.screen? = none ∨
      ∃ screen, (initial.run calls).state.screen? = some screen ∧ screen.kind = .unknown)
    (hlater : ∀ c ∈ later, c.2.nudges = true) :
    let s := initial.run calls
    (∃ call, s.run later = { s with call }) ∧
      (∀ answer ∈ s.answers later, ∃ heeded, answer = .ok heeded) ∧
      (View.ofState (s.run later).state).mode = .none ∧
      (View.ofState (s.run later).state).choices = [] ∧
      (View.ofState (s.run later).state).timeRemaining = none := by
  intro s
  have hcoherent : s.state.Coherent := .of_run calls
  have hstill : s.state.Inert := State.inert_iff.2 hinert
  obtain ⟨⟨call, hrun⟩, hanswers⟩ := run_of_inert s hcoherent hstill later hlater
  refine ⟨⟨call, hrun⟩, hanswers, ?_⟩
  rw [hrun]
  exact hcoherent.view_of_inert hstill

/-- A screen of unknown kind that declares a choice and a way on. -/
def limboText : String :=
  "start: limbo\nscreens:\n limbo:\n  type: dream\n  next: limbo\n  choices:\n" ++
    "  - text: Wake\n    next: limbo\n"

def inLimbo : Outside := ⟨fun _ => .ok limboText, 0⟩

/-- Neither the choice nor the way on leads out of limbo. -/
theorem limbo_stays :
    let s := Session.initial.run [(inLimbo, .input (.load "limbo.yaml"))]
    let later := [(inLimbo, .input .advance), (inLimbo, .input (.choose 0)), (inLimbo, .tick)]
    (s.state.screen?.map fun screen => (screen.kind, screen.choices, screen.next)) =
        some (.unknown, some [⟨"Wake", "limbo"⟩], some "limbo") ∧
      (∃ call, s.run later = { s with call }) ∧ (View.ofState (s.run later).state).choices = [] := by
  intro s later
  have hdeclared : (s.state.screen?.map fun screen => (screen.kind, screen.choices, screen.next)) =
      some (.unknown, some [⟨"Wake", "limbo"⟩], some "limbo") := by
    decide +kernel
  obtain ⟨screen, hscreen, hfields⟩ := Option.map_eq_some_iff.1 hdeclared
  have hkind : screen.kind = .unknown := (Prod.mk.inj hfields).1
  have hlater : ∀ c ∈ later, c.2.nudges = true := List.all_eq_true.1 rfl
  obtain ⟨hstays, _, _, hnone, _⟩ :=
    inert_screen_stays _ later (Or.inr (Or.inr ⟨screen, hscreen, hkind⟩)) hlater
  exact ⟨hdeclared, hstays, hnone⟩

end Gamebook
