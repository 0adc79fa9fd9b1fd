import Gamebook.Proofs.Session.Entering
import Gamebook.Proofs.Session.Numbering
import Gamebook.Proofs.Session.Plan

/-!
# Lines one by one, then a way on

A screen that was just entered is read line by line.  `State.AtLine` is the invariant of
the reading: the screen is still there, its line `k` is in view, no menu is open and no
countdown runs.  Scrolling and ticking keep it and record nothing (`AtLine.bide`), while
advancing leads to the next line as long as there is one (`AtLine.advance`).  So `k`
advances record the lines 1 to `k`, whatever else is done between them
(`AtLine.run`).

After the last line advancing takes the first way on that the screen has
(`Screen.exits`, `AtLine.taken`).
-/

namespace Gamebook

/-! ### The ways on from a screen -/

/-- What can follow the lines of a screen. -/
inductive Exit where
  | menu (options : List Choice)
  | countdown (t : TimedChoices)
  | action (a : Action)
  | next (id : String)

/-- The ways on from a screen, the first that applies in front. An action that advances leads
nowhere by itself. -/
def Screen.exits (screen : Screen) : List Exit :=
  (screen.choices.map .menu).toList ++ (screen.timedChoices.map .countdown).toList ++
    ((screen.action.filter (· ≠ .advance)).map .action).toList ++
    (screen.next.map .next).toList

/-- Whether `t` is what the session `s` becomes by the way on, from the screen `id`. -/
def Exit.Taken (w : Outside) (id : String) (s t : Session) (outcome : Except LoadError Unit) :
    Option Exit → Prop
  | some (menu options) => outcome = .ok () ∧ t.state = { s.state with menuOpen := true } ∧
      t.kinds = s.kinds ++ [.choicesPresented id options.length]
  | some (countdown c) => outcome = .ok () ∧
      t.state = { s.state with countdown :=
        ⟨some ⟨id, c.duration, c.defaultIndex.toNat⟩, s.state.countdown.epoch + 1⟩ } ∧
      t.kinds = s.kinds ++ [.countdownStarted id c.duration c.defaultIndex.toNat]
  | some (action a) => (t, outcome) = s.runAction w a
  | some (next target) => outcome = .ok () ∧ t = (s.navigate w target).1
  | none => outcome = .ok () ∧ t = s.beginCall

namespace Screen

theorem choiceSet_of_menu (screen : Screen) {options : List Choice}
    (h : screen.exits.head? = some (.menu options)) : screen.choiceSet = options := by
  unfold exits at h
  unfold choiceSet
  cases hchoices : screen.choices with
  | some authored =>
    rw [hchoices] at h
    exact Exit.menu.inj (Option.some.inj h)
  | none => simp [hchoices] at h

theorem advance_not_first (screen : Screen) : screen.exits.head? ≠ some (.action .advance) := by
  intro h
  have hmem := List.mem_of_head? h
  simp [exits] at hmem

end Screen

/-- The plan for a way on. -/
def Plan.ofExit : Option Exit → Plan
  | some (.menu _) => openChoices
  | some (.countdown t) => startCountdown t
  | some (.action a) => dispatch a
  | some (.next id) => goTo id
  | none => stay

theorem Plan.afterLines_eq_ofExit (screen : Screen) :
    afterLines screen = ofExit screen.exits.head? := by
  unfold afterLines Screen.exits
  cases screen.choices with
  | some options => rfl
  | none =>
    cases screen.timedChoices with
    | some t => rfl
    | none =>
      cases screen.action with
      | none => cases screen.next <;> rfl
      | some a =>
        cases a with
        | navigate id => rfl
        | loadBook path => rfl
        | advance => cases screen.next <;> rfl

theorem Turn.no_line {w : Outside} {s s' : State} {c : Call} {kinds : List EventKind}
    (ht : Turn w s c kinds s') (hplan : Plan.ofState s ≠ .nextLine) :
    .dialogueAdvanced ∉ kinds.map (·.tag) := by
  cases ht with
  | nextLine hi hnext => exact absurd hnext hplan
  | _ => simp [EventKind.tag]

/-! ### Reading -/

/-- Whether a call asks for one step on. -/
def Call.advances : Call → Bool
  | input .advance | input (.runAction .advance) => true
  | _ => false

/-- Whether a call only scrolls or lets time pass. -/
def Call.bides : Call → Bool
  | input (.scroll _) | tick => true
  | _ => false

/-- The reader is on this line of the screen, with no menu open and no countdown running. -/
structure State.AtLine (screen : Screen) (id : String) (k : Nat) (s : State) : Prop where
  screenId : s.screenId = some id
  screen? : s.screen? = some screen
  dialogueIndex : s.dialogueIndex = k
  menuOpen : s.menuOpen = false
  idle : s.countdown.running = none

namespace State.AtLine

variable {screen : Screen} {id : String} {k : Nat}

theorem of_entered {w : Outside} {s s' : State} {c : Call} {kinds : List EventKind}
    (ht : Turn w s c kinds s') (hid : .screenEntered id ∈ kinds)
    (hscreen : s'.screen? = some screen) : s'.AtLine screen id 0 := by
  have htop := ht.state_of_entered hid
  exact ⟨by rw [htop]; rfl, hscreen, by rw [htop]; rfl, by rw [htop]; rfl, by rw [htop]; rfl⟩

theorem mode_eq {s : State} (h : s.AtLine screen id k) : s.mode = screen.kind.mode := by
  simp [mode, Countdown.isRunning, h.idle, h.menuOpen, h.screen?, Mode.ofScreen]

theorem line_eq {s : State} (h : s.AtLine screen id k) :
    (View.ofState s).line = screen.lines[k]? := by
  change (s.screen?.bind fun screen => screen.lines[s.dialogueIndex]?) = _
  rw [h.screen?, h.dialogueIndex]
  rfl

theorem plan_eq {s : State} (h : s.AtLine screen id k) (hkind : screen.kind ≠ .unknown) :
    Plan.ofState s =
      if k + 1 < screen.lines.length then .nextLine else .afterLines screen := by
  simp [Plan.ofState, h.screen?, hkind, Countdown.isRunning, h.idle, h.dialogueIndex]

section Steps

variable {w : Outside} {s : Session} (h : s.state.AtLine screen id k)

include h

/-- **Scrolling and ticking change nothing** of what is read, and record nothing. -/
theorem bide {c : Call} (hc : c.bides = true) :
    (s.perform w c).1.state.AtLine screen id k ∧ (s.perform w c).1.kinds = s.kinds := by
  cases c with
  | tick =>
    change (s.tick w).1.state.AtLine screen id k ∧ (s.tick w).1.kinds = s.kinds
    rw [Session.tick_of_idle w h.idle]
    exact ⟨h, rfl⟩
  | input i =>
    cases i with
    | scroll delta =>
      change (s.scroll delta).1.state.AtLine screen id k ∧ (s.scroll delta).1.kinds = s.kinds
      unfold Session.scroll
      rw [h.screen?]
      exact ⟨⟨h.screenId, h.screen?, h.dialogueIndex, h.menuOpen, h.idle⟩, rfl⟩
    | _ => nomatch hc

/-- **Advancing leads to the next line**, as long as there is one. -/
theorem advance (hkind : screen.kind ≠ .unknown) (hmore : k + 1 < screen.lines.length) {c : Call}
    (hc : c.advances = true) :
    (s.perform w c).1.state.AtLine screen id (k + 1) ∧
      (s.perform w c).1.kinds = s.kinds ++ [.dialogueAdvanced id (k + 1)] := by
  have hplan : Plan.ofState s.state = .nextLine := by rw [h.plan_eq hkind, if_pos hmore]
  have hperform : (s.perform w c).1 = (s.beginCall.carryOut w .nextLine).1 := by
    rw [← hplan]
    cases c with
    | tick => nomatch hc
    | input i =>
      cases i with
      | advance => rfl
      | runAction a =>
        cases a with
        | advance => rfl
        | _ => nomatch hc
      | _ => nomatch hc
  rw [hperform]
  refine ⟨⟨h.screenId, h.screen?, congrArg (· + 1) h.dialogueIndex, h.menuOpen, h.idle⟩, ?_⟩
  have hid : s.state.activeId = id := activeId_of_screenId h.screenId
  refine (Session.kinds_record ..).trans ?_
  rw [Session.state_beginCall, hid, h.dialogueIndex]
  rfl

/-- **Calls that advance, scroll and tick** lead as many lines on as they advance, and record
these lines and nothing else. -/
theorem run (hkind : screen.kind ≠ .unknown) {calls : List (Outside × Call)}
    (hcalls : ∀ c ∈ calls, c.2.advances = true ∨ c.2.bides = true)
    (hcount : k + calls.countP (·.2.advances) ≤ screen.lines.length - 1) :
    (s.run calls).state.AtLine screen id (k + calls.countP (·.2.advances)) ∧
      (s.run calls).kinds = s.kinds ++
        (List.range' (k + 1) (calls.countP (·.2.advances))).map (.dialogueAdvanced id) := by
  induction calls generalizing s k with
  | nil => exact ⟨h, (List.append_nil _).symm⟩
  | cons c rest ih =>
    obtain ⟨w, c⟩ := c
    obtain ⟨hc, hrest⟩ := List.forall_mem_cons.1 hcalls
    cases hadvances : c.advances with
    | false =>
      obtain ⟨hhere, hkinds⟩ := h.bide (w := w) (hc.resolve_left (by simp [hadvances]))
      rw [List.countP_cons_of_neg (by simp [hadvances])] at hcount ⊢
      obtain ⟨hthere, hlater⟩ := ih hhere hrest hcount
      exact ⟨hthere, by rw [Session.run_cons, hlater, hkinds]⟩
    | true =>
      rw [List.countP_cons_of_pos (by simpa using hadvances)] at hcount ⊢
      obtain ⟨hnext, hkinds⟩ := h.advance (w := w) hkind (by omega) hadvances
      obtain ⟨hthere, hlater⟩ := ih hnext hrest (by omega)
      refine ⟨by rwa [Nat.add_assoc, Nat.add_comm 1] at hthere, ?_⟩
      rw [Session.run_cons, hlater, hkinds, List.append_assoc, List.range'_succ]
      rfl

/-- **After the last line the first way on is taken.** -/
theorem taken (hkind : screen.kind ≠ .unknown) (hlast : screen.lines.length ≤ k + 1) :
    Exit.Taken w id s (s.advance w).1 (s.advance w).2 screen.exits.head? := by
  have hid : s.state.activeId = id := activeId_of_screenId h.screenId
  have hplan : Plan.ofState s.state = .ofExit screen.exits.head? := by
    rw [h.plan_eq hkind, if_neg (Nat.not_lt.2 hlast), Plan.afterLines_eq_ofExit]
  have hadvance : s.advance w = s.beginCall.carryOut w (.ofExit screen.exits.head?) := by
    rw [← hplan]
    rfl
  rw [hadvance]
  cases hexit : screen.exits.head? with
  | none => exact ⟨rfl, rfl⟩
  | some exit =>
    cases exit with
    | menu options =>
      refine ⟨rfl, rfl, (Session.kinds_record ..).trans ?_⟩
      rw [Session.state_beginCall, hid, h.screen?, Option.map_some, Option.getD_some,
        screen.choiceSet_of_menu hexit]
      rfl
    | countdown t =>
      refine ⟨rfl, ?_, (Session.kinds_record ..).trans ?_⟩
      · rw [← hid]
        rfl
      · rw [Session.state_beginCall, hid]
        rfl
    | action a =>
      cases a with
      | navigate target => rfl
      | loadBook path => rfl
      | advance => exact absurd hexit screen.advance_not_first
    | next target => exact ⟨rfl, rfl⟩

theorem no_line (hkind : screen.kind ≠ .unknown) (hlast : screen.lines.length ≤ k + 1) (c : Call) :
    .dialogueAdvanced ∉ (s.recorded w c).map (·.kind.tag) := by
  have hplan : Plan.ofState s.state ≠ .nextLine := by
    rw [h.plan_eq hkind, if_neg (Nat.not_lt.2 hlast)]
    exact Plan.afterLines_ne_nextLine screen
  have hturn := (s.perform_turn w c).no_line hplan
  rwa [List.map_map] at hturn

end Steps

end State.AtLine

open State in
/-- **The dialogue is read line by line, and then the screen is left** the first way that it has.
From when a screen of a known kind was entered a host advances, scrolls, ticks and takes events, and
advances no more often than there are lines after the first.  Then the reader is on the line that
the advances lead to, on the same screen and in the mode of its kind, and what was recorded is that
line and those before it.  From the last line, or at once where there are no lines, advancing takes
the first way on and records no line. -/
theorem lines_read_then_left {w : Outside} {s : Session} {c : Call} {id : String}
    {screen : Screen} (hentered : .screenEntered id ∈ (s.recorded w c).map (·.kind))
    (hscreen : (s.perform w c).1.state.screen? = some screen) (hkind : screen.kind ≠ .unknown)
    {acts : List Act} (hacts : ∀ c ∈ Act.calls acts, c.2.advances = true ∨ c.2.bides = true)
    (hcount : (Act.calls acts).countP (·.2.advances) ≤ screen.lines.length - 1) :
    let start : Host := ⟨(s.perform w c).1, []⟩
    let h := start.run acts
    let k := (Act.calls acts).countP (·.2.advances)
    h.session.state.screenId = some id ∧ h.session.state.screen? = some screen ∧
      h.session.state.dialogueIndex = k ∧
      (View.ofState h.session.state).line = screen.lines[k]? ∧
      h.session.state.mode = screen.kind.mode ∧
      h.events.map (·.kind) =
        start.events.map (·.kind) ++ (List.range' 1 k).map (.dialogueAdvanced id) ∧
      (k = screen.lines.length - 1 → ∀ w', let left := h.session.advance w'
        Exit.Taken w' id h.session left.1 left.2 screen.exits.head? ∧
          .dialogueAdvanced ∉ (h.session.recorded w' (.input .advance)).map (·.kind.tag)) := by
  intro start h k
  have hstart : start.session.state.AtLine screen id 0 :=
    .of_entered (s.perform_turn w c) hentered hscreen
  -- what is taken away is put back, so that the run is one of calls only
  obtain ⟨hwhole, _⟩ := start.whole_run acts
  change h.whole = start.whole.run (Act.calls acts) at hwhole
  obtain ⟨hline, hkinds⟩ := AtLine.run (s := start.whole) hstart hkind hacts (by omega)
  rw [← hwhole, Nat.zero_add] at hline
  rw [← hwhole] at hkinds
  refine ⟨hline.screenId, hline.screen?, hline.dialogueIndex, hline.line_eq, hline.mode_eq,
    hkinds, fun hlast w' => ?_⟩
  have hlength : screen.lines.length ≤ k + 1 := by omega
  exact ⟨AtLine.taken (s := h.session) hline hkind hlength,
    AtLine.no_line (s := h.session) hline hkind hlength _⟩

/-- A porch with two lines and then a menu. -/
def porch : Screen :=
  { Screen.blank with
    kind := .choices
    dialogue := some [⟨"Ann", "Hello."⟩, ⟨"Ann", "Come in."⟩]
    choices := some [⟨"Enter", "hall"⟩] }

def beforePorch : Session :=
  .ofState { State.initial with book := some ⟨"porch", .ofList [("porch", porch)]⟩ }

def enterPorch : Call := .input (.navigate "porch")

/-- What a host does on the porch to hear both lines. -/
def listenOnPorch : List Act :=
  [.call nowhere (.input (.scroll 3)), .take, .call nowhere .tick,
    .call nowhere (.input .advance), .take, .call nowhere .tick]

/-- Scrolling, ticks and taking events between them change nothing about the lines on the porch. -/
theorem lines_on_porch :
    let h := Host.run ⟨(beforePorch.perform nowhere enterPorch).1, []⟩ listenOnPorch
    h.session.state.dialogueIndex = 1 ∧
      (View.ofState h.session.state).line = some ⟨"Ann", "Come in."⟩ ∧
      h.events.map (·.kind) = [.screenEntered "porch", .dialogueAdvanced "porch" 1] ∧
      ∀ w, (h.session.advance w).1.state.menuOpen = true := by
  intro h
  have hrecorded : (beforePorch.recorded nowhere enterPorch).map (·.kind) =
      [.screenEntered "porch"] := rfl
  have hentered : EventKind.screenEntered "porch" ∈
      (beforePorch.recorded nowhere enterPorch).map (·.kind) := by
    simp [hrecorded]
  have hscreen : (beforePorch.perform nowhere enterPorch).1.state.screen? = some porch := rfl
  have hacts : ∀ c ∈ Act.calls listenOnPorch, c.2.advances = true ∨ c.2.bides = true := by
    simp [listenOnPorch, Act.calls, Call.advances, Call.bides]
  obtain ⟨_, _, hindex, hline, _, hevents, hleft⟩ :=
    lines_read_then_left hentered hscreen (by decide) hacts (by decide)
  refine ⟨hindex, hline, hevents, fun w => ?_⟩
  obtain ⟨⟨_, hstate, _⟩, _⟩ := hleft rfl w
  rw [hstate]

end Gamebook
