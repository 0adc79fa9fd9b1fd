import Gamebook.Session.Basic

/-!
# Changes that no call notices

A call looks at the state, but not at how many countdowns were started before,
and it only adds to the history.  `Session.Shift n w w' f` says that `f` changes
sessions where no call looks: of the state it raises the epoch by `n` and leaves
the rest, and whatever it does to the history, it turns an event recorded with
`w` into one recorded with `w'`.  Calls commute with such an `f`,

    (f s).perform w' c = (f (s.perform w c).1, (s.perform w c).2),

one lemma for each part of a call (`Shift.perform`).  What the lemmas need of
the state is that a reading of it, or a change to it, does not look at the epoch
(`Shift.read`, `Shift.update`).
-/

namespace Gamebook

/-! ### Countdowns started before -/

/-- The countdown as it stands with `n` more started before it. -/
def Countdown.aged (n : Nat) (c : Countdown) : Countdown := { c with epoch := c.epoch + n }

theorem Countdown.start_aged (n : Nat) (c : Countdown) (owner : String) (t : TimedChoices) :
    (c.aged n).start owner t = (c.start owner t).aged n := by
  have hepoch : c.epoch + n + 1 = c.epoch + 1 + n := by omega
  simp [start, aged, hepoch]

theorem Countdown.tick_aged (n : Nat) (c : Countdown) :
    (c.aged n).tick = (c.tick.1.aged n, c.tick.2) := by
  have hrunning : (c.aged n).running = c.running := rfl
  unfold tick
  rw [hrunning]
  cases c.running with
  | none => rfl
  | some r =>
    by_cases hlast : 1 < r.remaining
    · simp only [if_pos hlast]
      rfl
    · simp only [if_neg hlast]
      rfl

/-- The state as it stands with `n` more countdowns started before. -/
def State.aged (n : Nat) (s : State) : State := { s with countdown := s.countdown.aged n }

namespace Session

/-- What `f` changes of a session no call notices, and `w'` answers as `w` does. -/
structure Shift (n : Nat) (w w' : Outside) (f : Session → Session) : Prop where
  fetch : w'.fetch = w.fetch
  state : ∀ (s : Session) (x : State), f { s with state := x } = { f s with state := x.aged n }
  beginCall : ∀ s : Session, f s.beginCall = (f s).beginCall
  record : ∀ (kind : EventKind) (s : Session), f (s.record w kind) = (f s).record w' kind
  preloaded : ∀ (s : Session) (pictures : List String),
    f { s with preloaded := s.preloaded ++ pictures } =
      { f s with preloaded := (f s).preloaded ++ pictures }
  fetched : ∀ (s : Session) (locators : List String),
    f { s with fetched := s.fetched ++ locators } =
      { f s with fetched := (f s).fetched ++ locators }

namespace Shift

variable {n : Nat} {w w' : Outside} {f : Session → Session}

theorem state_eq (h : Shift n w w' f) (s : Session) : (f s).state = s.state.aged n := by
  have hstate := congrArg Session.state (h.state s s.state)
  exact hstate

/-- What does not look at the epoch reads the same on either side of `f`. -/
theorem read {α : Type} (h : Shift n w w' f) (s : Session) (g : State → α)
    (hg : g (s.state.aged n) = g s.state) : g (f s).state = g s.state := by
  rw [h.state_eq s, hg]

/-- A change of the state that does not look at the epoch can be made on either side of `f`. -/
theorem update (h : Shift n w w' f) (s : Session) (g : State → State)
    (hg : (g s.state).aged n = g (s.state.aged n)) :
    f { s with state := g s.state } = { f s with state := g (f s).state } := by
  rw [h.state_eq s, ← hg]
  exact h.state s (g s.state)

/-! ### The parts of a call -/

theorem announce (h : Shift n w w' f) (s : Session) : f (s.announce w) = (f s).announce w' := by
  have hid := h.read s State.screenId rfl
  have hscreen := h.read s State.screen? rfl
  unfold Session.announce
  rw [hid, hscreen]
  cases s.state.screenId with
  | none => rfl
  | some id =>
    dsimp only
    rw [h.record, h.preloaded]

theorem enter (h : Shift n w w' f) (id : String) (s : Session) :
    (f s).enter w' id = (f (s.enter w id).1, (s.enter w id).2) := by
  have hdefines := h.read s (·.defines id) rfl
  unfold Session.enter
  rw [hdefines]
  by_cases hid : s.state.defines id = true
  · have hplace := h.update s (·.place id) rfl
    rw [if_pos hid, if_pos hid, ← hplace, ← h.announce]
  · rw [if_neg hid, if_neg hid]

theorem swapIn (h : Shift n w w' f) (locator : String) (s : Session) :
    (f s).swapIn w' locator = (f (s.swapIn w locator).1, (s.swapIn w locator).2) := by
  unfold Session.swapIn
  rw [h.fetch]
  cases w.fetch locator with
  | error e => simp only [h.fetched]
  | ok text =>
    dsimp only
    cases Book.decode locator text with
    | error e => simp only [h.fetched]
    | ok book =>
      have hadopt := h.update { s with fetched := s.fetched ++ [locator] } (·.adopt book) rfl
      rw [h.fetched] at hadopt
      dsimp only at hadopt ⊢
      rw [h.announce, h.record, hadopt]

theorem carryOut (h : Shift n w w' f) (plan : Plan) (s : Session) :
    (f s).carryOut w' plan = (f (s.carryOut w plan).1, (s.carryOut w plan).2) := by
  have hactive := h.read s State.activeId rfl
  cases plan with
  | nextLine =>
    have hindex := h.read s State.dialogueIndex rfl
    have hset := h.update s (fun x => { x with dialogueIndex := x.dialogueIndex + 1 }) rfl
    simp only [Session.carryOut, h.record, hset, hactive, hindex]
  | openChoices =>
    have hscreen := h.read s State.screen? rfl
    have hset := h.update s (fun x => { x with menuOpen := true }) rfl
    simp only [Session.carryOut, h.record, hset, hactive, hscreen]
  | startCountdown t =>
    have hset := h.update s (fun x => { x with countdown := x.countdown.start x.activeId t }) (by
      simp only [State.aged, Countdown.start_aged]
      rfl)
    have hremaining : ((f s).state.countdown.start s.state.activeId t).remaining =
        (s.state.countdown.start s.state.activeId t).remaining := rfl
    simp only [Session.carryOut, h.record, hset, hactive, hremaining]
  | goTo id => simp only [Session.carryOut, h.enter]
  | stay => rfl
  | dispatch action =>
    cases action with
    | navigate id => simp only [Session.carryOut, h.enter]
    | loadBook path => exact h.swapIn path s
    | advance => rfl

theorem step (h : Shift n w w' f) (s : Session) :
    (f s).step w' = (f (s.step w).1, (s.step w).2) := by
  have hplan := h.read s Plan.ofState rfl
  unfold Session.step
  rw [hplan]
  exact h.carryOut _ s

theorem resolve (h : Shift n w w' f) (index : Nat) (next : String) (timed : Bool) (s : Session) :
    (f s).resolve w' index next timed =
      (f (s.resolve w index next timed).1, (s.resolve w index next timed).2) := by
  have hdefines := h.read s (·.defines next) rfl
  have hactive := h.read s State.activeId rfl
  unfold Session.resolve
  rw [hdefines, hactive]
  by_cases hnext : s.state.defines next = true
  · rw [if_pos hnext, if_pos hnext, ← h.record, h.enter]
  · rw [if_neg hnext, if_neg hnext]

theorem pickTimed (h : Shift n w w' f) (index : Nat) (s : Session) :
    (f s).pickTimed w' index = (f (s.pickTimed w index).1, (s.pickTimed w index).2) := by
  have hoption := h.read s (timedOption? · index) rfl
  unfold Session.pickTimed
  rw [hoption]
  cases timedOption? s.state index with
  | none => rfl
  | some option => exact h.resolve index option.next true s

/-! ### Calls -/

theorem runAction (h : Shift n w w' f) (action : Action) (s : Session) :
    (f s).runAction w' action = (f (s.runAction w action).1, (s.runAction w action).2) := by
  unfold Session.runAction
  rw [← h.beginCall]
  cases action with
  | navigate id => simp only [h.enter]
  | loadBook path => exact h.swapIn path s.beginCall
  | advance => exact h.step s.beginCall

theorem press (h : Shift n w w' f) (index : Nat) (s : Session) :
    (f s).press w' index = (f (s.press w index).1, (s.press w index).2) := by
  have haction := h.read s (buttonAction? · index) rfl
  unfold Session.press
  rw [haction]
  cases buttonAction? s.state index with
  | none => rfl
  | some action => simp only [h.runAction]

theorem choose (h : Shift n w w' f) (index : Nat) (s : Session) :
    (f s).choose w' index = (f (s.choose w index).1, (s.choose w index).2) := by
  have hmode := h.read s.beginCall State.mode rfl
  have hscreen := h.read s.beginCall State.screen? rfl
  unfold Session.choose
  rw [← h.beginCall]
  dsimp only
  rw [hmode, hscreen]
  split
  · cases s.beginCall.state.screen?.bind fun screen => screen.choiceSet[index]? with
    | none => rfl
    | some choice => exact h.resolve index choice.next false s.beginCall
  · rfl

theorem chooseTimed (h : Shift n w w' f) (index : Nat) (s : Session) :
    (f s).chooseTimed w' index = (f (s.chooseTimed w index).1, (s.chooseTimed w index).2) := by
  have hmode := h.read s.beginCall State.mode rfl
  unfold Session.chooseTimed
  rw [← h.beginCall]
  dsimp only
  rw [hmode]
  split
  · exact h.pickTimed index s.beginCall
  · rfl

theorem select (h : Shift n w w' f) (index : Nat) (s : Session) :
    (f s).select w' index = (f (s.select w index).1, (s.select w index).2) := by
  have hmode := h.read s State.mode rfl
  unfold Session.select
  rw [hmode]
  split
  · exact h.choose index s
  · exact h.chooseTimed index s
  · rfl

theorem tick (h : Shift n w w' f) (s : Session) :
    (f s).tick w' = (f (s.tick w).1, (s.tick w).2) := by
  have houtcome := h.read s.beginCall (·.countdown.tick.2) (by
    simp only [State.aged, Countdown.tick_aged])
  have hid := h.read s.beginCall State.screenId rfl
  have hset := h.update s.beginCall (fun x => { x with countdown := x.countdown.tick.1 }) (by
    simp only [State.aged, Countdown.tick_aged])
  unfold Session.tick
  rw [← h.beginCall]
  dsimp only at hset ⊢
  rw [houtcome, ← hset]
  generalize { s.beginCall with state := { s.beginCall.state with
    countdown := s.beginCall.state.countdown.tick.1 } } = t
  cases s.beginCall.state.countdown.tick.2 with
  | idle => rfl
  | counting remaining => simp only [h.record, State.activeId, hid]
  | expired owner defaultIndex =>
    dsimp only
    rw [← h.record]
    generalize t.record w (.countdownExpired owner defaultIndex) = expired
    have hexpired := h.read expired State.screenId rfl
    rw [hexpired, h.pickTimed]
    split <;> rfl

theorem scroll (h : Shift n w w' f) (delta : Float) (s : Session) :
    (f s).scroll delta = (f (s.scroll delta).1, (s.scroll delta).2) := by
  have hscreen := h.read s State.screen? rfl
  unfold Session.scroll
  rw [hscreen]
  cases s.state.screen? with
  | none => rfl
  | some screen =>
    have hset := h.update s (fun x => { x with
      scrollOffset := if 0 < x.scrollOffset + delta then x.scrollOffset + delta else 0 }) rfl
    dsimp only
    rw [hset]

theorem handle (h : Shift n w w' f) (i : Input) (s : Session) :
    (f s).handle w' i = (f (s.handle w i).1, (s.handle w i).2) := by
  cases i with
  | advance => simp only [Session.handle, unitAnswer, Session.advance, ← h.beginCall, h.step]
  | select index => simp only [Session.handle, boolAnswer, h.select]
  | choose index => simp only [Session.handle, boolAnswer, h.choose]
  | chooseTimed index => simp only [Session.handle, boolAnswer, h.chooseTimed]
  | navigate id =>
    simp only [Session.handle, boolAnswer, Session.navigate, ← h.beginCall, h.enter]
  | runAction action => simp only [Session.handle, unitAnswer, h.runAction]
  | press index => exact h.press index s
  | scroll delta => simp only [Session.handle, boolAnswer, h.scroll]
  | load locator =>
    simp only [Session.handle, unitAnswer, Session.load, ← h.beginCall, h.swapIn]

/-- **No call notices.** -/
theorem perform (h : Shift n w w' f) (c : Call) (s : Session) :
    (f s).perform w' c = (f (s.perform w c).1, (s.perform w c).2) := by
  cases c with
  | input i => exact h.handle i s
  | tick => simp only [Session.perform, boolAnswer, h.tick]

end Shift

end Session

end Gamebook
