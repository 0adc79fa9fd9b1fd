import Gamebook.Proofs.Session.Entering
import Gamebook.Proofs.Session.Plan

/-!
# What is ignored

A call that makes no sense in the state it meets answers no, and then nothing of
the session has changed but the number of the call (`perform_of_not_heeded`).
What the answer depends on is said for each call: a pick needs its menu on the
screen and an option that leads to a screen of the book (`choose_answer_iff`,
`chooseTimed_answer_iff`), a move needs the screen, scrolling any screen at all,
and a tick a countdown.

A call that asks for a screen and answers yes has gone to just that screen
(`exists_target_of_heeded`).  `misuse_is_ignored` puts these together.
-/

namespace Gamebook

namespace Input

/-- Whether an input asks to go to a screen, and is told whether that was done. -/
def asksToMove : Input → Bool
  | navigate _ => true
  | i => i.picks

/-- The screen that an input names: the one it moves to, or the one that its option leads to. -/
def target? (s : State) : Input → Option String
  | navigate id => some id
  | i => (i.pick? s).bind fun pick => (s.option? pick.1 pick.2).map (·.next)

theorem target?_of_picks {i : Input} (s : State) (h : i.picks = true) :
    i.target? s = (i.pick? s).bind fun pick => (s.option? pick.1 pick.2).map (·.next) := by
  cases i with
  | navigate id => nomatch h
  | _ => rfl

end Input

namespace State

variable (s : State) (index : Nat)

theorem exists_choice_iff :
    (∃ option, s.option? index false = some option ∧ s.defines option.next = true) ↔
      ∃ screen, s.screen? = some screen ∧
        ∃ option, screen.choiceSet[index]? = some option ∧ s.defines option.next = true := by
  unfold option?
  cases s.screen? with
  | none => simp
  | some screen => simp

theorem exists_timedChoice_iff :
    (∃ option, s.option? index true = some option ∧ s.defines option.next = true) ↔
      ∃ screen, s.screen? = some screen ∧ ∃ t, screen.timedChoices = some t ∧
        ∃ option, t.options[index]? = some option ∧ s.defines option.next = true := by
  unfold option? Session.timedOption?
  cases s.screen? with
  | none => simp
  | some screen =>
    cases ht : screen.timedChoices with
    | none => simp [ht]
    | some t => simp [ht]

end State

namespace Session

variable {w : Outside} {s : Session} {i : Input}

/-! ### What the answers depend on -/

theorem scroll_answer_iff (delta : Float) :
    (s.scroll delta).2 = true ↔ ∃ screen, s.state.screen? = some screen := by
  unfold scroll
  cases s.state.screen? with
  | none => simp
  | some screen => simp

theorem tick_answer_iff : (s.tick w).2 = true ↔ s.state.countdown.isRunning = true := by
  unfold Countdown.isRunning
  cases hr : s.state.countdown.running with
  | none => simp [tick_of_idle w hr]
  | some r =>
    by_cases hlast : 1 < r.remaining
    · simp [tick_of_more w hr hlast]
    · simp [tick_of_last w hr (Nat.not_lt.1 hlast)]

/-! ### No -/

theorem handle_pick_of_not_heeded (hpicks : i.picks = true) (h : (s.handle w i).2 = .ok false) :
    ∃ call, (s.handle w i).1 = { s with call } := by
  cases hi : i.pick? s.state with
  | none =>
    obtain ⟨call, hignored⟩ := handle_of_no_pick (w := w) hpicks hi
    exact ⟨call, congrArg Prod.fst hignored⟩
  | some pick =>
    rw [handle_of_pick hi] at h ⊢
    have hignored := pick_of_not_heeded w s.beginCall pick.1 (Except.ok.inj h)
    exact ⟨s.call + 1, congrArg Prod.fst hignored⟩

theorem map_true_ne_false {α : Type} (outcome : Except LoadError α) :
    (outcome.map fun _ => true) ≠ .ok false := by
  cases outcome with
  | error e => nofun
  | ok done => nofun

theorem handle_of_not_heeded (h : (s.handle w i).2 = .ok false) :
    ∃ call, (s.handle w i).1 = { s with call } := by
  cases i with
  | select index => exact handle_pick_of_not_heeded rfl h
  | choose index => exact handle_pick_of_not_heeded rfl h
  | chooseTimed index => exact handle_pick_of_not_heeded rfl h
  | navigate id =>
    have hid : s.beginCall.state.defines id = false := by
      rw [← enter_answer w]
      exact Except.ok.inj h
    exact ⟨s.call + 1, congrArg Prod.fst (enter_of_not_defines w hid)⟩
  | press index =>
    change (s.press w index).2 = .ok false at h
    change ∃ call, (s.press w index).1 = { s with call }
    unfold press at h ⊢
    cases haction : buttonAction? s.state index with
    | none => exact ⟨s.call, rfl⟩
    | some action =>
      rw [haction] at h
      exact absurd h (map_true_ne_false _)
  | scroll delta =>
    have hanswer : (s.scroll delta).2 = false := Except.ok.inj h
    change ∃ call, (s.scroll delta).1 = { s with call }
    unfold scroll at hanswer ⊢
    cases hscreen : s.state.screen? with
    | none => exact ⟨s.call, rfl⟩
    | some screen => simp [hscreen] at hanswer
  | advance => exact absurd h (map_true_ne_false _)
  | runAction action => exact absurd h (map_true_ne_false _)
  | load locator => exact absurd h (map_true_ne_false _)

/-- **A call that answers no changes nothing** but the number of the call. -/
theorem perform_of_not_heeded {c : Call} (h : (s.perform w c).2 = .ok false) :
    ∃ call, (s.perform w c).1 = { s with call } := by
  cases c with
  | input i => exact handle_of_not_heeded h
  | tick =>
    cases hr : s.state.countdown.running with
    | none => exact ⟨s.call + 1, congrArg Prod.fst (tick_of_idle w hr)⟩
    | some r =>
      have hrunning : s.state.countdown.isRunning = true := Option.isSome_of_eq_some hr
      rw [← tick_answer_iff (w := w)] at hrunning
      nomatch hrunning.symm.trans (Except.ok.inj h)

/-! ### Yes -/

theorem exists_target_of_picked (hpicks : i.picks = true) (h : (s.handle w i).2 = .ok true) :
    ∃ id, i.target? s.state = some id ∧ s.state.defines id = true ∧
      (s.handle w i).1.state = s.state.place id := by
  rw [Input.target?_of_picks _ hpicks]
  cases hi : i.pick? s.state with
  | none =>
    obtain ⟨call, hignored⟩ := handle_of_no_pick (w := w) hpicks hi
    rw [hignored] at h
    nomatch h
  | some pick =>
    rw [handle_of_pick hi] at h
    obtain ⟨option, hoption, hnext⟩ :=
      (pick_answer_iff w s.beginCall pick.1 pick.2).1 (Except.ok.inj h)
    obtain ⟨_, hstate, _⟩ := perform_of_pick (w := w) hi hoption hnext
    refine ⟨option.next, ?_, hnext, hstate⟩
    exact congrArg (Option.map (·.next)) hoption

/-- **A call that asks for a screen and answers yes** has gone to just that screen. -/
theorem exists_target_of_heeded (hi : i.asksToMove = true)
    (h : (s.perform w (.input i)).2 = .ok true) :
    ∃ id, i.target? s.state = some id ∧ s.state.defines id = true ∧
      (s.perform w (.input i)).1.state = s.state.place id := by
  cases i with
  | navigate id =>
    have hid : s.beginCall.state.defines id = true := by
      rw [← enter_answer w]
      exact Except.ok.inj h
    exact ⟨id, rfl, hid, (enter_of_defines w hid).2⟩
  | _ => exact exists_target_of_picked (w := w) hi h

end Session

/-- **Misuse is ignored**, and nothing else is.  A pick is heeded just when its menu is on the
screen and has the option, and the book the screen that it leads to; a move, when the book has the
screen; scrolling, when there is a screen; a tick, when a countdown runs.  A call that is not heeded
leaves everything of the session as it was but the number of the call; one that was to go to a
screen, and is heeded, has gone to the screen that it named. -/
theorem misuse_is_ignored (w : Outside) (s : Session) :
    (∀ index, (s.choose w index).2 = true ↔
      s.state.mode = .choice ∧ ∃ screen, s.state.screen? = some screen ∧
        ∃ option, screen.choiceSet[index]? = some option ∧ s.state.defines option.next = true) ∧
    (∀ index, (s.chooseTimed w index).2 = true ↔
      s.state.mode = .timed ∧ ∃ screen, s.state.screen? = some screen ∧
        ∃ t, screen.timedChoices = some t ∧
          ∃ option, t.options[index]? = some option ∧ s.state.defines option.next = true) ∧
    (∀ index, (s.select w index).2 =
      match s.state.mode with
      | .choice => (s.choose w index).2
      | .timed => (s.chooseTimed w index).2
      | _ => false) ∧
    (∀ id, (s.navigate w id).2 = true ↔
      ∃ book, s.state.book = some book ∧ book.contains id = true) ∧
    (∀ delta, (s.scroll delta).2 = true ↔ ∃ screen, s.state.screen? = some screen) ∧
    ((s.tick w).2 = true ↔ s.state.countdown.isRunning = true) ∧
    (∀ c, (s.perform w c).2 = .ok false → ∃ call, (s.perform w c).1 = { s with call }) ∧
    ∀ i, i.asksToMove = true → (s.perform w (.input i)).2 = .ok true →
      ∃ id, i.target? s.state = some id ∧ s.state.defines id = true ∧
        (s.perform w (.input i)).1.state = s.state.place id := by
  refine ⟨fun index => ?_, fun index => ?_, fun index => ?_, fun id => ?_,
    Session.scroll_answer_iff, Session.tick_answer_iff, fun c => Session.perform_of_not_heeded,
    fun i => Session.exists_target_of_heeded⟩
  · rw [Session.choose_answer_iff, State.exists_choice_iff]
  · rw [Session.chooseTimed_answer_iff, State.exists_timedChoice_iff]
  · unfold Session.select
    cases s.state.mode with
    | _ => rfl
  · change (s.beginCall.enter w id).2 = true ↔ _
    rw [Session.enter_answer, Session.state_beginCall, State.defines_iff]

/-- In the hall one option leads back to it, and the other to a screen that the book lacks. -/
theorem misuse_in_hall :
    let s := Session.ofState inTimedHall
    (∃ call, (s.perform nowhere (.input (.chooseTimed 1))).1 = { s with call }) ∧
      (s.perform nowhere (.input (.chooseTimed 0))).1.state = s.state.place "hall" := by
  intro s
  obtain ⟨_, _, _, _, _, _, hno, hyes⟩ := misuse_is_ignored nowhere s
  have hleave : (s.perform nowhere (.input (.chooseTimed 1))).2 = .ok false := rfl
  have hwait : (s.perform nowhere (.input (.chooseTimed 0))).2 = .ok true := rfl
  obtain ⟨id, hid, _, hstate⟩ := hyes (.chooseTimed 0) rfl hwait
  obtain rfl : "hall" = id := Option.some.inj hid
  exact ⟨hno (.input (.chooseTimed 1)) hleave, hstate⟩

end Gamebook
