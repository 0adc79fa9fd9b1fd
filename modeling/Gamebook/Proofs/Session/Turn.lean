import Gamebook.Proofs.Session.Countdown
import Gamebook.Proofs.Session.History
import Gamebook.Session.Basic

/-!
# Everything a call can do

`Turn w s c kinds s'` lists what the call `c` can do to a state `s`: the events
it records, in order, and the state `s'` it leaves, each with what must hold
for it.  A call takes one turn (`perform_turn`), so an invariant of sessions
is checked turn by turn, and no later proof looks into a call.

Inputs come in three kinds.  Most ask for an action, some of them only on a
certain screen (`Input.action?`); an action leads to a screen
(`Action.leadsTo?`), asks for a book (`Action.request?`) or does what the state
plans.  The others pick an option of an open menu (`Input.pick?`) or scroll.
-/

namespace Gamebook

/-! ### What an input asks for -/

/-- The screen that a plan moves to. -/
def Plan.leadsTo? : Plan → Option String
  | goTo id => some id
  | dispatch (.navigate id) => some id
  | _ => none

/-- The screen that an action moves to in this state. -/
def Action.leadsTo? (s : State) : Action → Option String
  | navigate id => some id
  | advance => (Plan.ofState s).leadsTo?
  | loadBook _ => none

namespace Input

/-- The action that an input asks for. -/
def action? (s : State) : Input → Option Action
  | advance => some .advance
  | navigate id => some (.navigate id)
  | runAction action => some action
  | press index => Session.buttonAction? s index
  | load locator => some (.loadBook locator)
  | _ => none

/-- The index that an input picks from the open menu, and whether that menu is timed. -/
def pick? (s : State) : Input → Option (Nat × Bool)
  | choose index => if s.mode = .choice then some (index, false) else none
  | chooseTimed index => if s.mode = .timed then some (index, true) else none
  | select index =>
    match s.mode with
    | .choice => some (index, false)
    | .timed => some (index, true)
    | _ => none
  | _ => none

/-- Whether an input picks an option, of whichever menu. -/
def picks : Input → Bool
  | choose _ | chooseTimed _ | select _ => true
  | _ => false

theorem mode_of_pick {s : State} {i : Input} {index : Nat} {timed : Bool}
    (hi : i.pick? s = some (index, timed)) : s.mode = if timed then .timed else .choice := by
  cases i with
  | choose picked =>
    obtain ⟨hmode, hpick⟩ := Option.ite_none_right_eq_some.1 hi
    obtain ⟨_, rfl⟩ := Prod.mk.inj (Option.some.inj hpick)
    exact hmode
  | chooseTimed picked =>
    obtain ⟨hmode, hpick⟩ := Option.ite_none_right_eq_some.1 hi
    obtain ⟨_, rfl⟩ := Prod.mk.inj (Option.some.inj hpick)
    exact hmode
  | select picked =>
    unfold pick? at hi
    cases hmode : s.mode with
    | choice =>
      rw [hmode] at hi
      obtain ⟨_, rfl⟩ := Prod.mk.inj (Option.some.inj hi)
      rfl
    | timed =>
      rw [hmode] at hi
      obtain ⟨_, rfl⟩ := Prod.mk.inj (Option.some.inj hi)
      rfl
    | _ => rw [hmode] at hi; nomatch hi
  | _ => nomatch hi

theorem timed_of_pick {s : State} {i : Input} {index : Nat} {timed : Bool}
    (hi : i.pick? s = some (index, timed)) : timed = decide (s.mode = .timed) := by
  rw [mode_of_pick hi]
  cases timed <;> rfl

theorem request?_eq (s : State) (i : Input) :
    i.request? s = (i.action? s).bind (Action.request? s) := by
  cases i <;> rfl

end Input

/-- The option of this index in the timed or the plain menu of the screen. -/
def State.option? (s : State) (index : Nat) (timed : Bool) : Option Choice :=
  if timed then Session.timedOption? s index
  else s.screen?.bind fun screen => screen.choiceSet[index]?

/-- The timed option of this index leads to a screen of the book, or there is none that does. -/
theorem State.picks_or_not (s : State) (index : Nat) :
    (∃ option, s.option? index true = some option ∧ s.defines option.next = true) ∨
      ∀ option, s.option? index true = some option → s.defines option.next = false := by
  cases hoption : s.option? index true with
  | none => exact Or.inr nofun
  | some option =>
    cases hnext : s.defines option.next with
    | true => exact Or.inl ⟨option, rfl, hnext⟩
    | false =>
      refine Or.inr fun other hother => ?_
      obtain rfl := Option.some.inj hother
      exact hnext

/-! ### Turns -/

/-- What the call `c` can do to a state, with the events it records. -/
inductive Turn (w : Outside) (s : State) : Call → List EventKind → State → Prop
  | ignored (c : Call) : Turn w s c [] s
  | scrolled (delta offset : Float) :
      Turn w s (.input (.scroll delta)) [] { s with scrollOffset := offset }
  | nextLine {i : Input} (hi : i.action? s = some .advance) (hplan : Plan.ofState s = .nextLine) :
      Turn w s (.input i) [.dialogueAdvanced s.activeId (s.dialogueIndex + 1)]
        { s with dialogueIndex := s.dialogueIndex + 1 }
  | menuOpened {i : Input} {screen : Screen} (hi : i.action? s = some .advance)
      (hplan : Plan.ofState s = .openChoices) (hscreen : s.screen? = some screen) :
      Turn w s (.input i) [.choicesPresented s.activeId screen.choiceSet.length]
        { s with menuOpen := true }
  | countdownStarted {i : Input} {t : TimedChoices} (hi : i.action? s = some .advance)
      (hplan : Plan.ofState s = .startCountdown t) :
      Turn w s (.input i) [.countdownStarted s.activeId t.duration t.defaultIndex.toNat]
        { s with countdown := s.countdown.start s.activeId t }
  | entered {i : Input} {a : Action} {id : String} (hi : i.action? s = some a)
      (ha : a.leadsTo? s = some id) (hid : s.defines id = true) :
      Turn w s (.input i) [.screenEntered id] (s.place id)
  | loaded {i : Input} {locator text : String} {book : Book} (hi : i.request? s = some locator)
      (hfetch : w.fetch locator = .ok text) (hdecode : Book.decode locator text = .ok book) :
      Turn w s (.input i)
        [.bookLoaded locator book.start book.screens.size (versionHash text),
          .screenEntered book.start]
        (s.adopt book)
  | picked {i : Input} {index : Nat} {timed : Bool} {option : Choice}
      (hi : i.pick? s = some (index, timed)) (hoption : s.option? index timed = some option)
      (hnext : s.defines option.next = true) :
      Turn w s (.input i)
        [.choiceMade s.activeId index option.next timed, .screenEntered option.next]
        (s.place option.next)
  | ticked {r : Running} (hr : s.countdown.running = some r) (hlast : 1 < r.remaining) :
      Turn w s .tick [.countdownTicked s.activeId (r.remaining - 1)]
        { s with countdown :=
          { s.countdown with running := some { r with remaining := r.remaining - 1 } } }
  | expired {r : Running} (hr : s.countdown.running = some r) (hlast : r.remaining ≤ 1)
      (hidle : s.screenId = some r.owner → ∀ option, s.option? r.defaultIndex true = some option →
        s.defines option.next = false) :
      Turn w s .tick [.countdownExpired r.owner r.defaultIndex]
        { s with countdown := s.countdown.cancel }
  | defaulted {r : Running} {option : Choice} (hr : s.countdown.running = some r)
      (hlast : r.remaining ≤ 1) (howner : s.screenId = some r.owner)
      (hoption : s.option? r.defaultIndex true = some option)
      (hnext : s.defines option.next = true) :
      Turn w s .tick
        [.countdownExpired r.owner r.defaultIndex,
          .choiceMade s.activeId r.defaultIndex option.next true, .screenEntered option.next]
        (s.place option.next)

namespace Session

/-- The pending events without their numbers. -/
def kinds (s : Session) : List EventKind := s.pending.map (·.kind)

@[simp] theorem state_beginCall (s : Session) : s.beginCall.state = s.state := rfl

@[simp] theorem kinds_record (w : Outside) (kind : EventKind) (s : Session) :
    (s.record w kind).kinds = s.kinds ++ [kind] := by
  simp [kinds, record]

theorem announce_of_screenId {s : Session} {id : String} (w : Outside)
    (h : s.state.screenId = some id) :
    (s.announce w).kinds = s.kinds ++ [.screenEntered id] ∧ (s.announce w).state = s.state := by
  unfold announce
  rw [h]
  exact ⟨kinds_record .., rfl⟩

theorem enter_of_defines {s : Session} {id : String} (w : Outside)
    (h : s.state.defines id = true) :
    (s.enter w id).1.kinds = s.kinds ++ [.screenEntered id] ∧
      (s.enter w id).1.state = s.state.place id := by
  unfold enter
  rw [if_pos h]
  exact announce_of_screenId w rfl

theorem enter_of_not_defines {s : Session} {id : String} (w : Outside)
    (h : s.state.defines id = false) : s.enter w id = (s, false) := by
  unfold enter
  rw [if_neg (by simp [h])]

theorem swapIn_of_decode {w : Outside} {s : Session} {locator text : String} {book : Book}
    (hfetch : w.fetch locator = .ok text) (hdecode : Book.decode locator text = .ok book) :
    (s.swapIn w locator).1.kinds =
        s.kinds ++ [.bookLoaded locator book.start book.screens.size (versionHash text),
          .screenEntered book.start] ∧
      (s.swapIn w locator).1.state = s.state.adopt book := by
  unfold swapIn
  simp only [hfetch, hdecode]
  let loaded := EventKind.bookLoaded locator book.start book.screens.size (versionHash text)
  let adopted : Session := { s with fetched := s.fetched ++ [locator], state := s.state.adopt book }
  have hid : (adopted.record w loaded).state.screenId = some book.start := rfl
  obtain ⟨hkinds, hstate⟩ := announce_of_screenId w hid
  refine ⟨?_, hstate⟩
  rw [hkinds, kinds_record, List.append_assoc]
  rfl

theorem resolve_of_defines {s : Session} {next : String} (w : Outside) (index : Nat)
    (timed : Bool) (h : s.state.defines next = true) :
    (s.resolve w index next timed).1.kinds =
        s.kinds ++ [.choiceMade s.state.activeId index next timed, .screenEntered next] ∧
      (s.resolve w index next timed).1.state = s.state.place next := by
  unfold resolve
  rw [if_pos h]
  have hdefines : (s.record w (.choiceMade s.state.activeId index next timed)).state.defines next =
      true := h
  obtain ⟨hkinds, hstate⟩ := enter_of_defines w hdefines
  refine ⟨?_, hstate⟩
  rw [hkinds, kinds_record, List.append_assoc]
  rfl

theorem resolve_of_not_defines {s : Session} {next : String} (w : Outside) (index : Nat)
    (timed : Bool) (h : s.state.defines next = false) :
    s.resolve w index next timed = (s, false) := by
  unfold resolve
  rw [if_neg (by simp [h])]

/-- Picks the option of this index from the timed or the plain menu of the screen. -/
def pick (w : Outside) (index : Nat) (timed : Bool) (s : Session) : Session × Bool :=
  match s.state.option? index timed with
  | some option => s.resolve w index option.next timed
  | none => (s, false)

/-- A pick whose option leads to a screen of the book. -/
theorem pick_of_defines {s : Session} {index : Nat} {timed : Bool} {option : Choice} (w : Outside)
    (hoption : s.state.option? index timed = some option)
    (hnext : s.state.defines option.next = true) :
    (s.pick w index timed).1.kinds =
        s.kinds ++ [.choiceMade s.state.activeId index option.next timed,
          .screenEntered option.next] ∧
      (s.pick w index timed).1.state = s.state.place option.next := by
  unfold pick
  rw [hoption]
  exact resolve_of_defines w index timed hnext

/-- A pick that leads nowhere. -/
theorem pick_of_not_defines {s : Session} {index : Nat} {timed : Bool} (w : Outside)
    (h : ∀ option, s.state.option? index timed = some option →
      s.state.defines option.next = false) : s.pick w index timed = (s, false) := by
  unfold pick
  cases hoption : s.state.option? index timed with
  | none => rfl
  | some option => exact resolve_of_not_defines w index timed (h option hoption)

theorem pickTimed_of_defines {s : Session} {index : Nat} {option : Choice} (w : Outside)
    (hoption : s.state.option? index true = some option)
    (hnext : s.state.defines option.next = true) :
    (s.pickTimed w index).1.kinds =
        s.kinds ++ [.choiceMade s.state.activeId index option.next true,
          .screenEntered option.next] ∧
      (s.pickTimed w index).1.state = s.state.place option.next :=
  pick_of_defines w hoption hnext

theorem pickTimed_of_not_defines {s : Session} {index : Nat} (w : Outside)
    (h : ∀ option, s.state.option? index true = some option →
      s.state.defines option.next = false) : s.pickTimed w index = (s, false) :=
  pick_of_not_defines w h

/-! ### What a pick answers -/

section Answers

variable (w : Outside) (s : Session) (index : Nat)

theorem enter_answer (id : String) : (s.enter w id).2 = s.state.defines id := by
  cases hid : s.state.defines id with
  | false => rw [enter_of_not_defines w hid]
  | true =>
    unfold enter
    rw [if_pos hid]

theorem resolve_answer (next : String) (timed : Bool) :
    (s.resolve w index next timed).2 = s.state.defines next := by
  cases hnext : s.state.defines next with
  | false => rw [resolve_of_not_defines w index timed hnext]
  | true =>
    unfold resolve
    rw [if_pos hnext, enter_answer]
    exact hnext

theorem pick_answer_iff (timed : Bool) :
    (s.pick w index timed).2 = true ↔ ∃ option, s.state.option? index timed = some option ∧
      s.state.defines option.next = true := by
  unfold pick
  cases s.state.option? index timed with
  | none => simp
  | some option => simp [resolve_answer]

theorem pick_of_not_heeded {timed : Bool} (h : (s.pick w index timed).2 = false) :
    s.pick w index timed = (s, false) := by
  refine pick_of_not_defines w fun option hoption => ?_
  cases hnext : s.state.defines option.next with
  | false => rfl
  | true =>
    have hheeded := (pick_answer_iff w s index timed).2 ⟨option, hoption, hnext⟩
    rw [h] at hheeded
    nomatch hheeded

theorem choose_eq :
    s.choose w index =
      if s.state.mode = .choice then s.beginCall.pick w index false else (s.beginCall, false) :=
  rfl

theorem chooseTimed_eq :
    s.chooseTimed w index =
      if s.state.mode = .timed then s.beginCall.pick w index true else (s.beginCall, false) :=
  rfl

theorem choose_answer_iff :
    (s.choose w index).2 = true ↔ s.state.mode = .choice ∧
      ∃ option, s.state.option? index false = some option ∧
        s.state.defines option.next = true := by
  rw [choose_eq]
  split <;> rename_i hmode
  · rw [pick_answer_iff, and_iff_right hmode, state_beginCall]
  · exact iff_of_false Bool.false_ne_true fun h => hmode h.1

theorem chooseTimed_answer_iff :
    (s.chooseTimed w index).2 = true ↔ s.state.mode = .timed ∧
      ∃ option, s.state.option? index true = some option ∧
        s.state.defines option.next = true := by
  rw [chooseTimed_eq]
  split <;> rename_i hmode
  · rw [pick_answer_iff, and_iff_right hmode, state_beginCall]
  · exact iff_of_false Bool.false_ne_true fun h => hmode h.1

end Answers

/-! ### A call takes one turn -/

/-- The session `t` is `s` after one turn of the call `c`. -/
def Turned (w : Outside) (s : Session) (c : Call) (t : Session) : Prop :=
  ∃ kinds, t.kinds = s.kinds ++ kinds ∧ Turn w s.state c kinds t.state

theorem Turned.ignored {w : Outside} {s t : Session} {c : Call} (hkinds : t.kinds = s.kinds)
    (hstate : t.state = s.state) : Turned w s c t :=
  ⟨[], by simp [hkinds], by rw [hstate]; exact .ignored c⟩

section Inputs

variable {w : Outside} {s : Session} {i : Input}

/-- An input that asks for an action runs it.  Only the answer of a move to a screen is its own. -/
theorem handle_of_action {a : Action} (hi : i.action? s.state = some a)
    (hmove : ∀ id, i ≠ .navigate id) : s.handle w i = unitAnswer (s.runAction w a) := by
  cases i with
  | advance =>
    obtain rfl := Option.some.inj hi
    rfl
  | runAction action =>
    obtain rfl := Option.some.inj hi
    rfl
  | load locator =>
    obtain rfl := Option.some.inj hi
    rfl
  | press index =>
    have haction : buttonAction? s.state index = some a := hi
    change s.press w index = _
    unfold press
    rw [haction]
    rfl
  | navigate id => exact absurd rfl (hmove id)
  | _ => nomatch hi

/-- An input that asks to advance does what is planned. -/
theorem handle_advance (hi : i.action? s.state = some .advance) :
    s.handle w i = unitAnswer (s.beginCall.carryOut w (Plan.ofState s.state)) := by
  refine handle_of_action hi fun id hid => ?_
  subst hid
  nomatch Option.some.inj hi

/-- An input that picks from the menu on the screen begins a call and picks. -/
theorem handle_of_pick {index : Nat} {timed : Bool} (hi : i.pick? s.state = some (index, timed)) :
    s.handle w i = boolAnswer (s.beginCall.pick w index timed) := by
  cases i with
  | choose picked =>
    obtain ⟨hmode, hpick⟩ := Option.ite_none_right_eq_some.1 hi
    obtain ⟨rfl, rfl⟩ := Prod.mk.inj (Option.some.inj hpick)
    change boolAnswer (s.choose w picked) = _
    rw [choose_eq, if_pos hmode]
  | chooseTimed picked =>
    obtain ⟨hmode, hpick⟩ := Option.ite_none_right_eq_some.1 hi
    obtain ⟨rfl, rfl⟩ := Prod.mk.inj (Option.some.inj hpick)
    change boolAnswer (s.chooseTimed w picked) = _
    rw [chooseTimed_eq, if_pos hmode]
  | select picked =>
    change boolAnswer (s.select w picked) = _
    unfold Input.pick? at hi
    unfold select
    cases hmode : s.state.mode with
    | choice =>
      rw [hmode] at hi
      obtain ⟨rfl, rfl⟩ := Prod.mk.inj (Option.some.inj hi)
      dsimp only
      rw [choose_eq, if_pos hmode]
    | timed =>
      rw [hmode] at hi
      obtain ⟨rfl, rfl⟩ := Prod.mk.inj (Option.some.inj hi)
      dsimp only
      rw [chooseTimed_eq, if_pos hmode]
    | _ => rw [hmode] at hi; nomatch hi
  | _ => nomatch hi

/-- Without such a menu it is ignored. -/
theorem handle_of_no_pick (hpicks : i.picks = true) (hi : i.pick? s.state = none) :
    ∃ call, s.handle w i = ({ s with call }, .ok false) := by
  cases i with
  | choose picked =>
    have hmode : s.state.mode ≠ .choice := by simpa [Input.pick?] using hi
    refine ⟨s.call + 1, ?_⟩
    change boolAnswer (s.choose w picked) = _
    rw [choose_eq, if_neg hmode]
    rfl
  | chooseTimed picked =>
    have hmode : s.state.mode ≠ .timed := by simpa [Input.pick?] using hi
    refine ⟨s.call + 1, ?_⟩
    change boolAnswer (s.chooseTimed w picked) = _
    rw [chooseTimed_eq, if_neg hmode]
    rfl
  | select picked =>
    refine ⟨s.call, ?_⟩
    change boolAnswer (s.select w picked) = _
    unfold Input.pick? at hi
    unfold select
    cases hmode : s.state.mode with
    | choice => rw [hmode] at hi; nomatch hi
    | timed => rw [hmode] at hi; nomatch hi
    | _ => rfl
  | _ => nomatch hpicks

theorem enter_turned {a : Action} {id : String} (hi : i.action? s.state = some a)
    (ha : a.leadsTo? s.state = some id) : Turned w s (.input i) (s.enter w id).1 := by
  cases hid : s.state.defines id with
  | false =>
    rw [enter_of_not_defines w hid]
    exact .ignored rfl rfl
  | true =>
    obtain ⟨hkinds, hstate⟩ := enter_of_defines w hid
    exact ⟨_, hkinds, hstate ▸ .entered hi ha hid⟩

theorem swapIn_turned {locator : String} (hi : i.request? s.state = some locator) :
    Turned w s (.input i) (s.swapIn w locator).1 := by
  cases hfetch : w.fetch locator with
  | error e =>
    unfold swapIn
    rw [hfetch]
    exact .ignored rfl rfl
  | ok text =>
    cases hdecode : Book.decode locator text with
    | error e =>
      unfold swapIn
      simp only [hfetch, hdecode]
      exact .ignored rfl rfl
    | ok book =>
      obtain ⟨hkinds, hstate⟩ := swapIn_of_decode (s := s) hfetch hdecode
      exact ⟨_, hkinds, hstate ▸ .loaded hi hfetch hdecode⟩

theorem carryOut_turned (hi : i.action? s.state = some .advance) :
    Turned w s (.input i) (s.step w).1 := by
  unfold step
  cases hplan : Plan.ofState s.state with
  | nextLine => exact ⟨_, kinds_record .., .nextLine hi hplan⟩
  | openChoices =>
    cases hscreen : s.state.screen? with
    | none => simp [Plan.ofState, hscreen] at hplan
    | some screen =>
      refine ⟨_, kinds_record .., ?_⟩
      rw [hscreen]
      exact .menuOpened hi hplan hscreen
  | startCountdown t => exact ⟨_, kinds_record .., .countdownStarted hi hplan⟩
  | goTo id => exact enter_turned hi (by simp [Action.leadsTo?, Plan.leadsTo?, hplan])
  | stay => exact .ignored rfl rfl
  | dispatch action =>
    cases action with
    | navigate id => exact enter_turned hi (by simp [Action.leadsTo?, Plan.leadsTo?, hplan])
    | loadBook path =>
      refine swapIn_turned ?_
      rw [Input.request?_eq, hi]
      simp [Action.request?, Plan.request?, hplan]
    | advance => exact .ignored rfl rfl

theorem runAction_turned {a : Action} (hi : i.action? s.state = some a) :
    Turned w s (.input i) (s.runAction w a).1 := by
  cases a with
  | navigate id => exact enter_turned (s := s.beginCall) hi rfl
  | loadBook path =>
    refine swapIn_turned (s := s.beginCall) ?_
    rw [Input.request?_eq, state_beginCall, hi]
    rfl
  | advance => exact carryOut_turned (s := s.beginCall) hi

theorem pick_turned (hpicks : i.picks = true) : Turned w s (.input i) (s.handle w i).1 := by
  cases hi : i.pick? s.state with
  | none =>
    obtain ⟨call, hignored⟩ := handle_of_no_pick (w := w) hpicks hi
    rw [hignored]
    exact .ignored rfl rfl
  | some picked =>
    obtain ⟨index, timed⟩ := picked
    rw [handle_of_pick hi]
    cases hheeded : (s.beginCall.pick w index timed).2 with
    | true =>
      obtain ⟨option, hoption, hnext⟩ := (pick_answer_iff w s.beginCall index timed).1 hheeded
      obtain ⟨hkinds, hstate⟩ := pick_of_defines w hoption hnext
      exact ⟨_, hkinds, hstate ▸ .picked hi hoption hnext⟩
    | false =>
      rw [pick_of_not_heeded w s.beginCall index hheeded]
      exact .ignored rfl rfl

theorem handle_turned (w : Outside) (s : Session) (i : Input) :
    Turned w s (.input i) (s.handle w i).1 := by
  cases i with
  | advance => exact carryOut_turned (s := s.beginCall) rfl
  | choose index => exact pick_turned rfl
  | chooseTimed index => exact pick_turned rfl
  | select index => exact pick_turned rfl
  | navigate id => exact enter_turned (s := s.beginCall) rfl rfl
  | runAction action => exact runAction_turned rfl
  | press index =>
    change Turned w s _ (s.press w index).1
    unfold press
    cases haction : buttonAction? s.state index with
    | none => exact .ignored rfl rfl
    | some action => exact runAction_turned haction
  | scroll delta =>
    change Turned w s _ (s.scroll delta).1
    unfold scroll
    cases s.state.screen? with
    | none => exact .ignored rfl rfl
    | some screen => exact ⟨[], by simp [kinds], .scrolled delta _⟩
  | load locator => exact swapIn_turned (s := s.beginCall) rfl

end Inputs

/-! ### Ticks -/

theorem tick_of_idle {s : Session} (w : Outside) (h : s.state.countdown.running = none) :
    s.tick w = (s.beginCall, false) := by
  simp [tick, Countdown.tick_of_idle h, beginCall]

theorem tick_of_more {s : Session} {r : Running} (w : Outside)
    (hr : s.state.countdown.running = some r) (hlast : 1 < r.remaining) :
    s.tick w =
      ({ s.beginCall with state := { s.state with countdown :=
          { s.state.countdown with running := some { r with remaining := r.remaining - 1 } } }
        }.record w (.countdownTicked s.state.activeId (r.remaining - 1)), true) := by
  simp only [tick, state_beginCall, Countdown.tick_of_more hr hlast]
  rfl

/-- The session in which an expired countdown picks its option. -/
def expire (w : Outside) (r : Running) (s : Session) : Session :=
  { s.beginCall with state := { s.state with countdown := s.state.countdown.cancel } }.record w
    (.countdownExpired r.owner r.defaultIndex)

theorem tick_of_last {s : Session} {r : Running} (w : Outside)
    (hr : s.state.countdown.running = some r) (hlast : r.remaining ≤ 1) :
    s.tick w =
      (if s.state.screenId = some r.owner then ((s.expire w r).pickTimed w r.defaultIndex).1
        else s.expire w r, true) := by
  simp only [tick, state_beginCall, Countdown.tick_of_last hr hlast]
  split <;> rename_i h
  · rw [if_pos (by exact h)]
    rfl
  · rw [if_neg (by exact h)]
    rfl

theorem expire_turned {w : Outside} {s : Session} {r : Running}
    (hr : s.state.countdown.running = some r) (hlast : r.remaining ≤ 1)
    (howner : s.state.screenId = some r.owner) :
    Turned w s .tick ((s.expire w r).pickTimed w r.defaultIndex).1 := by
  have hkinds : (s.expire w r).kinds = s.kinds ++ [.countdownExpired r.owner r.defaultIndex] :=
    kinds_record ..
  rcases s.state.picks_or_not r.defaultIndex with ⟨option, hoption, hnext⟩ | hnone
  · obtain ⟨hpicked, hstate⟩ := pickTimed_of_defines w (s := s.expire w r) hoption hnext
    refine ⟨[.countdownExpired r.owner r.defaultIndex,
      .choiceMade s.state.activeId r.defaultIndex option.next true,
      .screenEntered option.next], ?_, ?_⟩
    · rw [hpicked, hkinds, List.append_assoc]
      rfl
    · rw [hstate]
      exact .defaulted hr hlast howner hoption hnext
  · rw [pickTimed_of_not_defines w (s := s.expire w r) hnone]
    exact ⟨_, hkinds, .expired hr hlast fun _ => hnone⟩

theorem tick_turned (w : Outside) (s : Session) : Turned w s .tick (s.tick w).1 := by
  cases hr : s.state.countdown.running with
  | none =>
    rw [tick_of_idle w hr]
    exact .ignored rfl rfl
  | some r =>
    by_cases hlast : 1 < r.remaining
    · rw [tick_of_more w hr hlast]
      exact ⟨_, kinds_record .., .ticked hr hlast⟩
    · rw [tick_of_last w hr (by omega)]
      by_cases howner : s.state.screenId = some r.owner
      · rw [if_pos howner]
        exact expire_turned hr (by omega) howner
      · rw [if_neg howner]
        exact ⟨_, kinds_record .., .expired hr (by omega) fun h => absurd h howner⟩

theorem perform_turned (w : Outside) (s : Session) (c : Call) :
    Turned w s c (s.perform w c).1 := by
  cases c with
  | input i => exact handle_turned w s i
  | tick => exact tick_turned w s

theorem kinds_perform (w : Outside) (s : Session) (c : Call) :
    (s.perform w c).1.kinds = s.kinds ++ (s.recorded w c).map (·.kind) := by
  simp [kinds, pending_perform]

theorem map_kind_recorded {w : Outside} {s : Session} {c : Call} {kinds : List EventKind}
    (h : (s.perform w c).1.kinds = s.kinds ++ kinds) : (s.recorded w c).map (·.kind) = kinds := by
  rw [kinds_perform] at h
  exact List.append_cancel_left h

/-- **A call takes one turn**, which records just what the call records. -/
theorem perform_turn (w : Outside) (s : Session) (c : Call) :
    Turn w s.state c ((s.recorded w c).map (·.kind)) (s.perform w c).1.state := by
  obtain ⟨kinds, hkinds, hturn⟩ := perform_turned w s c
  rwa [map_kind_recorded hkinds]

/-- **A pick from the menu on the screen**, of an option that leads to a screen of the book. -/
theorem perform_of_pick {w : Outside} {s : Session} {i : Input} {index : Nat} {timed : Bool}
    {option : Choice} (hi : i.pick? s.state = some (index, timed))
    (hoption : s.state.option? index timed = some option)
    (hnext : s.state.defines option.next = true) :
    (s.perform w (.input i)).2 = .ok true ∧
      (s.perform w (.input i)).1.state = s.state.place option.next ∧
      (s.recorded w (.input i)).map (·.kind) =
        [.choiceMade s.state.activeId index option.next timed, .screenEntered option.next] := by
  have hperform : s.perform w (.input i) = boolAnswer (s.beginCall.pick w index timed) :=
    handle_of_pick hi
  obtain ⟨hkinds, hstate⟩ := pick_of_defines w (s := s.beginCall) hoption hnext
  have hanswer := (pick_answer_iff w s.beginCall index timed).2 ⟨option, hoption, hnext⟩
  have hsession : (s.perform w (.input i)).1 = (s.beginCall.pick w index timed).1 :=
    congrArg Prod.fst hperform
  rw [← hsession] at hkinds hstate
  refine ⟨?_, hstate, map_kind_recorded hkinds⟩
  rw [hperform]
  exact congrArg Except.ok hanswer

/-! ### What a run records -/

/-- The events that the calls of a run record, without their numbers. -/
def logged (s : Session) : List (Outside × Call) → List EventKind
  | [] => []
  | (w, c) :: rest => (s.recorded w c).map (·.kind) ++ (s.perform w c).1.logged rest

theorem kinds_run (s : Session) (calls : List (Outside × Call)) :
    (s.run calls).kinds = s.kinds ++ s.logged calls := by
  induction calls generalizing s with
  | nil => exact (List.append_nil _).symm
  | cons c rest ih =>
    rw [run_cons, ih, kinds_perform, List.append_assoc]
    rfl

theorem logged_append (s : Session) (first last : List (Outside × Call)) :
    s.logged (first ++ last) = s.logged first ++ (s.run first).logged last := by
  have hrun := kinds_run s (first ++ last)
  rw [run_append, kinds_run, kinds_run, List.append_assoc] at hrun
  exact (List.append_cancel_left hrun).symm

theorem logged_concat (s : Session) (calls : List (Outside × Call)) (w : Outside) (c : Call) :
    s.logged (calls ++ [(w, c)]) =
      s.logged calls ++ ((s.run calls).recorded w c).map (·.kind) := by
  rw [logged_append]
  exact congrArg (s.logged calls ++ ·) (List.append_nil _)

end Session

end Gamebook
