import Gamebook.Proofs.Session.FailedLoad
import Gamebook.Proofs.Session.Menu

/-!
# One step for each call, and told as it is

A call makes one step at most: the events it records have one of ten shapes
(`Tag.shapes`), and some of them tell what call it was
(`Turn.cause_of_choiceMade`, `Turn.eq_tick`).  What advancing records is settled
before, by the plan and by what is found outside (`Plan.shape`,
`map_tag_advance`).

What an event says is true of the states before and after the call
(`EventKind.Truthful`).  Most of it holds of every turn; that an expired countdown
was down to its last second and belonged to the screen needs that the state
before is coherent (`Turn.truthful`).
-/

namespace Gamebook

/-! ### Shapes -/

/-- What one call can record. -/
def EventKind.Tag.shapes : List (List Tag) :=
  [[], [dialogueAdvanced], [choicesPresented], [countdownStarted], [countdownTicked],
    [countdownExpired], [screenEntered], [bookLoaded, screenEntered], [choiceMade, screenEntered],
    [countdownExpired, choiceMade, screenEntered]]

namespace Turn

variable {w : Outside} {s s' : State} {c : Call} {kinds : List EventKind}

theorem shape (ht : Turn w s c kinds s') : kinds.map (·.tag) ∈ EventKind.Tag.shapes := by
  cases ht with
  | _ => simp [EventKind.Tag.shapes, EventKind.tag]

theorem cause_of_choiceMade {screen next : String} {index : Nat} {timed : Bool}
    (ht : Turn w s c kinds s') (h : .choiceMade screen index next timed ∈ kinds) :
    (∃ i, c = .input i ∧ i.pick? s = some (index, timed)) ∨
      c = .tick ∧ timed = true ∧ .countdownExpired screen index ∈ kinds := by
  cases ht with
  | picked hi =>
    obtain ⟨_, rfl, _, rfl⟩ : _ ∧ index = _ ∧ _ ∧ timed = _ := by simpa using h
    exact Or.inl ⟨_, rfl, hi⟩
  | defaulted _ _ howner =>
    obtain ⟨rfl, rfl, _, rfl⟩ : screen = _ ∧ index = _ ∧ _ ∧ timed = _ := by simpa using h
    rw [State.activeId_of_screenId howner]
    exact Or.inr ⟨rfl, rfl, List.mem_cons_self⟩
  | _ => simp at h

theorem eq_tick (ht : Turn w s c kinds s')
    (h : .countdownTicked ∈ kinds.map (·.tag) ∨ .countdownExpired ∈ kinds.map (·.tag)) :
    c = .tick := by
  cases ht with
  | ticked => rfl
  | expired => rfl
  | defaulted => rfl
  | _ => simp [EventKind.tag] at h

end Turn

/-- What carrying out a plan will record. -/
def Plan.shape (w : Outside) (s : State) : Plan → List EventKind.Tag
  | nextLine => [.dialogueAdvanced]
  | openChoices => [.choicesPresented]
  | startCountdown _ => [.countdownStarted]
  | dispatch (.navigate id) | goTo id => if s.defines id then [.screenEntered] else []
  | dispatch (.loadBook path) =>
    match w.book path with
    | .ok _ => [.bookLoaded, .screenEntered]
    | .error _ => []
  | dispatch .advance | stay => []

namespace Session

variable {w : Outside} {s : Session}

theorem kinds_enter (id : String) :
    (s.enter w id).1.kinds = s.kinds ++ if s.state.defines id then [.screenEntered id] else [] := by
  cases hid : s.state.defines id with
  | true => exact (enter_of_defines w hid).1
  | false =>
    rw [enter_of_not_defines w hid]
    exact (List.append_nil _).symm

theorem exists_kinds_swapIn (locator : String) :
    ∃ kinds, (s.swapIn w locator).1.kinds = s.kinds ++ kinds ∧
      kinds.map (·.tag) = (Plan.dispatch (.loadBook locator)).shape w s.state := by
  cases hbook : w.book locator with
  | error e =>
    rw [swapIn_of_error hbook]
    exact ⟨[], (List.append_nil _).symm, by simp only [Plan.shape, hbook, List.map_nil]⟩
  | ok book =>
    obtain ⟨text, hfetch, hdecode⟩ := Outside.exists_text_of_book hbook
    refine ⟨_, (swapIn_of_decode hfetch hdecode).1, ?_⟩
    simp only [Plan.shape, hbook, List.map_cons, List.map_nil, EventKind.tag]

/-- **A plan that is carried out records what it announced.** -/
theorem exists_kinds_carryOut (plan : Plan) :
    ∃ kinds, (s.carryOut w plan).1.kinds = s.kinds ++ kinds ∧
      kinds.map (·.tag) = plan.shape w s.state := by
  have henter (id : String) : ∃ kinds, (s.enter w id).1.kinds = s.kinds ++ kinds ∧
      kinds.map (·.tag) = (Plan.goTo id).shape w s.state := by
    refine ⟨_, kinds_enter id, ?_⟩
    simp only [Plan.shape]
    split <;> rfl
  cases plan with
  | nextLine => exact ⟨_, kinds_record .., rfl⟩
  | openChoices => exact ⟨_, kinds_record .., rfl⟩
  | startCountdown t => exact ⟨_, kinds_record .., rfl⟩
  | goTo id => exact henter id
  | stay => exact ⟨[], (List.append_nil _).symm, rfl⟩
  | dispatch action =>
    cases action with
    | navigate id => exact henter id
    | loadBook path => exact exists_kinds_swapIn path
    | advance => exact ⟨[], (List.append_nil _).symm, rfl⟩

/-- **Advancing records what was planned**, on whichever route it is asked for. -/
theorem map_tag_advance {i : Input} (hi : i.action? s.state = some .advance) :
    (s.recorded w (.input i)).map (·.kind.tag) = (Plan.ofState s.state).shape w s.state := by
  obtain ⟨kinds, hkinds, hshape⟩ :=
    exists_kinds_carryOut (w := w) (s := s.beginCall) (Plan.ofState s.state)
  have hperform : (s.perform w (.input i)).1 =
      (s.beginCall.carryOut w (Plan.ofState s.state)).1 := congrArg Prod.fst (handle_advance hi)
  rw [← hperform] at hkinds
  rw [← map_kind_recorded hkinds, List.map_map] at hshape
  exact hshape

end Session

/-! ### Truth -/

/-- What the event says is true of a call that leads from the state `s` to `s'`. -/
def EventKind.Truthful (w : Outside) (s s' : State) : EventKind → Prop
  | bookLoaded locator start count hash =>
    ∃ text book, w.fetch locator = .ok text ∧ Book.decode locator text = .ok book ∧
      s'.book = some book ∧ start = book.start ∧ count = book.screens.size ∧
      hash = versionHash text
  | screenEntered screen => s'.screenId = some screen ∧ s'.AtTop
  | dialogueAdvanced screen index =>
    s.screenId = some screen ∧ index = s.dialogueIndex + 1 ∧ s'.dialogueIndex = index ∧
      ∃ active, s.screen? = some active ∧ index < active.lines.length
  | choicesPresented screen count =>
    s.screenId = some screen ∧ s'.mode = .choice ∧ count = (View.ofState s').choices.length
  | countdownStarted screen seconds defaultIndex =>
    s.screenId = some screen ∧ ∃ active t, s.screen? = some active ∧
      active.timedChoices = some t ∧ seconds = t.duration ∧
      defaultIndex = t.defaultIndex.toNat ∧
      s'.countdown.running = some ⟨screen, seconds, defaultIndex⟩
  | countdownTicked screen remaining =>
    s.screenId = some screen ∧ 0 < remaining ∧ ∃ r, s.countdown.running = some r ∧
      r.owner = screen ∧ r.remaining = remaining + 1 ∧
      s'.countdown.running = some { r with remaining }
  | countdownExpired screen defaultIndex =>
    s.screenId = some screen ∧ s.countdown.running = some ⟨screen, 1, defaultIndex⟩ ∧
      s'.countdown.running = none
  | choiceMade screen index next timed =>
    s.screenId = some screen ∧ (∃ option, s.offered[index]? = some option ∧ option.next = next) ∧
      (timed = true ↔ s.mode = .timed) ∧ s.defines next = true ∧ s'.screenId = some next

namespace State

variable {s : State}

theorem screenId_of_screen? {screen : Screen} (h : s.screen? = some screen) :
    s.screenId = some s.activeId := by
  obtain ⟨_, id, _, hid, _⟩ := screen?_eq_some_iff.1 h
  rw [activeId_of_screenId hid, hid]

theorem screenId_of_option? {index : Nat} {timed : Bool} {option : Choice}
    (h : s.option? index timed = some option) : s.screenId = some s.activeId := by
  cases hscreen : s.screen? with
  | some screen => exact screenId_of_screen? hscreen
  | none =>
    cases timed <;> simp [option?, Session.timedOption?, hscreen] at h

theorem length_choices_openMenu {screen : Screen} (hscreen : s.screen? = some screen)
    (hidle : s.countdown.running = none) :
    { s with menuOpen := true }.mode = .choice ∧
      screen.choiceSet.length = (View.ofState { s with menuOpen := true }).choices.length := by
  have hmode : { s with menuOpen := true }.mode = .choice := by
    simp [mode, Countdown.isRunning, hidle]
  refine ⟨hmode, ?_⟩
  have hopened : { s with menuOpen := true }.screen? = some screen := hscreen
  rw [View.choices_ofState, offered_eq hopened, hmode, List.length_map]
  rfl

theorem Coherent.last_second (h : s.Coherent) {r : Running} (hr : s.countdown.running = some r)
    (hlast : r.remaining ≤ 1) :
    s.screenId = some r.owner ∧ s.countdown.running = some ⟨r.owner, 1, r.defaultIndex⟩ := by
  obtain ⟨howner, _, _, _, _, _, _, _, _, hpos, _⟩ := h.countdown r hr
  have hone : r.remaining = 1 := by omega
  exact ⟨howner, by rw [hr, ← hone]⟩

end State

namespace Turn

variable {w : Outside} {s s' : State} {c : Call} {kinds : List EventKind}

/-- **Every event of a turn is true**, if the state before is coherent. -/
theorem truthful (h : s.Coherent) (ht : Turn w s c kinds s') :
    ∀ kind ∈ kinds, kind.Truthful w s s' := by
  have top (state : State) (id : String) : (state.place id).AtTop := ⟨rfl, rfl, rfl⟩
  cases ht with
  | ignored => exact nofun
  | scrolled => exact nofun
  | nextLine _ hplan =>
    obtain ⟨screen, hscreen, _, _, hmore⟩ := Plan.exists_screen_of_nextLine hplan
    refine List.forall_mem_singleton.2 ?_
    exact ⟨State.screenId_of_screen? hscreen, rfl, rfl, screen, hscreen, hmore⟩
  | menuOpened _ hplan hscreen =>
    have hidle := Plan.idle hplan nofun
    obtain ⟨hmode, hcount⟩ := State.length_choices_openMenu hscreen hidle
    refine List.forall_mem_singleton.2 ?_
    exact ⟨State.screenId_of_screen? hscreen, hmode, hcount⟩
  | countdownStarted _ hplan =>
    obtain ⟨screen, hscreen, _, _, _, hafter⟩ := Plan.exists_screen_of_afterLines hplan nofun nofun
    have htimed := (Plan.afterLines_eq_startCountdown hafter).2
    refine List.forall_mem_singleton.2 ?_
    exact ⟨State.screenId_of_screen? hscreen, screen, _, hscreen, htimed, rfl, rfl, rfl⟩
  | entered _ _ _ => exact List.forall_mem_singleton.2 ⟨rfl, top ..⟩
  | loaded _ hfetch hdecode =>
    refine List.forall_mem_cons.2 ⟨?_, List.forall_mem_singleton.2 ⟨rfl, top ..⟩⟩
    exact ⟨_, _, hfetch, hdecode, rfl, rfl, rfl, rfl⟩
  | picked hi hoption hnext =>
    have hoffered := (State.offered_getElem?_of_pick hi).trans hoption
    have htimed := Input.timed_of_pick hi
    refine List.forall_mem_cons.2 ⟨?_, List.forall_mem_singleton.2 ⟨rfl, top ..⟩⟩
    refine ⟨State.screenId_of_option? hoption, ⟨_, hoffered, rfl⟩, ?_, hnext, rfl⟩
    rw [htimed, decide_eq_true_iff]
  | ticked hr hlast =>
    rename_i r
    have howner := (h.countdown r hr).1
    refine List.forall_mem_singleton.2 ?_
    rw [State.activeId_of_screenId howner]
    exact ⟨howner, by omega, r, hr, rfl, by omega, rfl⟩
  | expired hr hlast _ =>
    obtain ⟨howner, hone⟩ := h.last_second hr hlast
    exact List.forall_mem_singleton.2 ⟨howner, hone, rfl⟩
  | defaulted hr hlast _ hoption hnext =>
    obtain ⟨howner, hone⟩ := h.last_second hr hlast
    -- the countdown still runs in the state before, so its options are on offer there
    have hmode := State.mode_of_running hr
    have hoffered := (State.offered_getElem?_timed _ hmode).trans hoption
    refine List.forall_mem_cons.2 ⟨⟨howner, hone, rfl⟩, List.forall_mem_cons.2 ⟨?_,
      List.forall_mem_singleton.2 ⟨rfl, top ..⟩⟩⟩
    exact ⟨State.screenId_of_option? hoption, ⟨_, hoffered, rfl⟩, iff_of_true rfl hmode, hnext, rfl⟩

end Turn

open Session in
/-- **One step for each call, and told as it is.**  In a state that can be reached, a call records
the events of one step at most: a choice only when it picks one or lets a countdown expire, time
only when it is a tick, and when it advances, what was planned.  Each event says what is true of the
states before and after. -/
theorem one_step_told_truly (calls : List (Outside × Call)) (w : Outside) (c : Call) :
    let s := initial.run calls
    let kinds := (s.recorded w c).map (·.kind)
    kinds.map (·.tag) ∈ EventKind.Tag.shapes ∧
      (∀ screen index next timed, .choiceMade screen index next timed ∈ kinds →
        (∃ i, c = .input i ∧ i.pick? s.state = some (index, timed)) ∨
          c = .tick ∧ timed = true ∧ .countdownExpired screen index ∈ kinds) ∧
      (.countdownTicked ∈ kinds.map (·.tag) ∨ .countdownExpired ∈ kinds.map (·.tag) → c = .tick) ∧
      (∀ i, c = .input i → i.action? s.state = some .advance →
        kinds.map (·.tag) = (Plan.ofState s.state).shape w s.state) ∧
      ∀ kind ∈ kinds, kind.Truthful w s.state (s.perform w c).1.state := by
  intro s kinds
  have hturn : Turn w s.state c kinds (s.perform w c).1.state := s.perform_turn w c
  refine ⟨hturn.shape, fun _ _ _ _ => hturn.cause_of_choiceMade, hturn.eq_tick, ?_,
    hturn.truthful (.of_run calls)⟩
  rintro i rfl hi
  rw [← map_tag_advance (w := w) hi, List.map_map]
  rfl

/-- At the door advancing starts the countdown, as planned.  When it runs out, the choice that the
tick makes is one on offer. -/
theorem one_step_told_at_door :
    let s := Session.initial.run [(atDoor, .input (.load "door.yaml"))]
    let s' := Session.initial.run (startAtDoor ++ [(atDoor, .tick)])
    (s.recorded atDoor (.input .advance)).map (·.kind.tag) = [.countdownStarted] ∧
      .choiceMade "door" 0 "door" true ∈ (s'.recorded atDoor .tick).map (·.kind) ∧
      ∃ option, s'.state.offered[0]? = some option ∧ option.next = "door" := by
  intro s s'
  have hfacts : (Plan.ofState s.state).shape atDoor s.state = [.countdownStarted] ∧
      .choiceMade "door" 0 "door" true ∈ (s'.recorded atDoor .tick).map (·.kind) := by
    decide +kernel
  obtain ⟨hplan, hmade⟩ := hfacts
  obtain ⟨_, _, _, hadvance, _⟩ := one_step_told_truly _ atDoor (.input .advance)
  obtain ⟨_, _, _, _, htruthful⟩ := one_step_told_truly _ atDoor .tick
  obtain ⟨_, hoffered, _⟩ := htruthful _ hmade
  refine ⟨?_, hmade, hoffered⟩
  have hshape := hadvance .advance rfl rfl
  rw [List.map_map] at hshape
  exact hshape.trans hplan

end Gamebook
