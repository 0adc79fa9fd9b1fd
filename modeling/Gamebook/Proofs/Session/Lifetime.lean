import Gamebook.Proofs.Session.Expiry
import Gamebook.Proofs.Session.FailedLoad
import Mathlib.Tactic.ByContra

/-!
# The life of a countdown in the log

`RunsDown owner d n log` is the grammar of what a log may go on with while `n`
seconds are left: the ticks of one second after another, after the last of them
one expiry, and at any point the end of it all (`Closed`), which is another
start, a screen entered, with or without a choice made, or a book loaded.

The log of a run is read in both directions.  Forwards, every start is followed
by such a life (`runsDown_logged`, `closed_logged`): the proofs follow the calls
that are still to come.  Backwards, every tick and every expiry stands right
behind the start and all the earlier ticks of its own countdown (`Traced`): that
invariant follows the calls that were made.
-/

namespace Gamebook

/-! ### The grammar -/

/-- Whether a countdown is over with this event at the latest. -/
def EventKind.closes : EventKind → Bool
  | countdownStarted .. | screenEntered _ | bookLoaded .. => true
  | _ => false

/-- How a log goes on when a countdown is over or cut short. -/
inductive Closed : List EventKind → Prop
  | nil : Closed []
  | closing {kind : EventKind} (rest : List EventKind) (hkind : kind.closes = true) :
      Closed (kind :: rest)
  | picked (screen : String) (index : Nat) (next : String) (timed : Bool) (id : String)
      (rest : List EventKind) :
      Closed (.choiceMade screen index next timed :: .screenEntered id :: rest)

/-- How a log goes on while a countdown has so many seconds left. -/
inductive RunsDown (owner : String) (defaultIndex : Nat) : Nat → List EventKind → Prop
  | closed {left : Nat} {rest : List EventKind} (h : Closed rest) :
      RunsDown owner defaultIndex left rest
  | ticked {left : Nat} {rest : List EventKind} (h : RunsDown owner defaultIndex (left + 1) rest) :
      RunsDown owner defaultIndex (left + 2) (.countdownTicked owner (left + 1) :: rest)
  | expired {rest : List EventKind} (h : Closed rest) :
      RunsDown owner defaultIndex 1 (.countdownExpired owner defaultIndex :: rest)

/-- Whether an event is one of a countdown that runs. -/
def EventKind.counts : EventKind → Bool
  | countdownTicked .. | countdownExpired .. => true
  | _ => false

/-- What a log says of its countdowns. -/
structure CountdownLog (log : List EventKind) : Prop where
  started : ∀ (before : List EventKind) (owner : String) (seconds defaultIndex : Nat)
    (after : List EventKind),
    log = before ++ .countdownStarted owner seconds defaultIndex :: after →
      0 < seconds ∧ RunsDown owner defaultIndex seconds after
  ticked : ∀ (before : List EventKind) (owner : String) (left : Nat) (after : List EventKind),
    log = before ++ .countdownTicked owner left :: after →
      ∃ first seconds defaultIndex count, before = first ++
          .countdownStarted owner seconds defaultIndex :: ticksOf owner seconds count ∧
        count + 1 + left = seconds ∧ 0 < left
  expired : ∀ (before : List EventKind) (owner : String) (defaultIndex : Nat)
    (after : List EventKind), log = before ++ .countdownExpired owner defaultIndex :: after →
      ∃ first seconds, before = first ++
          .countdownStarted owner seconds defaultIndex :: ticksOf owner seconds (seconds - 1)

theorem append_eq_append_cons {α : Type} {log more before after : List α} {entry : α}
    (h : log ++ more = before ++ entry :: after) :
    (∃ rest, log = before ++ entry :: rest ∧ after = rest ++ more) ∨
      ∃ rest, before = log ++ rest ∧ more = rest ++ entry :: after := by
  rcases List.append_eq_append_iff.1 h with ⟨rest, hbefore, hmore⟩ | ⟨rest, hlog, hafter⟩
  · exact Or.inr ⟨rest, hbefore, hmore⟩
  · cases rest with
    | nil => exact Or.inr ⟨[], by simpa using hlog.symm, hafter.symm⟩
    | cons x rest =>
      obtain ⟨rfl, rfl⟩ := List.cons.inj hafter
      exact Or.inl ⟨rest, hlog, rfl⟩

/-! ### What a turn does to a countdown -/

/-- The inputs that stop a countdown that runs: those that go to a screen that is there, load a book
that can be loaded, or pick an option that is there and leads somewhere. -/
inductive Input.Stops (w : Outside) (s : State) : Input → Prop
  | navigate {i : Input} {id : String} (hi : i.action? s = some (.navigate id))
      (hid : s.defines id = true) : Stops w s i
  | load {i : Input} {locator : String} {book : Book} (hi : i.action? s = some (.loadBook locator))
      (hbook : w.book locator = .ok book) : Stops w s i
  | pick {i : Input} {index : Nat} {timed : Bool} {option : Choice}
      (hi : i.pick? s = some (index, timed)) (hoption : s.option? index timed = some option)
      (hnext : s.defines option.next = true) : Stops w s i

namespace Turn

variable {w : Outside} {s s' : State} {c : Call} {kinds : List EventKind}

theorem epoch_eq (ht : Turn w s c kinds s') :
    s'.countdown.epoch = s.countdown.epoch + kinds.countP (·.tag = .countdownStarted) := by
  cases ht <;> rfl

theorem started {owner : String} {seconds defaultIndex : Nat} (ht : Turn w s c kinds s')
    (hmem : .countdownStarted owner seconds defaultIndex ∈ kinds) :
    kinds = [.countdownStarted owner seconds defaultIndex] ∧ 0 < seconds ∧
      s'.countdown.running = some ⟨owner, seconds, defaultIndex⟩ := by
  cases ht with
  | @countdownStarted i t _ _ =>
    obtain ⟨rfl, rfl, rfl⟩ := EventKind.countdownStarted.inj (List.mem_singleton.1 hmem)
    exact ⟨rfl, t.duration_pos, rfl⟩
  | _ => simp at hmem

theorem countdown_of_input {i : Input} (ht : Turn w s (.input i) kinds s')
    (hrunning : s.countdown.running ≠ none) :
    s'.countdown = s.countdown ∨
      i.Stops w s ∧ s'.countdown = s.countdown.cancel ∧ ∃ id, .screenEntered id ∈ kinds := by
  have hstay : Plan.ofState s = .stay := by
    by_contra hplan
    exact hrunning (Plan.idle rfl hplan)
  cases ht with
  | ignored => exact Or.inl rfl
  | scrolled => exact Or.inl rfl
  | nextLine => exact Or.inl rfl
  | menuOpened => exact Or.inl rfl
  | countdownStarted _ hplan => rw [hstay] at hplan; cases hplan
  | @entered i a id hi ha hid =>
    refine Or.inr ⟨?_, rfl, id, List.mem_cons_self⟩
    cases a with
    | navigate target =>
      obtain rfl := Option.some.inj ha
      exact .navigate hi hid
    | advance => rw [Action.leadsTo?, hstay] at ha; cases ha
    | loadBook path => cases ha
  | @loaded i locator text book hi hfetch hdecode =>
    refine Or.inr ⟨?_, rfl, book.start, List.mem_cons_of_mem _ List.mem_cons_self⟩
    have hbook : w.book locator = .ok book := by rw [Outside.book, hfetch]; exact hdecode
    rw [Input.request?_eq] at hi
    obtain ⟨a, ha, hrequest⟩ := Option.bind_eq_some_iff.1 hi
    cases a with
    | loadBook path =>
      obtain rfl := Option.some.inj hrequest
      exact .load ha hbook
    | advance => rw [Action.request?, hstay] at hrequest; cases hrequest
    | navigate target => cases hrequest
  | picked hi hoption hnext =>
    exact Or.inr ⟨.pick hi hoption hnext, rfl, _, List.mem_cons_of_mem _ List.mem_cons_self⟩

end Turn

/-! ### Forwards -/

theorem State.Coherent.plan_stopped {s : State} {r : Running} (h : s.Coherent)
    (hr : s.countdown.running = some r) : ∃ t, Plan.ofState s.stopped = .startCountdown t := by
  obtain ⟨_, screen, t, hscreen, hkind, hchoices, htimed, hover, _⟩ := h.countdown r hr
  have hscreen' : s.stopped.screen? = some screen := hscreen
  refine ⟨t, ?_⟩
  unfold Plan.ofState
  rw [hscreen']
  dsimp only
  rw [if_neg (by simp [hkind, stopped, Countdown.cancel, Countdown.isRunning]),
    if_neg (by change ¬ s.dialogueIndex + 1 < screen.lines.length; omega), Plan.afterLines,
    hchoices, htimed]

/-- **A turn where a countdown can be started** does nothing, or it starts one or leaves the
screen. -/
theorem Turn.closed {w : Outside} {s s' : State} {c : Call} {kinds log : List EventKind}
    {t : TimedChoices} (ht : Turn w s c kinds s') (hplan : Plan.ofState s = .startCountdown t)
    (hlog : Plan.ofState s' = .startCountdown t → Closed log) : Closed (kinds ++ log) := by
  have hidle := Plan.idle hplan nofun
  cases ht with
  | ignored => exact hlog hplan
  | scrolled => exact hlog hplan
  | nextLine _ hplan' => rw [hplan] at hplan'; nomatch hplan'
  | menuOpened _ hplan' _ => rw [hplan] at hplan'; nomatch hplan'
  | countdownStarted => exact .closing _ rfl
  | entered => exact .closing _ rfl
  | loaded => exact .closing _ rfl
  | picked => exact .picked _ _ _ _ _ _
  | ticked hr _ => rw [hidle] at hr; nomatch hr
  | expired hr _ _ => rw [hidle] at hr; nomatch hr
  | defaulted hr _ _ _ _ => rw [hidle] at hr; nomatch hr

theorem Session.closed_logged (calls : List (Outside × Call)) (s : Session) {t : TimedChoices}
    (hplan : Plan.ofState s.state = .startCountdown t) : Closed (s.logged calls) := by
  induction calls generalizing s with
  | nil => exact .nil
  | cons c rest ih => exact (s.perform_turn c.1 c.2).closed hplan (ih _)

/-- **A turn while a countdown runs** takes a second off it, or ends it. -/
theorem Turn.runsDown {w : Outside} {s s' : State} {c : Call} {kinds log : List EventKind}
    {r : Running} (ht : Turn w s c kinds s') (h : s.Coherent) (hr : s.countdown.running = some r)
    (hruns : ∀ r', s'.countdown.running = some r' →
      RunsDown r'.owner r'.defaultIndex r'.remaining log)
    (hover : ∀ t, Plan.ofState s' = .startCountdown t → Closed log) :
    RunsDown r.owner r.defaultIndex r.remaining (kinds ++ log) := by
  obtain ⟨howner, _, _, _, _, _, _, _, _, hpos, _⟩ := h.countdown r hr
  have hactive : s.activeId = r.owner := State.activeId_of_screenId howner
  have hbusy {plan : Plan} (hplan : Plan.ofState s = plan) (hstay : plan ≠ .stay) : False := by
    rw [Plan.idle hplan hstay] at hr
    nomatch hr
  cases ht with
  | ignored => exact hruns r hr
  | scrolled => exact hruns r hr
  | nextLine _ hplan => exact (hbusy hplan nofun).elim
  | menuOpened _ hplan _ => exact (hbusy hplan nofun).elim
  | countdownStarted _ hplan => exact (hbusy hplan nofun).elim
  | entered => exact .closed (.closing _ rfl)
  | loaded => exact .closed (.closing _ rfl)
  | picked => exact .closed (.picked _ _ _ _ _ _)
  | @ticked r' hr' hlast =>
    obtain rfl := Option.some.inj (hr.symm.trans hr')
    have hlog : RunsDown r.owner r.defaultIndex (r.remaining - 1) log := hruns _ rfl
    obtain ⟨left, hleft⟩ : ∃ left, r.remaining = left + 2 := ⟨r.remaining - 2, by omega⟩
    have hless : r.remaining - 1 = left + 1 := by omega
    rw [hless] at hlog
    rw [hactive, hless, hleft]
    exact .ticked hlog
  | @expired r' hr' hlast _ =>
    obtain rfl := Option.some.inj (hr.symm.trans hr')
    obtain ⟨t, hplan⟩ := h.plan_stopped hr
    have hone : r.remaining = 1 := by omega
    rw [hone]
    exact .expired (hover t hplan)
  | @defaulted r' option hr' hlast _ _ _ =>
    obtain rfl := Option.some.inj (hr.symm.trans hr')
    have hone : r.remaining = 1 := by omega
    rw [hone]
    exact .expired (.picked _ _ _ _ _ _)

theorem Session.runsDown_logged (calls : List (Outside × Call)) (s : Session) {r : Running}
    (h : s.state.Coherent) (hr : s.state.countdown.running = some r) :
    RunsDown r.owner r.defaultIndex r.remaining (s.logged calls) := by
  induction calls generalizing s r with
  | nil => exact .closed .nil
  | cons c rest ih =>
    have hturn := s.perform_turn c.1 c.2
    exact hturn.runsDown h hr (fun r' => ih _ (h.turn hturn)) fun t => closed_logged rest _

/-- **Every start in a log** is followed by the life of its countdown. -/
theorem Session.started_logged (calls : List (Outside × Call)) (s : Session)
    (h : s.state.Coherent) {before after : List EventKind} {owner : String}
    {seconds defaultIndex : Nat}
    (hlog : s.logged calls = before ++ .countdownStarted owner seconds defaultIndex :: after) :
    0 < seconds ∧ RunsDown owner defaultIndex seconds after := by
  induction calls generalizing s before with
  | nil =>
    change [] = _ at hlog
    simp at hlog
  | cons c rest ih =>
    have hturn := s.perform_turn c.1 c.2
    rcases append_eq_append_cons hlog with ⟨more, hkinds, rfl⟩ | ⟨more, rfl, hlater⟩
    · have hmem : .countdownStarted owner seconds defaultIndex ∈
          (s.recorded c.1 c.2).map (·.kind) := by
        rw [hkinds]
        exact List.mem_append_right _ List.mem_cons_self
      obtain ⟨halone, hpos, hr⟩ := hturn.started hmem
      have hmore : more = [] := by
        have hlength := congrArg List.length (hkinds.symm.trans halone)
        simp at hlength
        exact List.eq_nil_of_length_eq_zero (by omega)
      rw [hmore]
      exact ⟨hpos, runsDown_logged rest _ (h.turn hturn) hr⟩
    · exact ih _ (h.turn hturn) hlater

/-! ### Backwards -/

/-- The log ends with the start and all the ticks of the countdown that runs. -/
def Traced (log : List EventKind) (c : Countdown) : Prop :=
  ∀ r, c.running = some r → ∃ first seconds count,
    log = first ++ .countdownStarted r.owner seconds r.defaultIndex ::
      ticksOf r.owner seconds count ∧
    count + r.remaining = seconds

/-- **A turn lengthens the trace** of the countdown that it leaves running. -/
theorem Turn.traced {w : Outside} {s s' : State} {c : Call} {kinds log : List EventKind}
    (ht : Turn w s c kinds s') (h : s.Coherent) (hlog : Traced log s.countdown) :
    Traced (log ++ kinds) s'.countdown := by
  intro r hr
  cases ht with
  | ignored => rw [List.append_nil]; exact hlog r hr
  | scrolled => rw [List.append_nil]; exact hlog r hr
  | nextLine _ hplan => nomatch (Plan.idle hplan nofun).symm.trans hr
  | menuOpened _ hplan _ => nomatch (Plan.idle hplan nofun).symm.trans hr
  | @countdownStarted i t _ _ =>
    obtain rfl := Option.some.inj hr
    exact ⟨log, t.duration, 0, rfl, Nat.zero_add _⟩
  | entered => nomatch hr
  | loaded => nomatch hr
  | picked => nomatch hr
  | @ticked r' hr' hlast =>
    obtain rfl := Option.some.inj hr
    obtain ⟨howner, _⟩ := h.countdown r' hr'
    obtain ⟨first, seconds, count, rfl, hcount⟩ := hlog r' hr'
    refine ⟨first, seconds, count + 1, ?_, by dsimp only; omega⟩
    rw [State.activeId_of_screenId howner, ticksOf_succ, List.append_assoc, List.cons_append]
    congr 5
    omega
  | expired => nomatch hr
  | defaulted => nomatch hr

theorem Session.traced_logged (calls : List (Outside × Call)) :
    Traced (Session.initial.logged calls) (Session.initial.run calls).state.countdown := by
  induction calls using List.reverseRecOn with
  | nil => nofun
  | append_singleton calls c ih =>
    rw [logged_concat, run_concat]
    exact ((Session.initial.run calls).perform_turn c.1 c.2).traced (.of_run calls) ih

theorem Turn.counts_first {w : Outside} {s s' : State} {c : Call} {before after : List EventKind}
    {kind : EventKind} (ht : Turn w s c (before ++ kind :: after) s') (hkind : kind.counts = true) :
    before = [] ∧ ∃ r, s.countdown.running = some r ∧
      (kind = .countdownTicked s.activeId (r.remaining - 1) ∧ 1 < r.remaining ∨
        kind = .countdownExpired r.owner r.defaultIndex ∧ r.remaining ≤ 1) := by
  generalize hkinds : before ++ kind :: after = kinds at ht
  have hnone (hall : kinds.all (!·.counts) = true) : False := by
    have hmem : kind ∈ kinds := by
      rw [← hkinds]
      exact List.mem_append_right _ List.mem_cons_self
    have := List.all_eq_true.1 hall kind hmem
    rw [hkind] at this
    nomatch this
  have hfirst {first : EventKind} {rest : List EventKind} (hcons : kinds = first :: rest)
      (hrest : rest.all (!·.counts) = true) : before = [] ∧ kind = first := by
    cases before with
    | nil => exact ⟨rfl, (List.cons.inj (hkinds.trans hcons)).1⟩
    | cons head before =>
      have hmem : kind ∈ rest := by
        rw [← (List.cons.inj (hkinds.trans hcons)).2]
        exact List.mem_append_right _ List.mem_cons_self
      have := List.all_eq_true.1 hrest kind hmem
      rw [hkind] at this
      nomatch this
  cases ht with
  | ticked hr hlast =>
    obtain ⟨hbefore, hticked⟩ := hfirst rfl rfl
    exact ⟨hbefore, _, hr, Or.inl ⟨hticked, hlast⟩⟩
  | expired hr hlast _ =>
    obtain ⟨hbefore, hexpired⟩ := hfirst rfl rfl
    exact ⟨hbefore, _, hr, Or.inr ⟨hexpired, hlast⟩⟩
  | defaulted hr hlast _ _ _ =>
    obtain ⟨hbefore, hexpired⟩ := hfirst rfl rfl
    exact ⟨hbefore, _, hr, Or.inr ⟨hexpired, hlast⟩⟩
  | _ => exact (hnone rfl).elim

/-- **Every tick and every expiry in a log** stands behind the start of its countdown and the ticks
before it. -/
theorem Session.exists_trace_of_logged (calls : List (Outside × Call))
    {before after : List EventKind} {kind : EventKind}
    (hlog : Session.initial.logged calls = before ++ kind :: after) (hkind : kind.counts = true) :
    ∃ (r : Running) (first : List EventKind) (seconds count : Nat),
      before = first ++ .countdownStarted r.owner seconds r.defaultIndex ::
        ticksOf r.owner seconds count ∧
      count + r.remaining = seconds ∧ 0 < r.remaining ∧
      (kind = .countdownTicked r.owner (r.remaining - 1) ∧ 1 < r.remaining ∨
        kind = .countdownExpired r.owner r.defaultIndex ∧ r.remaining ≤ 1) := by
  induction calls using List.reverseRecOn generalizing after with
  | nil =>
    change [] = _ at hlog
    simp at hlog
  | append_singleton calls c ih =>
    rw [logged_concat] at hlog
    rcases append_eq_append_cons hlog with ⟨rest, hearlier, _⟩ | ⟨rest, hbefore, hkinds⟩
    · exact ih hearlier
    · have hturn := (Session.initial.run calls).perform_turn c.1 c.2
      rw [hkinds] at hturn
      obtain ⟨rfl, r, hr, hwhich⟩ := hturn.counts_first hkind
      obtain ⟨howner, _, _, _, _, _, _, _, _, hpos, _⟩ :=
        (State.Coherent.of_run calls).countdown r hr
      obtain ⟨first, seconds, count, htrace, hcount⟩ := traced_logged calls r hr
      rw [State.activeId_of_screenId howner] at hwhich
      rw [List.append_nil] at hbefore
      exact ⟨r, first, seconds, count, hbefore.trans htrace, hcount, hpos, hwhich⟩

theorem Session.countdownLog_logged (calls : List (Outside × Call)) :
    CountdownLog (Session.initial.logged calls) where
  started _ _ _ _ _ hlog := started_logged calls .initial .initial hlog
  ticked before owner left after hlog := by
    obtain ⟨r, first, seconds, count, hbefore, hcount, hpos, hwhich⟩ :=
      exists_trace_of_logged calls hlog rfl
    rcases hwhich with ⟨hticked, hlast⟩ | ⟨hexpired, _⟩
    · obtain ⟨rfl, rfl⟩ := EventKind.countdownTicked.inj hticked
      exact ⟨first, seconds, r.defaultIndex, count, hbefore, by omega, by omega⟩
    · nomatch hexpired
  expired before owner defaultIndex after hlog := by
    obtain ⟨r, first, seconds, count, hbefore, hcount, hpos, hwhich⟩ :=
      exists_trace_of_logged calls hlog rfl
    rcases hwhich with ⟨hticked, _⟩ | ⟨hexpired, hlast⟩
    · nomatch hticked
    · obtain ⟨rfl, rfl⟩ := EventKind.countdownExpired.inj hexpired
      obtain rfl : count = seconds - 1 := by omega
      exact ⟨first, seconds, hbefore⟩

theorem Session.epoch_run (calls : List (Outside × Call)) (s : Session) :
    (s.run calls).state.countdown.epoch =
      s.state.countdown.epoch + (s.logged calls).countP (·.tag = .countdownStarted) := by
  induction calls generalizing s with
  | nil => rfl
  | cons c rest ih =>
    rw [run_cons, ih, (s.perform_turn c.1 c.2).epoch_eq, logged, List.countP_append, Nat.add_assoc]

/-- **The life of a countdown.**  In the log of every run each start is followed by the ticks of its
seconds and by at most one expiry after the last of them, until the next start or the next screen;
ticks and expiries stand nowhere else, and the epoch counts the starts.  While a countdown runs,
every input leaves it as it is, but for those that enter a screen and stop it. -/
theorem countdown_lives_once :
    (∀ calls : List (Outside × Call),
      CountdownLog (Session.initial.logged calls) ∧
      (Session.initial.run calls).state.countdown.epoch =
        (Session.initial.logged calls).countP (·.tag = .countdownStarted)) ∧
    ∀ (w : Outside) (s : Session) (i : Input), s.state.countdown.isRunning = true →
      (s.perform w (.input i)).1.state.countdown = s.state.countdown ∨
        i.Stops w s.state ∧
          (s.perform w (.input i)).1.state.countdown = ⟨none, s.state.countdown.epoch⟩ ∧
          ∃ e ∈ s.recorded w (.input i), ∃ id, e.kind = .screenEntered id := by
  refine ⟨fun calls => ⟨Session.countdownLog_logged calls, ?_⟩, fun w s i hrunning => ?_⟩
  · rw [Session.epoch_run]
    exact Nat.zero_add _
  · have hbusy : s.state.countdown.running ≠ none := Option.isSome_iff_ne_none.1 hrunning
    rcases (s.perform_turn w (.input i)).countdown_of_input hbusy with
      hkept | ⟨hstops, hidle, id, hid⟩
    · exact Or.inl hkept
    · obtain ⟨e, he, hkind⟩ := List.mem_map.1 hid
      exact Or.inr ⟨hstops, hidle, e, he, id, hkind⟩

/-- The countdown at the door counts down, expires and leads to the door again, and a way to nowhere
leaves a countdown as it is. -/
theorem countdown_lives_once_at_door :
    (∃ before after : List EventKind,
      Session.initial.logged (startAtDoor ++ [(atDoor, .tick), (atDoor, .tick)]) =
        before ++ .countdownStarted "door" 2 0 :: .countdownTicked "door" 1 ::
          .countdownExpired "door" 0 :: after ∧
      RunsDown "door" 0 2 (.countdownTicked "door" 1 :: .countdownExpired "door" 0 :: after)) ∧
    (Session.initial.run startAtDoor).state.countdown.isRunning = true ∧
      ((Session.initial.run startAtDoor).perform atDoor
          (.input (.navigate "gone"))).1.state.countdown =
        (Session.initial.run startAtDoor).state.countdown := by
  constructor
  · have hafter :
        (Session.initial.logged (startAtDoor ++ [(atDoor, .tick), (atDoor, .tick)])).drop 2 =
          .countdownStarted "door" 2 0 :: .countdownTicked "door" 1 ::
            .countdownExpired "door" 0 ::
            [.choiceMade "door" 0 "door" true, .screenEntered "door"] := by
      decide +kernel
    have hlog := List.take_append_drop 2
      (Session.initial.logged (startAtDoor ++ [(atDoor, .tick), (atDoor, .tick)]))
    rw [hafter] at hlog
    exact ⟨_, _, hlog.symm, ((countdown_lives_once.1 _).1.started _ _ _ _ _ hlog.symm).2⟩
  · have hbusy : (Session.initial.run startAtDoor).state.countdown.isRunning = true :=
      Option.isSome_of_eq_some state_startAtDoor.1
    have hnothing : (Session.initial.run startAtDoor).recorded atDoor
        (.input (.navigate "gone")) = [] := by
      decide +kernel
    refine ⟨hbusy, (countdown_lives_once.2 atDoor _ (.navigate "gone") hbusy).resolve_right ?_⟩
    rintro ⟨-, -, e, he, -⟩
    rw [hnothing] at he
    nomatch he

end Gamebook
