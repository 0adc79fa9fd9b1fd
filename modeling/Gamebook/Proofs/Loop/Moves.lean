import Gamebook.Proofs.Session.FailedLoad
import Gamebook.Session.Loop

/-!
# What a move of the loop does

A move either makes one call of the session (`Loop.callOf`) or leaves the
session alone.  A move that makes a call publishes what a listener is to be told
of it, `Session.report`, and takes the events (`Called`); without a listener it
ends the loop.  An input is made a call once it is taken from the inputs that
wait (`Loop.waiting`), a tick only while the queue is open and a countdown runs
(`move_call`).  The other moves take up an input whose book has to be waited
for, or end a loop that has nothing left to do (`move_noCall`).
-/

namespace Gamebook

/-! ### What a listener is told -/

/-- What is told of new events and the state after them: the events if there are any, and then
the view. -/
def tidings (events : List Event) (s : State) : List Update :=
  match events with
  | [] => [.view (.ofState s)]
  | events => [.events events, .view (.ofState s)]

namespace Session

/-- What is told of a call: that it failed, if it did, then the events it recorded and the view. -/
def report (w : Outside) (c : Call) (s : Session) : List Update :=
  match (s.perform w c).2 with
  | .error e => .failed e :: tidings (s.recorded w c) (s.perform w c).1.state
  | .ok _ => tidings (s.recorded w c) (s.perform w c).1.state

/-- What is told of the calls of a run. -/
def reports (s : Session) : List (Outside × Call) → List Update
  | [] => []
  | (w, c) :: rest => s.report w c ++ (s.perform w c).1.reports rest

theorem reports_concat (s : Session) (calls : List (Outside × Call)) (w : Outside) (c : Call) :
    s.reports (calls ++ [(w, c)]) = s.reports calls ++ (s.run calls).report w c := by
  induction calls generalizing s with
  | nil => simp [reports]
  | cons head rest ih => simp [reports, ih]

theorem recorded_takeEvents (s : Session) (w : Outside) (c : Call) :
    s.takeEvents.1.recorded w c = s.recorded w c :=
  recorded_pending w s [] c

theorem report_takeEvents (s : Session) (w : Outside) (c : Call) :
    s.takeEvents.1.report w c = s.report w c := by
  unfold report
  rw [recorded_takeEvents, perform_takeEvents]

theorem recorded_of_pending_eq_nil {w : Outside} {c : Call} {s : Session} (hs : s.pending = []) :
    s.recorded w c = (s.perform w c).1.pending := by
  rw [recorded, hs]
  rfl

theorem report_of_ok {w : Outside} {c : Call} {s : Session} {heeded : Bool} (hs : s.pending = [])
    (h : (s.perform w c).2 = .ok heeded) :
    s.report w c = tidings (s.perform w c).1.pending (s.perform w c).1.state := by
  unfold report
  rw [h, recorded_of_pending_eq_nil hs]

theorem report_of_error {w : Outside} {c : Call} {s : Session} {e : LoadError}
    (hs : s.pending = []) (h : (s.perform w c).2 = .error e) :
    s.report w c = .failed e :: tidings (s.perform w c).1.pending (s.perform w c).1.state := by
  unfold report
  rw [h, recorded_of_pending_eq_nil hs]

end Session

/-- The input that a call carries out, unless it is a tick. -/
def Call.input? : Call → Option Input
  | input i => some i
  | tick => none

namespace Loop

/-- The inputs accepted and not yet carried out, the one that waits for its book first. -/
def waiting (l : Loop) : List Input := (l.busy.map (·.2)).toList ++ l.queue

theorem updatesOf_eq_tidings (events : List Event) (s : State) :
    updatesOf events s = tidings events s := by
  cases events <;> rfl

/-! ### The parts of a move -/

theorem publish_eq (l : Loop) :
    l.publish =
      ({ l with session := l.session.takeEvents.1, running := l.running && l.listening },
        if l.listening then tidings l.session.pending l.session.state else []) := by
  unfold publish
  cases hlistening : l.listening with
  | true => simp [Session.takeEvents, updatesOf_eq_tidings]
  | false => simp [Session.takeEvents]

/-- What comes at the end of a move: rearming touches nothing but the ticker, and then the events
are published. -/
theorem exists_publish_rearm_eq (now : Nat) (l : Loop) :
    ∃ ticker armedEpoch, (l.rearm now).publish =
        ({ l with
            session := l.session.takeEvents.1, ticker, armedEpoch
            running := l.running && l.listening },
          if l.listening then tidings l.session.pending l.session.state else []) ∧
      (ticker = l.ticker ∨ ticker = .arm l.ticker.period now) := by
  rw [publish_eq]
  unfold rearm
  dsimp only
  split
  · exact ⟨l.ticker, l.armedEpoch, rfl, Or.inl rfl⟩
  · exact ⟨_, _, rfl, Or.inr rfl⟩

theorem tick_eq (w : Outside) (now : Nat) (l : Loop) :
    l.tick w now =
      (({ l with session := (l.session.perform w .tick).1, ticker := l.ticker.fire now } :
        Loop).rearm now).publish :=
  rfl

theorem exists_finish_eq (w : Outside) (now : Nat) (i : Input) (l : Loop) :
    ∃ session ticker armedEpoch running, (l.finish w now i).1 =
        { l with session, ticker, armedEpoch, running, busy := none } ∧
      (running = true → l.running = true) ∧
      (ticker = l.ticker ∨ ticker = .arm l.ticker.period now) := by
  obtain ⟨ticker, armedEpoch, hsettled, hticker⟩ := exists_publish_rearm_eq now
    { l with session := (l.session.handle w i).1, busy := none }
  unfold finish
  dsimp only
  rw [hsettled]
  cases (l.session.handle w i).2 with
  | ok heeded =>
    exact ⟨_, ticker, armedEpoch, _, rfl, fun h => (Bool.and_eq_true_iff.1 h).1, hticker⟩
  | error e =>
    dsimp only
    split
    · exact ⟨_, ticker, armedEpoch, _, rfl, fun h => (Bool.and_eq_true_iff.1 h).1, hticker⟩
    · exact ⟨_, l.ticker, l.armedEpoch, false, rfl, nofun, Or.inl rfl⟩

theorem exists_tick_eq (w : Outside) (now : Nat) (l : Loop) :
    ∃ session ticker armedEpoch running,
      (l.tick w now).1 = { l with session, ticker, armedEpoch, running } ∧
      (running = true → l.running = true) ∧
      (ticker = l.ticker.fire now ∨ ticker = .arm (l.ticker.fire now).period now) := by
  obtain ⟨ticker, armedEpoch, hsettled, hticker⟩ := exists_publish_rearm_eq now
    { l with session := (l.session.perform w .tick).1, ticker := l.ticker.fire now }
  rw [tick_eq, hsettled]
  exact ⟨_, ticker, armedEpoch, _, rfl, fun h => (Bool.and_eq_true_iff.1 h).1, hticker⟩

/-- The loop `l'` is `l` after the call `c`, of which `updates` were published. -/
structure Called (w : Outside) (c : Call) (l l' : Loop) (updates : List Update) : Prop where
  session_eq : l'.session = (l.session.perform w c).1.takeEvents.1
  running_eq : l'.running = (l.running && l.listening)
  listening_eq : l'.listening = l.listening
  accepting_eq : l'.accepting = l.accepting
  updates_eq : updates = if l.listening then l.session.report w c else []

theorem tick_called {l : Loop} (hpending : l.session.pending = []) (w : Outside) (now : Nat) :
    Called w .tick l (l.tick w now).1 (l.tick w now).2 := by
  have hreport := Session.report_of_ok (w := w) (c := .tick) hpending rfl
  obtain ⟨ticker, armedEpoch, hsettled, _⟩ := exists_publish_rearm_eq now
    { l with session := (l.session.perform w .tick).1, ticker := l.ticker.fire now }
  rw [tick_eq, hsettled]
  constructor <;> simp [hreport]

theorem finish_called {l : Loop} (hpending : l.session.pending = []) (w : Outside) (now : Nat)
    (i : Input) : Called w (.input i) l (l.finish w now i).1 (l.finish w now i).2 := by
  obtain ⟨ticker, armedEpoch, hsettled, _⟩ := exists_publish_rearm_eq now
    { l with session := (l.session.handle w i).1, busy := none }
  unfold finish
  dsimp only
  rw [hsettled]
  cases hanswer : (l.session.handle w i).2 with
  | ok heeded =>
    have hreport := Session.report_of_ok (c := .input i) hpending hanswer
    constructor <;> simp [hreport, Session.perform]
  | error e =>
    have hreport := Session.report_of_error (c := .input i) hpending hanswer
    dsimp only
    by_cases hlistening : l.listening = true
    · rw [if_pos hlistening]
      constructor <;> simp [hreport, hlistening, Session.perform]
    · rw [if_neg hlistening]
      -- the events are not taken here, but a failed load records none
      have hnone : (l.session.handle w i).1.takeEvents.1 = (l.session.handle w i).1 := by
        have hsame := Session.pending_of_error (w := w) (s := l.session) (c := .input i) hanswer
        show { (l.session.handle w i).1 with pending := [] } = _
        rw [← hpending, ← hsame]
        rfl
      constructor <;> simp [hnone, hlistening, Session.perform]

theorem finish_waiting (w : Outside) (now : Nat) (i : Input) (l : Loop) :
    (l.finish w now i).1.waiting = l.queue := by
  obtain ⟨_, _, _, _, hfinish, _⟩ := exists_finish_eq w now i l
  rw [hfinish]
  rfl

theorem tick_waiting (w : Outside) (now : Nat) (l : Loop) :
    (l.tick w now).1.waiting = l.waiting := by
  obtain ⟨_, _, _, _, htick, _⟩ := exists_tick_eq w now l
  rw [htick]
  rfl

/-! ### Moves that are due -/

/-- The moves that a loop can make next, with their times. -/
inductive Due (l : Loop) (now : Nat) : Nat → Move → Prop
  | finish {due : Nat} {i : Input} (hbusy : l.busy = some (due, i)) :
      Due l now (max now due) (.finish i)
  | begin {i : Input} {rest : List Input} (hbusy : l.busy = none) (hqueue : l.queue = i :: rest) :
      Due l now now (.begin i rest)
  | stop (hbusy : l.busy = none) (hqueue : l.queue = []) (hclosed : l.accepting = false) :
      Due l now now .stop
  | tick (hbusy : l.busy = none) (hqueue : l.queue = []) (hopen : l.accepting = true)
      (hcounting : l.session.state.countdown.isRunning = true) :
      Due l now (max now l.ticker.deadline) .tick

theorem due_of_next? {l : Loop} {now time : Nat} {m : Move}
    (h : l.next? now = some (time, m)) : l.running = true ∧ Due l now time m := by
  unfold next? at h
  cases hrunning : l.running with
  | false => simp [hrunning] at h
  | true =>
    refine ⟨rfl, ?_⟩
    rw [hrunning, if_neg (by simp)] at h
    cases hbusy : l.busy with
    | some waited =>
      obtain ⟨due, i⟩ := waited
      simp only [hbusy, Option.some.injEq, Prod.mk.injEq] at h
      obtain ⟨rfl, rfl⟩ := h
      exact .finish hbusy
    | none =>
      cases hqueue : l.queue with
      | cons i rest =>
        simp only [hbusy, hqueue, Option.some.injEq, Prod.mk.injEq] at h
        obtain ⟨rfl, rfl⟩ := h
        exact .begin hbusy hqueue
      | nil =>
        simp only [hbusy, hqueue] at h
        split at h <;> rename_i hopen
        · obtain ⟨rfl, rfl⟩ := Prod.mk.inj (Option.some.inj h)
          exact .stop hbusy hqueue (by simpa using hopen)
        · split at h <;> rename_i hcounting
          · obtain ⟨rfl, rfl⟩ := Prod.mk.inj (Option.some.inj h)
            exact .tick hbusy hqueue (by simpa using hopen) hcounting
          · nomatch h

theorem Due.le {l : Loop} {now time : Nat} {m : Move} (h : Due l now time m) : now ≤ time := by
  cases h with
  | finish => exact Nat.le_max_left _ _
  | begin => exact Nat.le_refl _
  | stop => exact Nat.le_refl _
  | tick => exact Nat.le_max_left _ _

/-- The call that a move makes. -/
def callOf (w : Surroundings) (l : Loop) : Move → Option Call
  | .finish i => some (.input i)
  | .begin i _ => if l.delayOf w i = 0 then some (.input i) else none
  | .tick => some .tick
  | .stop => none

/-- **A move that makes a call** takes its input from those that wait.  A tick is made only while
the queue is open and a countdown runs. -/
theorem move_call {w : Surroundings} {l : Loop} {now time : Nat} {m : Move} {c : Call}
    (hdue : Due l now time m) (hpending : l.session.pending = []) (hc : l.callOf w m = some c) :
    Called w.toOutside c l (l.move w time m).1 (l.move w time m).2 ∧
      l.waiting = c.input?.toList ++ (l.move w time m).1.waiting ∧
      (c = .tick → l.accepting = true ∧ l.session.state.countdown.isRunning = true) := by
  cases hdue with
  | @finish due i hbusy =>
    obtain rfl := Option.some.inj hc
    refine ⟨finish_called hpending w.toOutside _ i, ?_, nofun⟩
    change _ = [i] ++ (l.finish w.toOutside _ i).1.waiting
    rw [finish_waiting, waiting, hbusy]
    rfl
  | @begin i rest hbusy hqueue =>
    change (if l.delayOf w i = 0 then some (.input i) else none) = some c at hc
    split at hc <;> rename_i hdelay
    · obtain rfl := Option.some.inj hc
      have hmove : l.move w now (.begin i rest) =
          ({ l with queue := rest } : Loop).finish w.toOutside now i := if_pos hdelay
      rw [hmove]
      obtain ⟨hsession, hrunning, hlistening, haccepting, hupdates⟩ :=
        finish_called (l := { l with queue := rest }) hpending w.toOutside now i
      refine ⟨⟨hsession, hrunning, hlistening, haccepting, hupdates⟩, ?_, nofun⟩
      rw [finish_waiting, waiting, hbusy, hqueue]
      rfl
    · nomatch hc
  | stop => nomatch hc
  | tick hbusy hqueue hopen hcounting =>
    obtain rfl := Option.some.inj hc
    refine ⟨tick_called hpending w.toOutside _, ?_, fun _ => ⟨hopen, hcounting⟩⟩
    exact (tick_waiting w.toOutside _ l).symm

/-- **A move that makes no call** leaves the session alone and drops no input; it may end a loop
whose queue is closed and empty. -/
theorem move_noCall {w : Surroundings} {l : Loop} {now time : Nat} {m : Move}
    (hdue : Due l now time m) (hc : l.callOf w m = none) :
    (l.move w time m).2 = [] ∧ (l.move w time m).1.session = l.session ∧
      (l.move w time m).1.listening = l.listening ∧
      (l.move w time m).1.accepting = l.accepting ∧
      (l.move w time m).1.waiting = l.waiting ∧
      ((l.move w time m).1.running = l.running ∨ l.waiting = [] ∧ l.accepting = false) := by
  cases hdue with
  | finish => nomatch hc
  | @begin i rest hbusy hqueue =>
    change (if l.delayOf w i = 0 then some (Call.input i) else none) = none at hc
    split at hc <;> rename_i hdelay
    · nomatch hc
    · have hmove : l.move w now (.begin i rest) =
          ({ l with queue := rest, busy := some (now + l.delayOf w i, i) }, []) := if_neg hdelay
      rw [hmove]
      refine ⟨rfl, rfl, rfl, rfl, ?_, Or.inl rfl⟩
      rw [waiting, waiting, hbusy, hqueue]
      rfl
  | stop hbusy hqueue hclosed =>
    refine ⟨rfl, rfl, rfl, rfl, rfl, Or.inr ⟨?_, hclosed⟩⟩
    rw [waiting, hbusy, hqueue]
    rfl
  | tick => nomatch hc

/-- An input is left waiting for its book by the move that takes it up, and by no other. -/
theorem busy_move {w : Surroundings} {l : Loop} {now time : Nat} {m : Move}
    (hdue : Due l now time m) (hquick : ∀ i rest, m = .begin i rest → l.delayOf w i = 0) :
    (l.move w time m).1.busy = none := by
  have hfinish (i : Input) (l : Loop) : (l.finish w.toOutside time i).1.busy = none := by
    obtain ⟨_, _, _, _, hfinish, _⟩ := exists_finish_eq w.toOutside time i l
    rw [hfinish]
  cases hdue with
  | @finish due i hbusy => exact hfinish i l
  | @begin i rest hbusy hqueue =>
    have hmove : l.move w now (.begin i rest) =
        ({ l with queue := rest } : Loop).finish w.toOutside now i := if_pos (hquick i rest rfl)
    rw [hmove]
    exact hfinish i { l with queue := rest }
  | stop hbusy _ _ => exact hbusy
  | tick hbusy _ _ _ =>
    obtain ⟨_, _, _, _, htick, _⟩ := exists_tick_eq w.toOutside (max now l.ticker.deadline) l
    change (l.tick w.toOutside _).1.busy = none
    rw [htick]
    exact hbusy

theorem delayOf_of_quick {w : Surroundings} (hquick : ∀ n locator, w.delay n locator = 0)
    (l : Loop) (i : Input) : l.delayOf w i = 0 := by
  unfold delayOf
  split
  · exact hquick _ _
  · rfl

theorem exists_send_eq (i : Input) (l : Loop) : ∃ queue, (l.send i).1 = { l with queue } := by
  unfold send
  split
  · exact ⟨_, rfl⟩
  · exact ⟨l.queue, rfl⟩

end Loop

end Gamebook
