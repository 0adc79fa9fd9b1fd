import Mathlib.Data.List.Induction
import Gamebook.Proofs.Loop.Sequential
import Gamebook.Proofs.Session.Lifetime

/-!
# What a move does to the ticker and the countdown

A ticker that never fires before it is due is due a period later each time it
fires (`Ticker.Heeds.le_getElem?`), and no two of its times lie closer than the
periods between them, up to the tolerance (`Ticker.Heeds.spacing`).  If it always
fires in time it goes on in even steps (`Ticker.OnTime.deadline_eq`).  All of it
rests on three facts of a single firing: `Ticker.deadline_add_le`,
`Ticker.now_add_le` and `Ticker.fire_deadline`.

The loop keeps its ticker as long as the epoch of the countdown stays the same,
and arms it anew when another countdown is started (`Loop.move_clocked`).  As
long as the epoch stays the same the countdown loses just one second with each
tick, or it is stopped for good (`Loop.running_of_move`).
-/

namespace Gamebook

/-! ### A ticker by itself -/

namespace Ticker

variable {t : Ticker} {times : List Nat} {now time : Nat}

/-- The ticker once it fired at each of these times. -/
def fires (t : Ticker) (times : List Nat) : Ticker := times.foldl fire t

/-- A ticker that fires at these times is due each time. -/
def Heeds (t : Ticker) : List Nat → Prop
  | [] => True
  | time :: rest => t.deadline ≤ time ∧ (t.fire time).Heeds rest

theorem arm_deadline_add (period now k : Nat) :
    (arm period now).deadline + k * (arm period now).period = now + (k + 1) * period := by
  change now + period + k * period = _
  rw [Nat.succ_mul, Nat.add_assoc, Nat.add_comm period]

theorem fires_append (t : Ticker) (times more : List Nat) :
    t.fires (times ++ more) = (t.fires times).fires more :=
  List.foldl_append

theorem heeds_concat :
    t.Heeds (times ++ [time]) ↔ t.Heeds times ∧ (t.fires times).deadline ≤ time := by
  induction times generalizing t with
  | nil => exact ⟨fun h => ⟨trivial, h.1⟩, fun h => ⟨h.2, trivial⟩⟩
  | cons first rest ih =>
    show t.deadline ≤ first ∧ (t.fire first).Heeds (rest ++ [time]) ↔
      (t.deadline ≤ first ∧ (t.fire first).Heeds rest) ∧
        ((t.fire first).fires rest).deadline ≤ time
    rw [ih, and_assoc]

@[simp] theorem fire_period (t : Ticker) (now : Nat) : (t.fire now).period = t.period := by
  unfold fire
  split <;> rfl

theorem fires_period (t : Ticker) (times : List Nat) : (t.fires times).period = t.period := by
  induction times generalizing t with
  | nil => rfl
  | cons first rest ih => exact (ih (t.fire first)).trans (t.fire_period first)

theorem deadline_add_le (h : t.deadline ≤ now) :
    t.deadline + t.period ≤ (t.fire now).deadline := by
  unfold fire
  split
  · exact Nat.add_le_add_right h _
  · exact Nat.le_refl _

theorem now_add_le (t : Ticker) (now : Nat) :
    now + t.period ≤ (t.fire now).deadline + tolerance := by
  unfold fire
  split <;> rename_i hlate
  · exact Nat.le_add_right _ _
  · dsimp only
    omega

theorem fire_deadline (t : Ticker) :
    t.fire t.deadline = { t with deadline := t.deadline + t.period } :=
  if_neg (Nat.not_lt.2 (Nat.le_add_right _ _))

namespace Heeds

theorem le_deadline (h : t.Heeds times) :
    t.deadline + times.length * t.period ≤ (t.fires times).deadline := by
  induction times generalizing t with
  | nil => simp [fires]
  | cons first rest ih =>
    have hrest := ih h.2
    have hfirst := deadline_add_le h.1
    rw [fire_period] at hrest
    rw [List.length_cons, Nat.succ_mul]
    change _ ≤ ((t.fire first).fires rest).deadline
    omega

/-- A ticker does not fire for the `k`-th time before `k` periods have passed. -/
theorem le_getElem? (h : t.Heeds times) {k : Nat} (hk : times[k]? = some time) :
    t.deadline + k * t.period ≤ time := by
  induction times generalizing t k with
  | nil => simp at hk
  | cons first rest ih =>
    cases k with
    | zero =>
      obtain rfl : first = time := by simpa using hk
      simpa using h.1
    | succ k =>
      have htail : rest[k]? = some time := by simpa using hk
      have hrest := ih h.2 htail
      have hfirst := deadline_add_le h.1
      rw [fire_period] at hrest
      rw [Nat.succ_mul]
      omega

/-- Between two of its times lie as many periods as it fired since, up to the tolerance. -/
theorem spacing (h : t.Heeds times) {i k first last : Nat} (hfirst : times[i]? = some first)
    (hlast : times[i + k + 1]? = some last) : first + (k + 1) * t.period ≤ last + tolerance := by
  induction times generalizing t i with
  | nil => simp at hfirst
  | cons head rest ih =>
    cases i with
    | zero =>
      obtain rfl : head = first := by simpa using hfirst
      have htail : rest[k]? = some last := by simpa using hlast
      have hrest := h.2.le_getElem? htail
      have hnext := t.now_add_le head
      rw [fire_period] at hrest
      rw [Nat.succ_mul]
      omega
    | succ i =>
      have hfirst' : rest[i]? = some first := by simpa using hfirst
      have hlast' : rest[i + k + 1]? = some last := by
        rw [Nat.succ_add, Nat.succ_add] at hlast
        simpa using hlast
      have hspaced := ih h.2 hfirst' hlast'
      rwa [fire_period] at hspaced

end Heeds

/-- The first of these times comes a period after `began`, and each other a period after the one
before it. -/
def OnTime (period began : Nat) (times : List Nat) : Prop :=
  ∀ k time, times[k]? = some time → time = began + (k + 1) * period

namespace OnTime

variable {period began : Nat}

theorem init (h : OnTime period began (times ++ [time])) : OnTime period began times := by
  intro k tick hk
  refine h k tick ?_
  rw [List.getElem?_append_left (List.getElem?_eq_some_iff.1 hk).1]
  exact hk

theorem concat (h : OnTime period began times)
    (htime : time = began + (times.length + 1) * period) :
    OnTime period began (times ++ [time]) := by
  intro k tick hk
  rcases Nat.lt_or_ge k times.length with hbefore | hlast
  · rw [List.getElem?_append_left hbefore] at hk
    exact h k tick hk
  · have hbound := (List.getElem?_eq_some_iff.1 hk).1
    rw [List.length_append, List.length_singleton] at hbound
    obtain rfl : k = times.length := by omega
    rw [List.getElem?_concat_length] at hk
    rw [← Option.some.inj hk, htime]

theorem deadline_eq (h : OnTime period began times) :
    ((arm period began).fires times).deadline = began + (times.length + 1) * period := by
  induction times using List.reverseRecOn with
  | nil => simp [fires, arm]
  | append_singleton times time ih =>
    have htime : time = ((arm period began).fires times).deadline := by
      rw [ih h.init]
      exact h times.length time (by simp)
    rw [fires_append, htime]
    change (((arm period began).fires times).fire _).deadline = _
    rw [fire_deadline]
    dsimp only
    rw [ih h.init, fires_period, List.length_append, List.length_singleton,
      Nat.succ_mul (times.length + 1), ← Nat.add_assoc]
    rfl

end OnTime

end Ticker

/-! ### What a tick and a turn do to a countdown -/

namespace Session

theorem countdown_pickTimed (w : Outside) (s : Session) (index : Nat) :
    (s.pickTimed w index).1.state.countdown = s.state.countdown ∨
      (s.pickTimed w index).1.state.countdown = s.state.countdown.cancel := by
  rcases s.state.picks_or_not index with ⟨option, hoption, hnext⟩ | hnone
  · rw [(pickTimed_of_defines w hoption hnext).2]
    exact Or.inr rfl
  · rw [pickTimed_of_not_defines w hnone]
    exact Or.inl rfl

theorem countdown_tick (w : Outside) (s : Session) :
    (s.tick w).1.state.countdown = s.state.countdown.tick.1 := by
  cases hr : s.state.countdown.running with
  | none =>
    rw [tick_of_idle w hr, Countdown.tick_of_idle hr]
    rfl
  | some r =>
    by_cases hmore : 1 < r.remaining
    · rw [tick_of_more w hr hmore, Countdown.tick_of_more hr hmore]
      rfl
    · have hlast := Nat.not_lt.1 hmore
      rw [tick_of_last w hr hlast, Countdown.tick_of_last hr hlast]
      split
      · rcases countdown_pickTimed w (s.expire w r) r.defaultIndex with hkept | hcancelled
        · exact hkept
        · exact hcancelled
      · rfl

end Session

/-- **While no countdown is started**, a turn takes a second off the one that runs, if it is a tick,
and leaves its seconds alone if not. -/
theorem Turn.running_of_same_epoch {w : Outside} {s s' : State} {i : Input}
    {kinds : List EventKind} {r : Running} (ht : Turn w s (.input i) kinds s')
    (hsame : s'.countdown.epoch = s.countdown.epoch) (hr : s'.countdown.running = some r) :
    s.countdown.running = some r := by
  cases ht with
  | ignored => exact hr
  | scrolled => exact hr
  | nextLine => exact hr
  | menuOpened => exact hr
  | countdownStarted => exact absurd hsame (Nat.succ_ne_self _)
  | entered => nomatch hr
  | loaded => nomatch hr
  | picked => nomatch hr

theorem Countdown.running_of_tick {c : Countdown} {r : Running}
    (hr : c.tick.1.running = some r) :
    c.running = some { r with remaining := r.remaining + 1 } := by
  obtain ⟨before, hbefore, hmore, rfl⟩ := running_tick_iff.1 hr
  have hone : before.remaining - 1 + 1 = before.remaining := by omega
  rw [hbefore]
  dsimp only
  rw [hone]

/-! ### What a move of the loop does to them -/

/-- The times at which a move is a tick. -/
def Loop.Move.ticksAt (time : Nat) : Loop.Move → List Nat
  | tick => [time]
  | _ => []

namespace Loop

/-- The countdown of the session. -/
abbrev countdown (l : Loop) : Countdown := l.session.state.countdown

/-- A move makes no tick, and then waits for a book at most, or one when the ticker is due. -/
theorem Due.ticksAt {l : Loop} {now time : Nat} {m : Move} (hdue : Due l now time m) :
    m.ticksAt time = [] ∧ (l.busy = none → time = now) ∨
      m.ticksAt time = [time] ∧ time = max now l.ticker.deadline ∧ l.accepting = true ∧
        l.countdown.isRunning = true := by
  cases hdue with
  | finish hbusy => exact Or.inl ⟨rfl, fun hnone => nomatch hbusy.symm.trans hnone⟩
  | begin => exact Or.inl ⟨rfl, fun _ => rfl⟩
  | stop => exact Or.inl ⟨rfl, fun _ => rfl⟩
  | tick _ _ hopen hcounting => exact Or.inr ⟨rfl, rfl, hopen, hcounting⟩

/-- While a countdown runs and no book is waited for, the next move comes when the ticker is due at
the latest. -/
theorem exists_next? {l : Loop} (hrunning : l.running = true) (hbusy : l.busy = none)
    (hopen : l.accepting = true) (hcounting : l.countdown.isRunning = true) (now : Nat) :
    ∃ time m, l.next? now = some (time, m) ∧ time ≤ max now l.ticker.deadline := by
  cases hqueue : l.queue with
  | nil =>
    exact ⟨max now l.ticker.deadline, .tick,
      by simp [next?, hrunning, hbusy, hqueue, hopen, hcounting], Nat.le_refl _⟩
  | cons i rest =>
    exact ⟨now, .begin i rest, by simp [next?, hrunning, hbusy, hqueue], Nat.le_max_left _ _⟩

/-- Between `l` and `l'` the ticker fired at some times, or it was armed at `now` for another
countdown. -/
structure Clocked (l : Loop) (times : List Nat) (now : Nat) (l' : Loop) : Prop where
  armedEpoch_eq : l'.armedEpoch = l'.countdown.epoch
  kept : l'.countdown.epoch = l.countdown.epoch → l'.ticker = l.ticker.fires times
  armed : l'.countdown.epoch ≠ l.countdown.epoch → l'.ticker = .arm l.ticker.period now

theorem publish_rearm_clocked {l : Loop} (times : List Nat) (now : Nat) (l' : Loop)
    (harmed : l'.armedEpoch = l.countdown.epoch) (hticker : l'.ticker = l.ticker.fires times) :
    Clocked l times now (l'.rearm now).publish.1 := by
  have hperiod : l'.ticker.period = l.ticker.period := by rw [hticker, Ticker.fires_period]
  rw [publish_eq]
  unfold rearm
  dsimp only
  split <;> rename_i hepoch
  · exact ⟨hepoch.symm, fun _ => hticker, fun hnew => absurd (hepoch.trans harmed) hnew⟩
  · exact ⟨rfl, fun hsame => absurd (hsame.trans harmed.symm) hepoch,
      fun _ => congrArg (Ticker.arm · now) hperiod⟩

theorem finish_clocked {l : Loop} (harmed : l.armedEpoch = l.countdown.epoch) (w : Outside)
    (now : Nat) (i : Input) : Clocked l [] now (l.finish w now i).1 := by
  have hsettled := publish_rearm_clocked [] now
    { l with session := (l.session.handle w i).1, busy := none } harmed rfl
  unfold finish
  dsimp only
  cases hanswer : (l.session.handle w i).2 with
  | ok heeded => exact hsettled
  | error e =>
    dsimp only
    split
    · exact hsettled
    · -- the ticker is not armed here, but a failed load starts no countdown
      obtain ⟨_, _, _, _, _, hrefused⟩ := Session.perform_of_error (c := .input i) hanswer
      have hsame : (l.session.handle w i).1.state.countdown = l.countdown :=
        congrArg (·.state.countdown) hrefused
      exact ⟨harmed.trans (congrArg Countdown.epoch hsame).symm, fun _ => rfl,
        fun hnew => absurd (congrArg Countdown.epoch hsame) hnew⟩

/-- **A move keeps the ticker** for the countdown that it was armed for, or arms it anew for
another. -/
theorem move_clocked {l : Loop} (harmed : l.armedEpoch = l.countdown.epoch) (w : Surroundings)
    (time : Nat) (m : Move) : Clocked l (m.ticksAt time) time (l.move w time m).1 := by
  cases m with
  | finish i => exact finish_clocked harmed w.toOutside time i
  | begin i rest =>
    unfold move
    dsimp only
    split
    · obtain ⟨hepoch, hkept, harmed'⟩ :=
        finish_clocked (l := { l with queue := rest }) harmed w.toOutside time i
      exact ⟨hepoch, hkept, harmed'⟩
    · exact ⟨harmed, fun _ => rfl, fun hnew => absurd rfl hnew⟩
  | tick =>
    exact publish_rearm_clocked [time] time
      { l with session := (l.session.tick w.toOutside).1, ticker := l.ticker.fire time } harmed rfl
  | stop => exact ⟨harmed, fun _ => rfl, fun hnew => absurd rfl hnew⟩

theorem eq_tick_of_callOf {w : Surroundings} {l : Loop} {m : Move}
    (hc : l.callOf w m = some .tick) : m = .tick := by
  cases m with
  | finish i => nomatch hc
  | begin i rest =>
    change (if l.delayOf w i = 0 then some (Call.input i) else none) = some .tick at hc
    split at hc <;> nomatch hc
  | tick => rfl
  | stop => nomatch hc

theorem ticksAt_of_callOf {w : Surroundings} {l : Loop} {m : Move} {i : Input} {time : Nat}
    (hc : l.callOf w m = some (.input i)) : m.ticksAt time = [] := by
  cases m with
  | tick => nomatch hc
  | _ => rfl

theorem countdown_of_called {w : Outside} {c : Call} {l l' : Loop} {updates : List Update}
    (h : Called w c l l' updates) :
    l'.countdown = (l.session.perform w c).1.state.countdown :=
  congrArg (·.state.countdown) h.session_eq

theorem epoch_le_move {w : Surroundings} {l : Loop} {now time : Nat} {m : Move}
    (hdue : Due l now time m) (hpending : l.session.pending = []) :
    l.countdown.epoch ≤ (l.move w time m).1.countdown.epoch := by
  cases hc : l.callOf w m with
  | none =>
    obtain ⟨_, hsession, _⟩ := move_noCall hdue hc
    exact Nat.le_of_eq (congrArg (·.state.countdown.epoch) hsession.symm)
  | some c =>
    rw [countdown_of_called (move_call hdue hpending hc).1,
      (l.session.perform_turn w.toOutside c).epoch_eq]
    exact Nat.le_add_right _ _

/-- **A countdown that runs after a move** ran before it, unless it was just started, with a second
more if the move is a tick. -/
theorem running_of_move {w : Surroundings} {l : Loop} {now time : Nat} {m : Move} {r : Running}
    (hdue : Due l now time m) (hpending : l.session.pending = [])
    (hsame : (l.move w time m).1.countdown.epoch = l.countdown.epoch)
    (hr : (l.move w time m).1.countdown.running = some r) :
    l.countdown.running =
      some { r with remaining := r.remaining + (m.ticksAt time).length } := by
  cases hc : l.callOf w m with
  | none =>
    obtain ⟨_, hsession, _⟩ := move_noCall hdue hc
    rw [countdown, hsession] at hr
    cases m with
    | tick => nomatch hc
    | _ => exact hr
  | some c =>
    rw [countdown_of_called (move_call hdue hpending hc).1] at hr hsame
    cases c with
    | tick =>
      obtain rfl := eq_tick_of_callOf hc
      exact Countdown.running_of_tick ((l.session.countdown_tick w.toOutside).symm ▸ hr)
    | input i =>
      rw [ticksAt_of_callOf hc]
      exact (l.session.perform_turn w.toOutside (.input i)).running_of_same_epoch hsame hr

end Loop

end Gamebook
