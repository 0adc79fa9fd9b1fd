import Gamebook.Proofs.Loop.Origin

/-!
# Countdowns keep time under the loop

From where a countdown began the ticker goes by the ticks of that countdown
alone, as long as no other is started (`Path.paced`).  So no tick comes early,
however long the loop is held up, and no second is lost before its period has
passed (`Timed`).

If nothing holds the loop up it also never gets behind (`Path.prompt`), and each
tick comes just at its time, whatever inputs come in between (`Punctual`).
-/

namespace Gamebook

namespace Loop

/-! ### The pace of a countdown -/

/-- How far the countdown `first`, which began at the time `began`, has come. -/
structure Paced (period began : Nat) (first : Countdown) (since : Past) (now : Nat) (l : Loop) :
    Prop where
  ticker_eq : l.ticker = (Ticker.arm period began).fires since.tickTimes
  heeds : (Ticker.arm period began).Heeds since.tickTimes
  running : ∀ r, l.countdown.running = some r →
    first.running = some { r with remaining := r.remaining + since.tickTimes.length }
  elapsed : began + since.tickTimes.length * period ≤ now

namespace Paced

variable {period began now later : Nat} {first : Countdown} {since : Past} {l l' : Loop}

theorem origin {session : Session} {before : Past}
    (h : Origin session period before began l) : Paced period began l.countdown [] began l :=
  ⟨h.ticker_eq, trivial, fun _ hr => hr, Nat.le_of_eq (by simp [Past.tickTimes])⟩

theorem concat (h : Paced period began first since now l) (more : Past)
    (hmore : more.tickTimes = []) (hticker : l'.ticker = l.ticker)
    (hsession : l'.session = l.session) (hlater : now ≤ later) :
    Paced period began first (since ++ more) later l' := by
  have htimes : Past.tickTimes (since ++ more) = since.tickTimes := by
    rw [Past.tickTimes_append, hmore, List.append_nil]
  refine ⟨?_, ?_, ?_, ?_⟩ <;> rw [htimes]
  · exact hticker.trans h.ticker_eq
  · exact h.heeds
  · rw [countdown, hsession]
    exact h.running
  · exact Nat.le_trans h.elapsed hlater

theorem le_deadline (h : Paced period began first since now l) :
    began + (since.tickTimes.length + 1) * period ≤ l.ticker.deadline := by
  rw [h.ticker_eq, ← Ticker.arm_deadline_add]
  exact h.heeds.le_deadline

/-- **A move** is another tick, in its time, or none. -/
theorem move (h : Paced period began first since now l) {w : Surroundings} {time : Nat} {m : Move}
    (hdue : Due l now time m) (hpending : l.session.pending = [])
    (harmed : l.armedEpoch = l.countdown.epoch)
    (hsame : (l.move w time m).1.countdown.epoch = l.countdown.epoch) :
    Paced period began first (since ++ l.seen w time m) time (l.move w time m).1 := by
  have hticker := (move_clocked harmed w time m).kept hsame
  have htimes : Past.tickTimes (since ++ l.seen w time m) = since.tickTimes ++ m.ticksAt time := by
    rw [Past.tickTimes_append, tickTimes_seen]
  have hrunning (r : Running) (hr : (l.move w time m).1.countdown.running = some r) :
      first.running = some { r with remaining :=
        r.remaining + (Past.tickTimes (since ++ l.seen w time m)).length } := by
    rw [h.running _ (running_of_move hdue hpending hsame hr), htimes, List.length_append,
      Nat.add_assoc, Nat.add_comm (m.ticksAt time).length]
  refine ⟨?_, ?_, hrunning, ?_⟩ <;> rw [htimes]
  · rw [hticker, h.ticker_eq, Ticker.fires_append]
  · rcases hdue.ticksAt with ⟨hnone, _⟩ | ⟨htick, htime, _⟩
    · rw [hnone, List.append_nil]
      exact h.heeds
    · rw [htick]
      refine Ticker.heeds_concat.2 ⟨h.heeds, ?_⟩
      rw [← h.ticker_eq, htime]
      exact Nat.le_max_right _ _
  · rcases hdue.ticksAt with ⟨hnone, _⟩ | ⟨htick, htime, _⟩
    · rw [hnone, List.append_nil]
      exact Nat.le_trans h.elapsed hdue.le
    · rw [htick, List.length_append, List.length_singleton, htime]
      exact Nat.le_trans h.le_deadline (Nat.le_max_right _ _)

end Paced

namespace Path

variable {session : Session} {period began now : Nat} {before since : Past} {held : Prop}
  {origin l : Loop}

/-- **Along a path on which no other countdown is started** the countdown keeps its pace. -/
theorem paced (horigin : Origin session period before began origin)
    (h : Path held origin began since now l)
    (hsame : l.countdown.epoch = origin.countdown.epoch) :
    Paced period began origin.countdown since now l := by
  induction h with
  | refl => exact .origin horigin
  | wait h hlater hprompt ih =>
    have hpaced := (ih hsame).concat [] rfl rfl rfl hlater
    rwa [List.append_nil] at hpaced
  | @send past time l h i ih =>
    obtain ⟨queue, hsend⟩ := exists_send_eq i l
    rw [hsend] at hsame ⊢
    exact (ih hsame).concat _ (tickTimes_sent i _) rfl rfl (Nat.le_refl _)
  | close h ih => exact (ih hsame).concat _ rfl rfl rfl (Nat.le_refl _)
  | deafen h ih => exact (ih hsame).concat _ rfl rfl rfl (Nat.le_refl _)
  | @move past time due l m h w hnext hfetched ih =>
    have hrun := horigin.run.path h
    have hdue := (due_of_next? hnext).2
    have hbefore := epoch_eq_of_move horigin.run h hdue hsame
    exact (ih hbefore).move hdue hrun.sequential.pending_eq_nil hrun.clocked.1
      (hsame.trans hbefore.symm)

end Path

/-! ### The pace of a loop that nothing holds up -/

/-- A loop that is not behind: no book is waited for, and the next tick is still to come. -/
structure Prompt (period began : Nat) (since : Past) (now : Nat) (l : Loop) : Prop where
  busy_eq_none : l.busy = none
  onTime : Ticker.OnTime period began since.tickTimes
  now_le : l.running = true → l.accepting = true → l.countdown.isRunning = true →
    now ≤ l.ticker.deadline

namespace Prompt

variable {period began now later : Nat} {first : Countdown} {since : Past} {l l' : Loop}

theorem concat (h : Prompt period began since now l) (more : Past) (hmore : more.tickTimes = [])
    (hbusy : l'.busy = l.busy)
    (hle : l'.running = true → l'.accepting = true → l'.countdown.isRunning = true →
      later ≤ l'.ticker.deadline) : Prompt period began (since ++ more) later l' := by
  refine ⟨hbusy.trans h.busy_eq_none, ?_, hle⟩
  rw [Past.tickTimes_append, hmore, List.append_nil]
  exact h.onTime

/-- **A move at its time** leaves the loop not behind, if it leaves no book to be waited for. -/
theorem move (h : Prompt period began since now l) (hpaced : Paced period began first since now l)
    {w : Surroundings} {time : Nat} {m : Move} (hrunning : l.running = true)
    (hdue : Due l now time m) (hpending : l.session.pending = [])
    (harmed : l.armedEpoch = l.countdown.epoch)
    (hsame : (l.move w time m).1.countdown.epoch = l.countdown.epoch)
    (hfetched : (l.move w time m).1.busy = none) :
    Prompt period began (since ++ l.seen w time m) time (l.move w time m).1 := by
  have hticker := (move_clocked harmed w time m).kept hsame
  have htimes : Past.tickTimes (since ++ l.seen w time m) = since.tickTimes ++ m.ticksAt time := by
    rw [Past.tickTimes_append, tickTimes_seen]
  have hcounting (hafter : (l.move w time m).1.countdown.isRunning = true) :
      l.countdown.isRunning = true := by
    obtain ⟨r, hr⟩ := Option.isSome_iff_exists.1 hafter
    exact Option.isSome_iff_exists.2 ⟨_, running_of_move hdue hpending hsame hr⟩
  rcases hdue.ticksAt with ⟨hnone, htime⟩ | ⟨htick, htime, hopen, hbefore⟩
  · rw [hnone, List.append_nil] at htimes
    refine ⟨hfetched, by rw [htimes]; exact h.onTime, fun _ hopen hafter => ?_⟩
    rw [hticker, hnone, htime h.busy_eq_none]
    rw [accepting_move] at hopen
    exact h.now_le hrunning hopen (hcounting hafter)
  · have hdeadline : time = l.ticker.deadline := by
      rw [htime]
      exact Nat.max_eq_right (h.now_le hrunning hopen hbefore)
    refine ⟨hfetched, ?_, fun _ _ _ => ?_⟩
    · rw [htimes, htick]
      refine h.onTime.concat ?_
      rw [hdeadline, hpaced.ticker_eq]
      exact h.onTime.deadline_eq
    · rw [hticker, htick, hdeadline]
      change _ ≤ (l.ticker.fire l.ticker.deadline).deadline
      rw [Ticker.fire_deadline]
      exact Nat.le_add_right _ _

end Prompt

theorem Path.prompt {session : Session} {period began now : Nat} {before since : Past}
    {held : Prop} {origin l : Loop} (horigin : Origin session period before began origin)
    (h : Path held origin began since now l) (hheld : ¬ held)
    (hsame : l.countdown.epoch = origin.countdown.epoch) : Prompt period began since now l := by
  induction h with
  | refl =>
    refine ⟨horigin.busy_eq_none, nofun, fun _ _ _ => ?_⟩
    rw [horigin.ticker_eq]
    exact Nat.le_add_right _ _
  | @wait past time later l h hlater hprompt ih =>
    have hle (hrunning : l.running = true) (hopen : l.accepting = true)
        (hcounting : l.countdown.isRunning = true) : later ≤ l.ticker.deadline := by
      have hbefore := (ih hsame).now_le hrunning hopen hcounting
      obtain ⟨due, m, hnext, hdue⟩ :=
        exists_next? hrunning (ih hsame).busy_eq_none hopen hcounting time
      have := hprompt.resolve_left hheld due m hnext
      omega
    have hwaited := (ih hsame).concat [] rfl rfl hle
    rwa [List.append_nil] at hwaited
  | @send past time l h i ih =>
    obtain ⟨queue, hsend⟩ := exists_send_eq i l
    rw [hsend] at hsame ⊢
    exact (ih hsame).concat _ (tickTimes_sent i _) rfl (ih hsame).now_le
  | close h ih => exact (ih hsame).concat _ rfl rfl nofun
  | deafen h ih => exact (ih hsame).concat _ rfl rfl (ih hsame).now_le
  | @move past time due l m h w hnext hfetched ih =>
    have hrun := horigin.run.path h
    obtain ⟨hrunning, hdue⟩ := due_of_next? hnext
    have hbefore := epoch_eq_of_move horigin.run h hdue hsame
    exact (ih hbefore).move (h.paced horigin hbefore) hrunning hdue hrun.sequential.pending_eq_nil
      hrun.clocked.1 (hsame.trans hbefore.symm) (hfetched.resolve_left hheld)

/-! ### Main result -/

/-- How the countdown `first`, which began at the time `began`, keeps time, however long the loop is
held up. -/
structure Timed (period began : Nat) (first : Countdown) (since : Past) (now : Nat) (l : Loop) :
    Prop where
  /-- The ticker goes by the ticks of this countdown alone. -/
  ticker_eq : l.ticker = (Ticker.arm period began).fires since.tickTimes
  /-- No tick comes before all of its periods have passed. -/
  tick : ∀ k time, since.tickTimes[k]? = some time → began + (k + 1) * period ≤ time
  /-- Nor does it come nearer to an earlier one than the periods between them, up to the
  tolerance. -/
  spacing : ∀ i k earlier later, since.tickTimes[i]? = some earlier →
    since.tickTimes[i + k + 1]? = some later → earlier + (k + 1) * period ≤ later + Ticker.tolerance
  /-- Each tick took one second, and a period has passed for each. -/
  remaining : ∀ r, l.countdown.running = some r →
    first.running = some { r with remaining := r.remaining + since.tickTimes.length } ∧
      began + since.tickTimes.length * period ≤ now
  /-- The tick that expires it does not come before all of its seconds have passed. -/
  expiry : ∀ time owner defaultIndex r, l.next? now = some (time, .tick) →
    l.countdown.tick.2 = .expired owner defaultIndex → first.running = some r →
      began + r.remaining * period ≤ time

/-- How a countdown that began at the time `began` keeps time if nothing holds the loop up. -/
structure Punctual (period began : Nat) (since : Past) (now : Nat) (l : Loop) : Prop where
  /-- Each tick comes just when its periods have passed. -/
  tick : ∀ k time, since.tickTimes[k]? = some time → time = began + (k + 1) * period
  /-- No time passes beyond the next one. -/
  now_le : l.running = true → l.accepting = true → l.countdown.isRunning = true →
    now ≤ began + (since.tickTimes.length + 1) * period

theorem Paced.timed {period began now : Nat} {first : Countdown} {since : Past} {l : Loop}
    (h : Paced period began first since now l) : Timed period began first since now l where
  ticker_eq := h.ticker_eq
  tick k time hk := by
    rw [← Ticker.arm_deadline_add]
    exact h.heeds.le_getElem? hk
  spacing _ _ _ _ hearlier hlater := h.heeds.spacing hearlier hlater
  remaining r hr := ⟨h.running r hr, h.elapsed⟩
  expiry time owner defaultIndex r hnext hexpired hfirst := by
    obtain ⟨last, hlast, hone, _⟩ := Countdown.tick_eq_expired_iff.1 hexpired
    obtain rfl := Option.some.inj (hfirst.symm.trans (h.running last hlast))
    have hticks : (last.remaining + since.tickTimes.length) * period ≤
        (since.tickTimes.length + 1) * period := Nat.mul_le_mul_right _ (by omega)
    have hdeadline := h.le_deadline
    cases (due_of_next? hnext).2 with
    | tick =>
      dsimp only
      omega

theorem Paced.punctual {period began now : Nat} {first : Countdown} {since : Past} {l : Loop}
    (h : Paced period began first since now l) (hprompt : Prompt period began since now l) :
    Punctual period began since now l where
  tick := hprompt.onTime
  now_le hrunning hopen hcounting := by
    rw [← hprompt.onTime.deadline_eq, ← h.ticker_eq]
    exact hprompt.now_le hrunning hopen hcounting

end Loop

open Loop in
/-- **Countdowns keep time under the loop.**  In every run no tick goes ahead of an input, and the
loop goes on from where its countdown began: from the start, or from the move that started it.  From
there on no tick comes early, however long fetches hold the loop up, and each comes just at its time
if none does.  Letting time pass goes on in that way. -/
theorem countdown_keeps_time {session : Session} {period now : Nat} {past : Past} {l : Loop}
    (hperiod : 0 < period) (h : Run session period past now l) :
    (∀ (first last : Past) (time : Nat) (w : Outside),
      past = first ++ .called time w .tick :: last → first.inputs = first.sent) ∧
    Underway session period past now l ∧
    (∀ (held : Prop) (before since : Past) (began later : Nat) (origin l' : Loop),
      Origin session period before began origin → Path held origin began since later l' →
      l'.countdown.epoch = origin.countdown.epoch →
        Timed period began origin.countdown since later l' ∧
          (¬ held → Punctual period began since later l')) ∧
    ∀ (held : Prop) (w : Surroundings) (limit : Nat), now ≤ limit →
      (held ∨ ∀ n locator, w.delay n locator = 0) →
        ∃ more : Past, Path held l now more limit (l.runUntil w now limit).1 ∧
          more.updates = (l.runUntil w now limit).2 := by
  refine ⟨fun first last time w hpast => h.inputs_before_tick hpast, h.underway, ?_, ?_⟩
  · intro held before since began later origin l' horigin hpath hsame
    have hpaced := hpath.paced horigin hsame
    exact ⟨hpaced.timed, fun hheld => hpaced.punctual (hpath.prompt horigin hheld hsame)⟩
  · intro held w limit hlimit hquick
    exact h.path_runUntil hperiod hlimit w hquick

/-- The loop around the session at the door when the countdown is started at 400. -/
def doorOrigin : Loop :=
  (((Loop.start doorSession 1000 0).1.send .advance).1.move noBooks 400 (.begin .advance [])).1

/-- The same loop when it passed over a pick of an option that is not there. -/
def doorPicked : Loop := ((doorOrigin.send (.choose 7)).1.move noBooks 900 (.begin (.choose 7) [])).1

/-- A countdown that is started at 400 has its first tick at 1400, whatever is picked at 900. -/
theorem countdown_keeps_time_at_door :
    ∃ (before since : Past) (l : Loop),
      Loop.Origin doorSession 1000 before 400 doorOrigin ∧
      doorOrigin.countdown.running = some ⟨"door", 3, 0⟩ ∧
      Loop.Path False doorOrigin 400 since 1400 l ∧ since.inputs = [.choose 7] ∧
      since.tickTimes = [1400] ∧ l.countdown.running = some ⟨"door", 2, 0⟩ ∧
      Loop.Timed 1000 400 doorOrigin.countdown since 1400 l ∧
      Loop.Punctual 1000 400 since 1400 l := by
  have hsent : Loop.Run doorSession 1000 _ 400 _ :=
    ((Loop.Run.start 0).send .advance).wait (by decide)
  have horigin : Loop.Origin doorSession 1000 _ 400 doorOrigin :=
    .started hsent noBooks rfl (by decide +kernel)
  have hwaited : Loop.Path False doorOrigin 400 [] 900 doorOrigin := by
    refine Loop.Path.refl.wait (by decide) (Or.inr fun due m hnext => ?_)
    have htick : doorOrigin.next? 400 = some (1400, .tick) := rfl
    obtain ⟨rfl, _⟩ := Prod.mk.inj (Option.some.inj (htick.symm.trans hnext))
    decide
  have hpicked : Loop.Path False doorOrigin 400 _ 900 doorPicked :=
    (hwaited.send (.choose 7)).move noBooks rfl (Or.inr rfl)
  have hfacts : doorPicked.running = true ∧ doorPicked.busy = none ∧ doorPicked.queue = [] ∧
      doorPicked.accepting = true ∧ doorPicked.countdown.isRunning = true ∧
      doorPicked.ticker.deadline = 1400 := by
    decide +kernel
  obtain ⟨hrunning, hbusy, hqueue, hopen, hcounting, hdeadline⟩ := hfacts
  have htick : doorPicked.next? 900 = some (1400, .tick) := by
    simp [Loop.next?, hrunning, hbusy, hqueue, hopen, hcounting, hdeadline]
  have hticked : Loop.Path False doorOrigin 400 _ 1400 _ :=
    hpicked.move noBooks htick (Or.inr (Loop.busy_move (Loop.due_of_next? htick).2 (by simp)))
  obtain ⟨_, _, htimed, _⟩ := countdown_keeps_time (by decide) (horigin.run.path hticked)
  obtain ⟨hkept, hpunctual⟩ :=
    htimed False _ _ 400 1400 doorOrigin _ horigin hticked (by decide +kernel)
  exact ⟨_, _, _, horigin, by decide +kernel, hticked, by decide +kernel, by decide +kernel,
    by decide +kernel, hkept, hpunctual id⟩

end Gamebook
