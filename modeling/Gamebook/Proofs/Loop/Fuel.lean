import Gamebook.Proofs.Loop.Run

/-!
# No run of the loop is cut short

The loop's functions bound the number of moves.  The bounds are never reached.
Each move but a tick does some of the work that a loop has before it
(`work_move_lt`), and a tick moves the deadline on (`effort_move_lt`).  So
`runToEnd` ends the loop (`runToEnd_ended`), and `runUntil` leaves nothing that
is due before its limit (`Run.runUntil_settled`).
-/

namespace Gamebook

namespace Loop

/-! ### Work -/

/-- A bound on the moves that a loop makes without its ticks: two for each input, one of them once
the input waits for its book, and one to end. -/
def work (l : Loop) : Nat :=
  2 * l.queue.length + (if l.busy.isSome then 1 else 0) + if l.running then 1 else 0

theorem work_finish_le (w : Outside) (now : Nat) (i : Input) (l : Loop) :
    (l.finish w now i).1.work ≤ 2 * l.queue.length + 1 := by
  obtain ⟨_, _, _, running, hfinish, _⟩ := exists_finish_eq w now i l
  rw [hfinish, work]
  cases running <;> simp

theorem work_tick_le (w : Outside) (now : Nat) {l : Loop} (hrunning : l.running = true) :
    (l.tick w now).1.work ≤ l.work := by
  obtain ⟨_, _, _, running, htick, _⟩ := exists_tick_eq w now l
  rw [htick, work, work, hrunning]
  cases running <;> simp

/-- **Every move but a tick does some of the work.** -/
theorem work_move_lt (w : Surroundings) {l : Loop} {now time : Nat} {m : Move}
    (hrunning : l.running = true) (hdue : Due l now time m) (hm : m ≠ .tick) :
    (l.move w time m).1.work < l.work := by
  cases hdue with
  | @finish due i hbusy =>
    have hfinish := work_finish_le w.toOutside (max now due) i l
    have hwork : l.work = 2 * l.queue.length + 1 + 1 := by
      rw [work, hbusy, hrunning]
      rfl
    exact hwork ▸ Nat.lt_succ_of_le hfinish
  | @begin i rest hbusy hqueue =>
    have hwork : l.work = 2 * rest.length + 1 + 2 := by
      rw [work, hbusy, hrunning, hqueue, List.length_cons]
      simp
      omega
    by_cases hdelay : l.delayOf w i = 0
    · have hmove : l.move w now (.begin i rest) =
          ({ l with queue := rest } : Loop).finish w.toOutside now i := if_pos hdelay
      have hfinish := work_finish_le w.toOutside now i { l with queue := rest }
      rw [hmove, hwork]
      exact Nat.lt_succ_of_le (Nat.le_succ_of_le hfinish)
    · have hmove : l.move w now (.begin i rest) =
          ({ l with queue := rest, busy := some (now + l.delayOf w i, i) }, []) := if_neg hdelay
      rw [hmove, hwork, work, hrunning]
      simp
  | stop hbusy hqueue hclosed =>
    change Loop.work { l with running := false } < l.work
    rw [work, work, hrunning]
    simp
  | tick => exact absurd rfl hm

/-! ### The end of a closed loop -/

theorem accepting_move (w : Surroundings) (l : Loop) (time : Nat) (m : Move) :
    (l.move w time m).1.accepting = l.accepting := by
  have hfinish (i : Input) (l : Loop) :
      (l.finish w.toOutside time i).1.accepting = l.accepting := by
    obtain ⟨_, _, _, _, hfinish, _⟩ := exists_finish_eq w.toOutside time i l
    rw [hfinish]
  cases m with
  | finish i => exact hfinish i l
  | begin i rest =>
    unfold move
    dsimp only
    split
    · exact hfinish i { l with queue := rest }
    · rfl
  | stop => rfl
  | tick =>
    obtain ⟨_, _, _, _, htick, _⟩ := exists_tick_eq w.toOutside time l
    change (l.tick w.toOutside time).1.accepting = _
    rw [htick]

theorem running_of_next?_eq_none {l : Loop} {now : Nat} (haccepting : l.accepting = false)
    (hnext : l.next? now = none) : l.running = false := by
  unfold next? at hnext
  cases hrunning : l.running with
  | false => rfl
  | true =>
    rw [hrunning, if_neg (by simp)] at hnext
    cases hbusy : l.busy with
    | some waited => simp [hbusy] at hnext
    | none =>
      cases hqueue : l.queue with
      | cons i rest => simp [hbusy, hqueue] at hnext
      | nil => simp [hbusy, hqueue, haccepting] at hnext

theorem running_moves_of_closed (w : Surroundings) {l : Loop} (haccepting : l.accepting = false)
    {fuel : Nat} (now : Nat) (hfuel : l.work ≤ fuel) :
    (l.moves w none fuel now).1.running = false := by
  induction fuel generalizing l now with
  | zero =>
    change l.running = false
    cases hrunning : l.running with
    | false => rfl
    | true =>
      rw [work, hrunning] at hfuel
      simp at hfuel
  | succ fuel ih =>
    unfold moves
    cases hnext : l.next? now with
    | none => exact running_of_next?_eq_none haccepting hnext
    | some next =>
      obtain ⟨time, m⟩ := next
      obtain ⟨hrunning, hdue⟩ := due_of_next? hnext
      have hm : m ≠ .tick := by
        rintro rfl
        cases hdue with
        | tick _ _ hopen _ => rw [haccepting] at hopen; exact Bool.noConfusion hopen
      have hwork := work_move_lt w hrunning hdue hm
      exact ih ((accepting_move w l time m).trans haccepting) time (by omega)

theorem work_le (l : Loop) : l.work ≤ 2 * l.queue.length + 2 := by
  unfold work
  split <;> split <;> omega

/-- **Running to the end ends the loop.** -/
theorem runToEnd_ended (w : Surroundings) (now : Nat) (l : Loop) :
    (l.runToEnd w now).1.running = false := by
  refine running_moves_of_closed w rfl now ?_
  exact Nat.le_trans l.close.work_le (Nat.add_le_add_left (by decide) _)

/-! ### Deadlines -/

/-- The ticker is due within a period. -/
def Armed (now : Nat) (l : Loop) : Prop :=
  0 < l.ticker.period ∧ l.ticker.deadline ≤ now + l.ticker.period

/-- A bound on the moves that a loop makes before the limit. -/
def effort (limit : Nat) (l : Loop) : Nat := l.work + (limit - l.ticker.deadline)

theorem Armed.later {l : Loop} {now later : Nat} (h : Armed now l) (hlater : now ≤ later) :
    Armed later l :=
  ⟨h.1, Nat.le_trans h.2 (Nat.add_le_add_right hlater _)⟩

theorem Armed.rearm {l l' : Loop} {now : Nat} (h : Armed now l)
    (hticker : l'.ticker = l.ticker ∨ l'.ticker = .arm l.ticker.period now) :
    Armed now l' ∧ l.ticker.deadline ≤ l'.ticker.deadline := by
  unfold Armed
  rcases hticker with hkept | harmed
  · rw [hkept]
    exact ⟨h, Nat.le_refl _⟩
  · rw [harmed]
    exact ⟨⟨h.1, Nat.le_refl _⟩, h.2⟩

theorem Armed.fire {l : Loop} {now : Nat} (h : Armed now l) (hdue : l.ticker.deadline ≤ now) :
    Armed now { l with ticker := l.ticker.fire now } ∧
      l.ticker.deadline < (l.ticker.fire now).deadline := by
  have hperiod := h.1
  unfold Armed Ticker.fire
  split
  · exact ⟨⟨hperiod, Nat.le_refl _⟩, by unfold Ticker.arm; dsimp only; omega⟩
  · exact ⟨⟨hperiod, by dsimp only; omega⟩, Nat.lt_add_of_pos_right hperiod⟩

theorem ticker_finish (w : Outside) (now : Nat) (i : Input) (l : Loop) :
    (l.finish w now i).1.ticker = l.ticker ∨
      (l.finish w now i).1.ticker = .arm l.ticker.period now := by
  obtain ⟨_, _, _, _, hfinish, _, hticker⟩ := exists_finish_eq w now i l
  rw [hfinish]
  exact hticker

theorem ticker_tick (w : Outside) (now : Nat) (l : Loop) :
    (l.tick w now).1.ticker = l.ticker.fire now ∨
      (l.tick w now).1.ticker = .arm (l.ticker.fire now).period now := by
  obtain ⟨_, _, _, _, htick, _, hticker⟩ := exists_tick_eq w now l
  rw [htick]
  exact hticker

/-- **Every move before the limit takes some of the effort**, and leaves the ticker due within a
period. -/
theorem effort_move_lt (w : Surroundings) {l : Loop} {now time limit : Nat} {m : Move}
    (hrunning : l.running = true) (hdue : Due l now time m) (harmed : Armed now l)
    (hlimit : time < limit) :
    Armed time (l.move w time m).1 ∧ (l.move w time m).1.effort limit < l.effort limit := by
  have hlater := harmed.later hdue.le
  have hother (hm : m ≠ .tick) (hticker : (l.move w time m).1.ticker = l.ticker ∨
      (l.move w time m).1.ticker = .arm l.ticker.period time) :
      Armed time (l.move w time m).1 ∧ (l.move w time m).1.effort limit < l.effort limit := by
    obtain ⟨harmed', hdeadline⟩ := hlater.rearm hticker
    have hwork := work_move_lt w hrunning hdue hm
    exact ⟨harmed', by unfold effort; omega⟩
  cases hdue with
  | @finish due i hbusy => exact hother nofun (ticker_finish w.toOutside _ i l)
  | @begin i rest hbusy hqueue =>
    refine hother nofun ?_
    unfold move
    dsimp only
    split
    · exact ticker_finish w.toOutside now i { l with queue := rest }
    · exact Or.inl rfl
  | stop => exact hother nofun (Or.inl rfl)
  | tick =>
    obtain ⟨hfired, hdeadline⟩ := hlater.fire (Nat.le_max_right now _)
    obtain ⟨harmed', hdeadline'⟩ := hfired.rearm
      (ticker_tick w.toOutside (max now l.ticker.deadline) l)
    have hwork := work_tick_le w.toOutside (max now l.ticker.deadline) hrunning
    show Armed _ (l.tick _ _).1 ∧ (l.tick _ _).1.effort limit < _
    dsimp only at hdeadline'
    exact ⟨harmed', by unfold effort; omega⟩

/-- A move that is next stays next while time passes, and is due no later than it was or at once. -/
theorem next?_later {l : Loop} {now time : Nat} {m : Move} (later : Nat)
    (hnext : l.next? now = some (time, m)) :
    ∃ time', l.next? later = some (time', m) ∧ time' ≤ max later time := by
  obtain ⟨hrunning, hdue⟩ := due_of_next? hnext
  cases hdue with
  | @finish due i hbusy => exact ⟨max later due, by simp [next?, hrunning, hbusy], by omega⟩
  | begin hbusy hqueue => exact ⟨later, by simp [next?, hrunning, hbusy, hqueue], by omega⟩
  | stop hbusy hqueue hclosed =>
    exact ⟨later, by simp [next?, hrunning, hbusy, hqueue, hclosed], by omega⟩
  | tick hbusy hqueue hopen hcounting =>
    exact ⟨max later l.ticker.deadline,
      by simp [next?, hrunning, hbusy, hqueue, hopen, hcounting], by omega⟩

theorem le_of_next?_moves (w : Surroundings) {l : Loop} {now limit fuel time : Nat} {m : Move}
    (harmed : Armed now l) (hlimit : now ≤ limit) (hfuel : l.effort limit ≤ fuel)
    (hnext : (l.moves w (some limit) fuel now).1.next? now = some (time, m)) : limit ≤ time := by
  induction fuel generalizing l now time m with
  | zero =>
    obtain ⟨hrunning, _⟩ := due_of_next? hnext
    have hwork : 0 < l.work := by
      rw [work, show l.running = true from hrunning]
      exact Nat.succ_pos _
    unfold effort at hfuel
    omega
  | succ fuel ih =>
    unfold moves at hnext
    cases hfirst : l.next? now with
    | none =>
      simp [hfirst] at hnext
    | some first =>
      obtain ⟨time', m'⟩ := first
      simp only [hfirst] at hnext
      split at hnext <;> rename_i hpast
      · rw [hfirst] at hnext
        obtain ⟨rfl, rfl⟩ := Prod.mk.inj (Option.some.inj hnext)
        simpa using hpast
      · have hbefore : time' < limit := by simpa using hpast
        obtain ⟨hrunning, hdue⟩ := due_of_next? hfirst
        obtain ⟨harmed', heffort⟩ := effort_move_lt w hrunning hdue harmed hbefore
        obtain ⟨later, hlater, hle⟩ := next?_later time' hnext
        have := ih harmed' (Nat.le_of_lt hbefore) (by omega) hlater
        omega

namespace Run

variable {session : Session} {period : Nat} {past : Past} {now : Nat} {l : Loop}

theorem armed (h : Run session period past now l) (hperiod : 0 < period) : Armed now l := by
  induction h with
  | start now =>
    rw [Loop.start, publish_eq]
    exact ⟨hperiod, Nat.le_refl _⟩
  | wait h hlater ih => exact ih.later hlater
  | send h i ih =>
    unfold Loop.send
    split
    · exact ih
    · exact ih
  | close h ih => exact ih
  | deafen h ih => exact ih
  | @move past now time l m h w hnext ih =>
    obtain ⟨hrunning, hdue⟩ := due_of_next? hnext
    exact (effort_move_lt w hrunning hdue ih (Nat.lt_succ_self time)).1

/-- **Letting time pass leaves nothing due before the limit.** -/
theorem runUntil_settled (h : Run session period past now l) (hperiod : 0 < period)
    (w : Surroundings) {limit time : Nat} {m : Move} (hlimit : now ≤ limit)
    (hnext : (l.runUntil w now limit).1.next? now = some (time, m)) : limit ≤ time := by
  refine le_of_next?_moves w (h.armed hperiod) hlimit ?_ hnext
  have hwork := l.work_le
  unfold effort
  omega

/-- **Letting time pass makes a path**, and nothing holds the loop up where fetches take none. -/
theorem path_runUntil (h : Run session period past now l) (hperiod : 0 < period) {limit : Nat}
    (hlimit : now ≤ limit) {held : Prop} (w : Surroundings)
    (hquick : held ∨ ∀ n locator, w.delay n locator = 0) :
    ∃ more : Past, Path held l now more limit (l.runUntil w now limit).1 ∧
      more.updates = (l.runUntil w now limit).2 := by
  obtain ⟨more, time, hpath, hupdates, htime⟩ := Path.moves w hquick (some limit)
    (limit + 2 * l.queue.length + 4) l now
  have hstart := hpath.le
  refine ⟨more, hpath.wait ?_ (Or.inr fun due m hnext => ?_), hupdates⟩
  · exact htime.elim (fun heq => heq ▸ hlimit) fun hlt => Nat.le_of_lt (hlt limit rfl)
  · -- what is next at the end of the moves was next before, at some time after the limit
    have hdue := (due_of_next? hnext).2.le
    obtain ⟨time', hnext', htime'⟩ := next?_later now hnext
    have hsettled := h.runUntil_settled hperiod w hlimit hnext'
    omega

end Run

end Loop

end Gamebook
