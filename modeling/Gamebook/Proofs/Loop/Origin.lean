import Gamebook.Proofs.Loop.Ticker
import Mathlib.Tactic.ByContra

/-!
# Where a countdown begins

A countdown begins with the loop or with the move that starts it (`Origin`).
Every run goes on from the last such point, and no other countdown is started
since (`Run.underway`).

The queue is empty whenever a tick is made, so that no tick goes ahead of an
input (`Run.inputs_before_tick`).
-/

namespace Gamebook

/-! ### Ticks of the past -/

/-- When a tick was made. -/
def Happening.tickTime? : Happening → Option Nat
  | called time _ .tick => some time
  | _ => none

/-- The times of the ticks that were made. -/
def Past.tickTimes (past : Past) : List Nat := past.filterMap Happening.tickTime?

@[simp] theorem Past.tickTimes_append (past more : Past) :
    tickTimes (past ++ more) = past.tickTimes ++ more.tickTimes :=
  List.filterMap_append

namespace Loop

theorem tickTimes_seen (w : Surroundings) (l : Loop) (time : Nat) (m : Move) :
    (l.seen w time m).tickTimes = m.ticksAt time := by
  have htold (told : List Update) : Past.tickTimes (told.map .told) = [] := by
    simp [Past.tickTimes, Happening.tickTime?, List.filterMap_map, Function.comp_def]
  rw [seen, Past.tickTimes_append, htold, List.append_nil]
  cases hc : l.callOf w m with
  | none =>
    cases m with
    | tick => cases hc
    | _ => rfl
  | some c =>
    cases c with
    | tick =>
      obtain rfl := eq_tick_of_callOf hc
      rfl
    | input i => exact (ticksAt_of_callOf hc).symm

theorem tickTimes_sent (i : Input) (accepted : Bool) :
    Past.tickTimes (if accepted then [.sent i] else []) = [] := by
  cases accepted <;> rfl

theorem called_notMem_told {told : List Update} {rest last : Past} {time : Nat} {w : Outside}
    {c : Call} (h : told.map .told = rest ++ .called time w c :: last) : False := by
  have hmem : .called time w c ∈ told.map Happening.told := by simp [h]
  simp at hmem

theorem callOf_of_seen {w : Surroundings} {l : Loop} {time due : Nat} {m : Move} {w' : Outside}
    {c : Call} {rest last : Past} (h : l.seen w due m = rest ++ .called time w' c :: last) :
    l.callOf w m = some c ∧ rest = [] := by
  unfold seen at h
  cases hc : l.callOf w m with
  | none =>
    rw [hc] at h
    exact (called_notMem_told h).elim
  | some made =>
    rw [hc] at h
    cases rest with
    | nil =>
      obtain ⟨_, _, rfl⟩ := Happening.called.inj (List.cons.inj h).1
      exact ⟨rfl, rfl⟩
    | cons x rest => exact (called_notMem_told (List.cons.inj h).2).elim

namespace Run

variable {session : Session} {period : Nat} {past : Past} {now : Nat} {l : Loop}

/-- The ticker was armed for the countdown that was started last, and keeps its period. -/
theorem clocked (h : Run session period past now l) :
    l.armedEpoch = l.countdown.epoch ∧ l.ticker.period = period := by
  induction h with
  | start now =>
    rw [Loop.start, publish_eq]
    exact ⟨rfl, rfl⟩
  | wait h hlater ih => exact ih
  | @send past now l h i ih =>
    obtain ⟨queue, hsend⟩ := exists_send_eq i l
    rw [hsend]
    exact ih
  | close h ih => exact ih
  | deafen h ih => exact ih
  | @move past now time l m h w hnext ih =>
    obtain ⟨hepoch, hkept, harmed⟩ := move_clocked ih.1 w time m
    refine ⟨hepoch, ?_⟩
    by_cases hsame : (l.move w time m).1.countdown.epoch = l.countdown.epoch
    · rw [hkept hsame, Ticker.fires_period, ih.2]
    · rw [harmed hsame]
      exact ih.2

/-- **No tick goes ahead of an input**: when one is made, all that was sent has been carried out. -/
theorem inputs_before_tick (h : Run session period past now l) {first last : Past} {time : Nat}
    {w : Outside} (hpast : past = first ++ .called time w .tick :: last) :
    first.inputs = first.sent := by
  have houtside {past : Past} {x : Happening} {last : Past} (hcall : x.call? = none)
      (ih : ∀ {last : Past}, past = first ++ .called time w .tick :: last →
        first.inputs = first.sent)
      (hpast : past ++ [x] = first ++ .called time w .tick :: last) :
      first.inputs = first.sent := by
    rcases append_eq_append_cons hpast with ⟨rest, hbefore, _⟩ | ⟨rest, _, hnew⟩
    · exact ih hbefore
    · have hmem : .called time w .tick ∈ [x] := hnew ▸ List.mem_append_right _ List.mem_cons_self
      obtain rfl := List.mem_singleton.1 hmem
      nomatch hcall
  induction h generalizing last with
  | start now => exact (called_notMem_told hpast).elim
  | wait h hlater ih => exact ih hpast
  | @send past now l h i ih =>
    cases haccepted : (l.send i).2 with
    | true =>
      rw [haccepted, if_pos rfl] at hpast
      exact houtside rfl ih hpast
    | false =>
      rw [haccepted, if_neg Bool.false_ne_true, List.append_nil] at hpast
      exact ih hpast
  | close h ih => exact houtside rfl ih hpast
  | deafen h ih => exact houtside rfl ih hpast
  | @move past now due l m h w' hnext ih =>
    rcases append_eq_append_cons hpast with ⟨rest, hbefore, _⟩ | ⟨rest, hfirst, hseen⟩
    · exact ih hbefore
    · obtain ⟨hc, rfl⟩ := callOf_of_seen hseen
      obtain rfl := eq_tick_of_callOf hc
      have hinputs := h.sequential.inputs_eq
      cases (due_of_next? hnext).2 with
      | tick hbusy hqueue _ _ =>
        rw [hfirst, List.append_nil]
        simpa [waiting, hbusy, hqueue] using hinputs

end Run

/-! ### Where a countdown begins -/

/-- A run up to the point where a countdown begins: the start of the loop, where one may be running
already, or a move that starts one. -/
inductive Origin (session : Session) (period : Nat) : Past → Nat → Loop → Prop
  | start (now : Nat) :
      Origin session period ((start session period now).2.map .told) now
        (start session period now).1
  | started {past : Past} {now time : Nat} {l : Loop} {m : Move}
      (h : Run session period past now l) (w : Surroundings) (hnext : l.next? now = some (time, m))
      (hnew : (l.move w time m).1.countdown.epoch ≠ l.countdown.epoch) :
      Origin session period (past ++ l.seen w time m) time (l.move w time m).1

namespace Origin

variable {session : Session} {period : Nat} {past : Past} {now : Nat} {l : Loop}

theorem run (h : Origin session period past now l) : Run session period past now l := by
  cases h with
  | start => exact .start now
  | started h w hnext _ => exact h.move w hnext

theorem ticker_eq (h : Origin session period past now l) : l.ticker = .arm period now := by
  cases h with
  | start =>
    rw [Loop.start, publish_eq]
  | @started past before _ l m h w hnext hnew =>
    obtain ⟨hepoch, hperiod⟩ := h.clocked
    rw [(move_clocked hepoch w now m).armed hnew, hperiod]

theorem busy_eq_none (h : Origin session period past now l) : l.busy = none := by
  cases h with
  | start =>
    rw [Loop.start, publish_eq]
  | @started past before _ l m h w hnext hnew =>
    have hdue := (due_of_next? hnext).2
    refine busy_move hdue ?_
    rintro i rest rfl
    by_contra hdelay
    have hc : l.callOf w (.begin i rest) = none := if_neg hdelay
    obtain ⟨_, hsession, _⟩ := move_noCall hdue hc
    exact hnew (congrArg (·.state.countdown.epoch) hsession)

end Origin

/-- The countdown of the loop began at some point of the past, and no other was started since. -/
def Underway (session : Session) (period : Nat) (past : Past) (now : Nat) (l : Loop) : Prop :=
  ∃ (before : Past) (began : Nat) (origin : Loop) (since : Past), past = before ++ since ∧
    Origin session period before began origin ∧ Path True origin began since now l ∧
    l.countdown.epoch = origin.countdown.epoch

theorem Origin.underway {session : Session} {period : Nat} {past : Past} {now : Nat} {l : Loop}
    (h : Origin session period past now l) : Underway session period past now l :=
  ⟨past, now, l, [], (List.append_nil past).symm, h, .refl, rfl⟩

theorem Underway.on {session : Session} {period : Nat} {past more : Past} {now later : Nat}
    {l l' : Loop} (h : Underway session period past now l) (hmore : Path True l now more later l')
    (hsame : l'.countdown.epoch = l.countdown.epoch) :
    Underway session period (past ++ more) later l' := by
  obtain ⟨before, began, origin, since, rfl, horigin, hpath, hepoch⟩ := h
  exact ⟨before, began, origin, since ++ more, List.append_assoc .., horigin,
    hpath.trans hmore, hsame.trans hepoch⟩

/-- **Every run goes on from where its countdown began.** -/
theorem Run.underway {session : Session} {period : Nat} {past : Past} {now : Nat} {l : Loop}
    (h : Run session period past now l) : Underway session period past now l := by
  induction h with
  | start now => exact (Origin.start now).underway
  | @wait past now later l h hlater ih =>
    have hwaited := ih.on (Path.refl.wait hlater (Or.inl trivial)) rfl
    rwa [List.append_nil] at hwaited
  | @send past now l h i ih =>
    obtain ⟨queue, hsend⟩ := exists_send_eq i l
    exact ih.on (Path.refl.send i) (by rw [hsend])
  | close h ih => exact ih.on Path.refl.close rfl
  | deafen h ih => exact ih.on Path.refl.deafen rfl
  | @move past now time l m h w hnext ih =>
    by_cases hsame : (l.move w time m).1.countdown.epoch = l.countdown.epoch
    · exact ih.on (Path.refl.move w hnext (Or.inl trivial)) hsame
    · exact (Origin.started h w hnext hsame).underway

/-! ### On the way -/

namespace Path

variable {session : Session} {period began now : Nat} {before since : Past} {held : Prop}
  {origin l : Loop}

theorem epoch_le (hrun : Run session period before began origin)
    (h : Path held origin began since now l) : origin.countdown.epoch ≤ l.countdown.epoch := by
  induction h with
  | refl => exact Nat.le_refl _
  | wait h hlater hprompt ih => exact ih
  | @send past time l h i ih =>
    obtain ⟨queue, hsend⟩ := exists_send_eq i l
    rw [hsend]
    exact ih
  | close h ih => exact ih
  | deafen h ih => exact ih
  | move h w hnext hfetched ih =>
    exact Nat.le_trans ih
      (epoch_le_move (due_of_next? hnext).2 (hrun.path h).sequential.pending_eq_nil)

theorem epoch_eq_of_move (hrun : Run session period before began origin)
    (h : Path held origin began since now l) {w : Surroundings} {time : Nat} {m : Move}
    (hdue : Due l now time m)
    (hsame : (l.move w time m).1.countdown.epoch = origin.countdown.epoch) :
    l.countdown.epoch = origin.countdown.epoch := by
  have hfrom := epoch_le hrun h
  have hto := epoch_le_move (w := w) hdue (hrun.path h).sequential.pending_eq_nil
  omega

end Path

end Loop

end Gamebook
