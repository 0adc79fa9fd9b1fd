import Gamebook.Proofs.Loop.Ticker
import Gamebook.Proofs.Terminal.Table

/-!
# Every play comes to its end

No step of a table can be taken for ever: each takes from the effort, the ticks or the updates that
are before it (`Table.step_lt`), where only ticks and showing are free of effort.  And as long as
the play has not ended there is a step to take (`Table.exists_step`), since a full queue means that
the loop has something to do.  So every play ends (`Table.endsIn_complete`), and what holds of every
table says how (`Table.Complete`, `Table.complete_of_ended`).
-/

namespace Gamebook

/-! ### What must come -/

/-- Whatever is done next and after it, something can be done until `P` holds, and then nothing. -/
inductive EndsIn {α : Type} (Step : α → α → Prop) (P : α → Prop) : α → Prop
  | now {a : α} (h : P a) (hend : ∀ b, ¬Step a b) : EndsIn Step P a
  | later {a : α} (hgo : ∃ b, Step a b) (h : ∀ b, Step a b → EndsIn Step P b) : EndsIn Step P a

/-- What is kept by steps that cannot go on for ever, and can only end where `P` holds. -/
theorem EndsIn.of_measure {α β : Type} {Step : α → α → Prop} {P Kept : α → Prop}
    (measure : α → β) {lt : β → β → Prop} (hwf : WellFounded lt)
    (hkept : ∀ a b, Kept a → Step a b → Kept b)
    (hless : ∀ a b, Kept a → Step a b → lt (measure b) (measure a))
    (hend : ∀ a, Kept a → (∀ b, ¬Step a b) → P a) {a : α} (ha : Kept a) : EndsIn Step P a := by
  induction hm : measure a using hwf.induction generalizing a with
  | _ m ih =>
    subst hm
    by_cases hgo : ∃ b, Step a b
    · exact .later hgo fun b hb => ih (measure b) (hless a b ha hb) (hkept a b ha hb) rfl
    · have hnone : ∀ b, ¬Step a b := fun b hb => hgo ⟨b, hb⟩
      exact .now (hend a ha hnone) hnone

/-- The ticks that a countdown has before it, one of them to end it. -/
def Countdown.ticksLeft (c : Countdown) : Nat :=
  match c.running with
  | some r => r.remaining + 1
  | none => 0

theorem Countdown.ticksLeft_tick {c : Countdown} (h : c.isRunning = true) :
    c.tick.1.ticksLeft < c.ticksLeft := by
  unfold isRunning at h
  cases hrunning : c.running with
  | none => simp [hrunning] at h
  | some r =>
    by_cases hmore : 1 < r.remaining
    · rw [tick_of_more hrunning hmore]
      simp only [ticksLeft, hrunning]
      omega
    · rw [tick_of_last hrunning (Nat.not_lt.1 hmore)]
      simp [ticksLeft, hrunning, cancel]

namespace Table

variable {session : Session} {period : Nat} {texts : List String} {limit : Option Nat}
  {t t' : Table}

/-! ### No play goes on for ever -/

/-- The steps that a table has before it, without ticks and without what is shown. -/
def effort (t : Table) : Nat :=
  3 * t.lines.length + t.play.loop.work + (if t.left then 0 else 1) +
    if t.play.ended.isSome then 0 else 1

/-- What every step takes from: the effort, then the ticks, and then what is still to be shown. -/
def measure (t : Table) : Nat × Nat × Nat :=
  (t.effort, t.play.loop.countdown.ticksLeft, t.coming.length)

theorem work_send_le (i : Input) (l : Loop) : (l.send i).1.work ≤ l.work + 2 := by
  unfold Loop.send Loop.work
  split
  · simp only [List.length_append, List.length_singleton]
    omega
  · exact Nat.le_add_right _ _

theorem effort_move_lt (w : Surroundings) {later time : Nat} {m : Loop.Move}
    (hnext : t.play.loop.next? later = some (time, m)) (hm : m ≠ .tick) :
    (t.move w time m).effort < t.effort := by
  obtain ⟨hrunning, hdue⟩ := Loop.due_of_next? hnext
  have hwork := Loop.work_move_lt w hrunning hdue hm
  unfold effort Table.move
  dsimp only
  omega

theorem tick_lt (h : Kept session period texts t) (w : Surroundings) {later time : Nat}
    (hnext : t.play.loop.next? later = some (time, .tick)) :
    (t.move w time .tick).effort ≤ t.effort ∧
      (t.move w time .tick).play.loop.countdown.ticksLeft < t.play.loop.countdown.ticksLeft := by
  obtain ⟨hrunning, hdue⟩ := Loop.due_of_next? hnext
  have hwork : (t.play.loop.move w time .tick).1.work ≤ t.play.loop.work :=
    Loop.work_tick_le w.toOutside time hrunning
  refine ⟨by unfold effort Table.move; dsimp only; omega, ?_⟩
  obtain ⟨hcalled, -, htick⟩ := Loop.move_call hdue h.run.sequential.pending_eq_nil rfl
  have hcountdown : (t.play.loop.move w time .tick).1.countdown = t.play.loop.countdown.tick.1 := by
    rw [Loop.countdown, hcalled.session_eq]
    exact Session.countdown_tick w.toOutside t.play.loop.session
  show (t.play.loop.move w time .tick).1.countdown.ticksLeft < _
  rw [hcountdown]
  exact Countdown.ticksLeft_tick (htick rfl).2

theorem effort_leave_lt (hopen : t.left = false) : t.leave.effort < t.effort := by
  show 3 * t.lines.length + t.play.loop.work + 0 + _ < t.effort
  unfold effort
  rw [hopen]
  exact Nat.add_lt_add_right (Nat.lt_succ_self _) _

/-- **Every step takes from what is before the table.** -/
theorem step_lt (h : Kept session period texts t) (hstep : Step limit t t') :
    Prod.Lex (· < ·) (Prod.Lex (· < ·) (· < ·)) t'.measure t.measure := by
  have heffort : t'.effort < t.effort →
      Prod.Lex (· < ·) (Prod.Lex (· < ·) (· < ·)) t'.measure t.measure := Prod.Lex.left _ _
  cases hstep with
  | @move later time m w hlater hnext =>
    by_cases hm : m = .tick
    · subst hm
      obtain ⟨hle, hlt⟩ := tick_lt h w hnext
      rcases Nat.lt_or_eq_of_le hle with hless | heq
      · exact heffort hless
      · exact Prod.lex_def.2 (Or.inr ⟨heq, Prod.Lex.left _ _ hlt⟩)
    · exact heffort (effort_move_lt w hnext hm)
  | @display u rest hcoming hturn =>
    obtain ⟨more, hshow, -⟩ := Play.showUpdate_eq h.room u
    have hsame : (t.display u rest).effort = t.effort := by
      rw [Table.display, hshow]
      rfl
    have hticks : (t.display u rest).play.loop.countdown = t.play.loop.countdown := by
      rw [Table.display, hshow]
    have hcoming' : rest.length < t.coming.length := by
      rw [hcoming]
      exact Nat.lt_succ_self _
    refine Prod.lex_def.2 (Or.inr ⟨hsame, Prod.lex_def.2 (Or.inr ⟨?_, hcoming'⟩)⟩)
    exact congrArg Countdown.ticksLeft hticks
  | @send line rest text i hopen hlines =>
    refine heffort ?_
    have hwork := work_send_le i t.play.loop
    have hlength : t.lines.length = rest.length + 1 := by rw [hlines, List.length_cons]
    unfold effort Table.send
    dsimp only
    omega
  | @help line rest text hopen hlines =>
    refine heffort ?_
    have hlength : t.lines.length = rest.length + 1 := by rw [hlines, List.length_cons]
    unfold effort Table.help
    rw [Play.write_eq h.room]
    dsimp only
    omega
  | quit hopen => exact heffort (effort_leave_lt hopen)
  | endInput hopen => exact heffort (effort_leave_lt hopen)
  | finish hleft hstopped hcoming hended =>
    refine heffort ?_
    show 3 * t.lines.length + t.play.loop.work + _ + 0 < t.effort
    unfold effort
    rw [hended]
    exact Nat.lt_succ_self _

/-! ### A play that has not ended goes on -/

theorem next?_ne_none {l : Loop} (hrunning : l.running = true)
    (hwaiting : l.queue ≠ [] ∨ l.accepting = false) (now : Nat) : l.next? now ≠ none := by
  intro hnext
  rcases hwaiting with hqueue | hclosed
  · unfold Loop.next? at hnext
    rw [hrunning, if_neg (by simp)] at hnext
    cases hbusy : l.busy with
    | some waited => simp [hbusy] at hnext
    | none =>
      cases hwaits : l.queue with
      | nil => exact hqueue hwaits
      | cons i rest => simp [hbusy, hwaits] at hnext
  · rw [Loop.running_of_next?_eq_none hclosed hnext] at hrunning
    cases hrunning

theorem exists_move (hrunning : t.play.loop.running = true)
    (hwaiting : t.play.loop.queue ≠ [] ∨ t.play.loop.accepting = false) :
    ∃ t', Step limit t t' := by
  obtain ⟨⟨time, m⟩, hnext⟩ :=
    Option.ne_none_iff_exists'.1 (next?_ne_none hrunning hwaiting t.now)
  let w : Surroundings :=
    { fetch := fun locator => .error (.notFound locator), now := 0, delay := fun _ _ => 0 }
  exact ⟨_, .move w (Nat.le_refl _) hnext⟩

/-- **A play that has not ended goes on.** -/
theorem exists_step (h : Kept session period texts t) (hlimit : limit ≠ some 0)
    (hended : t.play.ended = none) : ∃ t', Step limit t t' := by
  cases hleft : t.left with
  | true =>
    have hclosed : t.play.loop.accepting = false := by
      rw [← Bool.not_eq_true, h.accepting_iff, hleft]
      nofun
    cases hrunning : t.play.loop.running with
    | true => exact exists_move hrunning (Or.inr hclosed)
    | false =>
      cases hcoming : t.coming with
      | nil => exact ⟨_, .finish hleft hrunning hcoming hended⟩
      | cons u rest => exact ⟨_, .display hcoming fun _ => hrunning⟩
  | false =>
    obtain ⟨later, hlater, -, -⟩ := h.lines
    cases hlines : t.lines with
    | nil => exact ⟨_, .endInput hleft hlines⟩
    | cons line rest =>
      rw [hlines] at hlater
      obtain ⟨text, -, htext, -, -⟩ := List.forall₂_cons_left_iff.1 hlater
      cases hparse : Command.parse text t.play.hasChoices with
      | quit => exact ⟨_, .quit hleft hlines htext hparse⟩
      | unknown => exact ⟨_, .help hleft hlines htext hparse⟩
      | input i =>
        by_cases hroom : t.HasRoom limit
        · exact ⟨_, .send hleft hlines htext hparse hroom⟩
        · -- The queue is full, so that the loop has something to do.
          refine exists_move (h.running hleft) (Or.inl fun hempty => hroom fun n hn => ?_)
          rw [hempty]
          exact Nat.pos_of_ne_zero fun hzero => hlimit (hn.trans (congrArg some hzero))

/-! ### The end -/

/-- A play at which `texts` were typed has ended as it should. -/
structure Complete (session : Session) (texts : List String) (t : Table) : Prop where
  ended : t.play.ended = some (.ok ())
  /-- Lines are taken up to the one that says to leave, or to the last. -/
  heard : Taken.heard t.taken = texts.takeWhile fun text => !saysQuit text
  /-- The loop carries out what the lines asked for, in order, each once. -/
  inputs : t.past.inputs = (Taken.commands t.taken).filterMap Command.input?
  /-- Every update that was published is shown once, in order. -/
  shown : Taken.shown t.taken = t.past.updates
  updates : t.past.updates =
    tidings session.pending session.state ++ session.reports t.past.calls
  output : t.play.takeOutput.2 = Taken.output t.taken
  session : t.play.loop.session = (session.run t.past.calls).takeEvents.1
  last : (Taken.views t.taken).getLast?.map View.draw =
    some (View.ofState t.play.loop.session.state).draw

theorem lastView_tidings (last : Option View) (events : List Event) (s : State) :
    lastView last ((tidings events s).map .update) = some (.ofState s) := by
  cases events <;> rfl

theorem lastView_report (last : Option View) (w : Outside) (c : Call) (s : Session) :
    lastView last ((s.report w c).map .update) = some (.ofState (s.perform w c).1.state) := by
  unfold Session.report
  cases (s.perform w c).2 with
  | ok heeded => exact lastView_tidings _ _ _
  | error e => exact lastView_tidings _ _ _

theorem lastView_reports (session : Session) (calls : List (Outside × Call)) :
    lastView none ((tidings session.pending session.state ++ session.reports calls).map .update) =
      some (.ofState (session.run calls).state) := by
  rcases List.eq_nil_or_concat' calls with rfl | ⟨calls, ⟨w, c⟩, rfl⟩
  · rw [Session.reports, List.append_nil]
    exact lastView_tidings _ _ _
  · rw [Session.reports_concat, ← List.append_assoc, List.map_append, lastView,
      List.foldl_append, Session.run_concat]
    exact lastView_report _ w c _

theorem lastView_shown (taken : List Taken) :
    lastView none ((Taken.shown taken).map .update) = lastView none taken := by
  induction taken using List.reverseRecOn with
  | nil => rfl
  | append_singleton taken x ih =>
    rw [lastView_concat, ← ih]
    cases x with
    | line text =>
      rw [Taken.shown_line]
      rfl
    | update u =>
      rw [Taken.shown_update, List.map_append]
      exact lastView_concat _ _ _

/-- **A play that has ended has ended as it should.** -/
theorem complete_of_ended (h : Kept session period texts t) (hended : t.play.ended ≠ none) :
    Complete session texts t := by
  obtain ⟨hok, hleft, hstopped, hcoming⟩ := h.ended.resolve_left hended
  obtain ⟨-, hwaiting⟩ := (h.run.sequential.ended hstopped).resolve_left h.listening
  have hinputs := h.run.sequential.inputs_eq
  have hupdates := h.run.sequential.updates_eq
  have hsession := h.run.sequential.session_eq
  have hshown := h.updates
  rw [hwaiting, List.append_nil] at hinputs
  rw [Past.beforeLeaving_of_notMem h.listening] at hupdates
  rw [hcoming, List.append_nil] at hshown
  obtain ⟨rest, -, htexts, hquit⟩ := h.lines
  refine
    { ended := hok
      heard := ?_
      inputs := hinputs.trans h.sent
      shown := hshown
      updates := hupdates
      output := h.written
      session := hsession
      last := ?_ }
  · have hstays : ∀ text ∈ Taken.heard t.taken, (!saysQuit text) = true := fun text htext => by
      rw [h.stays text htext]
      rfl
    rw [htexts, List.takeWhile_append_of_pos hstays]
    cases rest with
    | nil => simp
    | cons text rest => simp [hquit hleft text rfl]
  · rw [getLast?_views, ← lastView_shown, hshown, hupdates, lastView_reports, hsession]
    rfl

/-- **Every play comes to its end**, whatever order it takes things in. -/
theorem endsIn_complete (session : Session) (period now : Nat) {limit : Option Nat}
    (hlimit : limit ≠ some 0) {lines : List (List UInt8)} {texts : List String}
    (hlines : Spelled lines texts) :
    EndsIn (Step limit) (Complete session texts) (Table.start session period now lines) := by
  have hwf := (Prod.lex Nat.lt_wfRel (Prod.lex Nat.lt_wfRel Nat.lt_wfRel)).wf
  exact EndsIn.of_measure measure hwf (fun _ _ h hstep => h.step hstep)
    (fun _ _ h hstep => step_lt h hstep)
    (fun _ h hstuck => complete_of_ended h fun hnone =>
      let ⟨t', hstep⟩ := exists_step h hlimit hnone
      hstuck t' hstep)
    (Kept.start session period now hlines)

end Table

end Gamebook
