import Gamebook.Proofs.Session.Expiry
import Gamebook.Session.View

/-!
# Events are numbered on, whenever they are taken

From a state with nothing behind it, a call that has begun numbers its events
from one and gives all of them its own number (`FirstCall`); each part of a call
keeps this (`perform_firstCall`).  From any session a call then numbers its
events on from the last (`map_number_recorded`), and gives them a number that no
call before had (`call_recorded`).

A host makes calls and takes the pending events whenever it likes (`Act`).  Put
back in front of what is pending, the batches it took make up the session that
would be there had it taken none (`Host.whole_run`).  So
`numbering_survives_draining` is about runs only.
-/

namespace Gamebook

namespace Session

/-! ### The events of one call -/

/-- A session in its first call, with the events of that call. -/
structure FirstCall (s : Session) : Prop where
  call : s.call = 1
  lastNumber : s.lastNumber = s.pending.length
  numbers : s.pending.map (·.number) = List.range' 1 s.pending.length
  calls : ∀ e ∈ s.pending, e.call = 1

namespace FirstCall

variable {s : Session} {w : Outside}

theorem begin (z : State) : (ofState z).beginCall.FirstCall := ⟨rfl, rfl, rfl, nofun⟩

theorem record (h : s.FirstCall) (kind : EventKind) : (s.record w kind).FirstCall where
  call := h.call
  lastNumber := by simp [Session.record, h.lastNumber]
  numbers := by
    simp [Session.record, h.numbers, h.lastNumber, List.range'_concat, Nat.add_comm]
  calls e he := by
    rcases List.mem_append.1 he with hmem | hlast
    · exact h.calls e hmem
    · obtain rfl := List.mem_singleton.1 hlast
      exact h.call

theorem update (h : s.FirstCall) (state : State) (preloaded fetched : List String) :
    { s with state, preloaded, fetched }.FirstCall :=
  ⟨h.call, h.lastNumber, h.numbers, h.calls⟩

theorem announce (h : s.FirstCall) : (s.announce w).FirstCall := by
  unfold Session.announce
  cases s.state.screenId with
  | none => exact h
  | some id => exact (h.update ..).record _

theorem enter (h : s.FirstCall) (id : String) : (s.enter w id).1.FirstCall := by
  unfold Session.enter
  split
  · dsimp only
    exact (h.update ..).announce
  · exact h

theorem swapIn (h : s.FirstCall) (locator : String) : (s.swapIn w locator).1.FirstCall := by
  unfold Session.swapIn
  cases w.fetch locator with
  | error e => exact h.update ..
  | ok text =>
    dsimp only
    cases Book.decode locator text with
    | error e => exact h.update ..
    | ok book =>
      dsimp only
      exact ((h.update ..).record _).announce

theorem step (h : s.FirstCall) : (s.step w).1.FirstCall := by
  unfold Session.step
  cases Plan.ofState s.state with
  | nextLine => exact (h.update ..).record _
  | openChoices => exact (h.update ..).record _
  | startCountdown t => exact (h.update ..).record _
  | goTo id => exact h.enter id
  | stay => exact h
  | dispatch action =>
    cases action with
    | navigate id => exact h.enter id
    | loadBook path => exact h.swapIn path
    | advance => exact h

theorem pick (h : s.FirstCall) (index : Nat) (timed : Bool) :
    (s.pick w index timed).1.FirstCall := by
  unfold Session.pick
  cases s.state.option? index timed with
  | none => exact h
  | some option =>
    dsimp only
    unfold resolve
    split
    · exact (h.record _).enter _
    · exact h

variable (w) (z : State)

theorem runAction (a : Action) : ((ofState z).runAction w a).1.FirstCall := by
  cases a with
  | navigate id => exact (begin z).enter id
  | loadBook path => exact (begin z).swapIn path
  | advance => exact (begin z).step

theorem choose (index : Nat) : ((ofState z).choose w index).1.FirstCall := by
  rw [choose_eq]
  split
  · exact (begin z).pick index false
  · exact begin z

theorem chooseTimed (index : Nat) : ((ofState z).chooseTimed w index).1.FirstCall := by
  rw [chooseTimed_eq]
  split
  · exact (begin z).pick index true
  · exact begin z

theorem tick : ((ofState z).tick w).1.FirstCall := by
  cases hr : z.countdown.running with
  | none =>
    rw [tick_of_idle w hr]
    exact begin z
  | some r =>
    by_cases hlast : 1 < r.remaining
    · rw [tick_of_more w hr hlast]
      exact ((begin z).update ..).record _
    · rw [tick_of_last w hr (Nat.not_lt.1 hlast)]
      have hexpired : ((ofState z).expire w r).FirstCall := ((begin z).update ..).record _
      split
      · exact hexpired.pick r.defaultIndex true
      · exact hexpired

end FirstCall

/-- **A call that records anything has begun.**  What has not begun may still scroll. -/
theorem perform_firstCall (w : Outside) (z : State) (c : Call) :
    ((ofState z).perform w c).1.FirstCall ∨ ∃ z', ((ofState z).perform w c).1 = ofState z' := by
  cases c with
  | tick => exact Or.inl (.tick w z)
  | input i =>
    cases i with
    | advance => exact Or.inl (.runAction w z .advance)
    | navigate id => exact Or.inl (.runAction w z (.navigate id))
    | runAction a => exact Or.inl (.runAction w z a)
    | load locator => exact Or.inl (.runAction w z (.loadBook locator))
    | choose index => exact Or.inl (.choose w z index)
    | chooseTimed index => exact Or.inl (.chooseTimed w z index)
    | select index =>
      change ((ofState z).select w index).1.FirstCall ∨ ∃ z', ((ofState z).select w index).1 = _
      unfold select
      cases (ofState z).state.mode with
      | choice => exact Or.inl (.choose w z index)
      | timed => exact Or.inl (.chooseTimed w z index)
      | _ => exact Or.inr ⟨z, rfl⟩
    | press index =>
      change ((ofState z).press w index).1.FirstCall ∨ ∃ z', ((ofState z).press w index).1 = _
      unfold press
      cases buttonAction? (ofState z).state index with
      | none => exact Or.inr ⟨z, rfl⟩
      | some a => exact Or.inl (.runAction w z a)
    | scroll delta =>
      change ((ofState z).scroll delta).1.FirstCall ∨ ∃ z', ((ofState z).scroll delta).1 = _
      unfold scroll
      cases (ofState z).state.screen? with
      | none => exact Or.inr ⟨z, rfl⟩
      | some screen => exact Or.inr ⟨_, rfl⟩

section Recorded

variable (w : Outside) (c : Call) (s : Session)

theorem length_recorded :
    (s.recorded w c).length = ((ofState s.state).perform w c).1.pending.length := by
  rw [recorded_eq, List.length_map]

theorem lastNumber_perform :
    (s.perform w c).1.lastNumber = s.lastNumber + (s.recorded w c).length := by
  rw [perform_eq_followedBy, length_recorded]
  change _ + _ = _
  rcases perform_firstCall w s.state c with h | ⟨z, h⟩
  · rw [h.lastNumber]
  · rw [h]
    rfl

/-- **A call numbers its events on from the last.** -/
theorem map_number_recorded :
    (s.recorded w c).map (·.number) =
      List.range' (s.lastNumber + 1) (s.recorded w c).length := by
  rw [length_recorded, recorded_eq, List.map_map]
  rcases perform_firstCall w s.state c with h | ⟨z, h⟩
  · have hlater : (fun e : Event => e.number) ∘ Event.later s.lastNumber s.call =
        (s.lastNumber + ·) ∘ fun e : Event => e.number := rfl
    rw [hlater, ← List.map_map, h.numbers, List.map_add_range']
  · rw [h]
    rfl

/-- **What a call records carries the number of the call**, which is new. -/
theorem call_recorded {e : Event} (he : e ∈ s.recorded w c) :
    e.call = s.call + 1 ∧ (s.perform w c).1.call = s.call + 1 := by
  rw [perform_eq_followedBy]
  rw [recorded_eq] at he
  obtain ⟨e, hmem, rfl⟩ := List.mem_map.1 he
  rcases perform_firstCall w s.state c with h | ⟨z, h⟩
  · exact ⟨congrArg (s.call + ·) (h.calls e hmem), congrArg (s.call + ·) h.call⟩
  · rw [h] at hmem
    nomatch hmem

theorem call_le_perform : s.call ≤ (s.perform w c).1.call := by
  rw [perform_eq_followedBy]
  exact Nat.le_add_right ..

end Recorded

/-! ### The events of a run -/

/-- The events that each call of a run records. -/
def recordings (s : Session) : List (Outside × Call) → List (List Event)
  | [] => []
  | (w, c) :: rest => s.recorded w c :: (s.perform w c).1.recordings rest

variable (s : Session) (calls : List (Outside × Call))

theorem pending_run :
    (s.run calls).pending = s.pending ++ (s.recordings calls).flatten := by
  induction calls generalizing s with
  | nil => exact (List.append_nil _).symm
  | cons c rest ih =>
    rw [run_cons, ih, pending_perform, List.append_assoc]
    rfl

theorem map_number_recordings :
    (s.recordings calls).flatten.map (·.number) =
      List.range' (s.lastNumber + 1) (s.recordings calls).flatten.length := by
  induction calls generalizing s with
  | nil => rfl
  | cons c rest ih =>
    obtain ⟨w, c⟩ := c
    rw [recordings, List.flatten_cons, List.map_append, List.length_append, ih,
      map_number_recorded, lastNumber_perform, ← List.range'_append_1]
    congr 2
    omega

theorem call_lt_recordings {events : List Event} (h : events ∈ s.recordings calls) {e : Event}
    (he : e ∈ events) : s.call < e.call := by
  induction calls generalizing s with
  | nil => nomatch h
  | cons c rest ih =>
    obtain ⟨w, c⟩ := c
    rcases List.mem_cons.1 h with rfl | hrest
    · have hcall := (call_recorded w c s he).1
      omega
    · have hlt := ih _ hrest
      have hle := s.call_le_perform w c
      omega

/-- **The numbers of calls grow along a run.** -/
theorem pairwise_recordings :
    (s.recordings calls).Pairwise fun a b => ∀ e ∈ a, ∀ f ∈ b, e.call < f.call := by
  induction calls generalizing s with
  | nil => exact .nil
  | cons c rest ih =>
    obtain ⟨w, c⟩ := c
    refine .cons (fun b hb e he f hf => ?_) (ih _)
    obtain ⟨hcall, hnext⟩ := call_recorded w c s he
    have hlt := call_lt_recordings _ rest hb hf
    omega

theorem call_eq_of_mem_recordings {events : List Event} (h : events ∈ s.recordings calls)
    {e f : Event} (he : e ∈ events) (hf : f ∈ events) : e.call = f.call := by
  induction calls generalizing s with
  | nil => nomatch h
  | cons c rest ih =>
    obtain ⟨w, c⟩ := c
    rcases List.mem_cons.1 h with rfl | hrest
    · exact (call_recorded w c s he).1.trans (call_recorded w c s hf).1.symm
    · exact ih _ hrest

theorem call_eq_iff {i j : Nat} {a b : List Event} (ha : (s.recordings calls)[i]? = some a)
    (hb : (s.recordings calls)[j]? = some b) {e f : Event} (he : e ∈ a) (hf : f ∈ b) :
    e.call = f.call ↔ i = j := by
  have hgrow := List.pairwise_iff_getElem.1 (s.pairwise_recordings calls)
  obtain ⟨hi, rfl⟩ := List.getElem?_eq_some_iff.1 ha
  obtain ⟨hj, rfl⟩ := List.getElem?_eq_some_iff.1 hb
  constructor
  · intro hcall
    rcases Nat.lt_trichotomy i j with hlt | heq | hgt
    · have hless := hgrow i j hi hj hlt e he f hf
      omega
    · exact heq
    · have hless := hgrow j i hj hi hgt f hf e he
      omega
  · rintro rfl
    exact s.call_eq_of_mem_recordings calls (List.getElem_mem hi) he hf

end Session

/-! ### Taking events -/

/-- What a host does with a session: it makes a call, or takes the pending events. -/
inductive Act where
  | call (w : Outside) (c : Call)
  | take

/-- The calls that a host makes. -/
def Act.calls (acts : List Act) : List (Outside × Call) :=
  acts.filterMap fun
    | call w c => some (w, c)
    | take => none

/-- A session, and the batches of events that were taken from it. -/
structure Host where
  session : Session
  batches : List (List Event)

namespace Host

def initial : Host := ⟨.initial, []⟩

def act (h : Host) : Act → Host
  | .call w c => { h with session := (h.session.perform w c).1 }
  | .take =>
    let (session, events) := h.session.takeEvents
    ⟨session, h.batches ++ [events]⟩

def run (h : Host) (acts : List Act) : Host := acts.foldl act h

/-- What the calls among the acts answer. -/
def answers (h : Host) : List Act → List (Except LoadError Bool)
  | [] => []
  | .call w c :: rest => (h.session.perform w c).2 :: (h.act (.call w c)).answers rest
  | .take :: rest => (h.act .take).answers rest

/-- All events so far, in the order in which they were taken or will be. -/
def events (h : Host) : List Event := h.batches.flatten ++ h.session.pending

/-- The session as it would be had no events been taken. -/
def whole (h : Host) : Session := { h.session with pending := h.events }

theorem whole_call (h : Host) (w : Outside) (c : Call) :
    (h.act (.call w c)).whole = (h.whole.perform w c).1 ∧
      (h.session.perform w c).2 = (h.whole.perform w c).2 := by
  have hperform : h.whole.perform w c = _ := Session.perform_pending w h.session h.events c
  rw [hperform]
  refine ⟨?_, rfl⟩
  unfold whole events act
  dsimp only
  rw [Session.pending_perform, List.append_assoc]

theorem whole_take (h : Host) : (h.act .take).whole = h.whole := by
  unfold whole events act Session.takeEvents
  simp

/-- **Taking events changes neither the whole session nor an answer.** -/
theorem whole_run (h : Host) (acts : List Act) :
    (h.run acts).whole = h.whole.run (Act.calls acts) ∧
      h.answers acts = h.whole.answers (Act.calls acts) := by
  induction acts generalizing h with
  | nil => exact ⟨rfl, rfl⟩
  | cons act rest ih =>
    cases act with
    | call w c =>
      obtain ⟨hrun, hanswers⟩ := ih (h.act (.call w c))
      obtain ⟨hwhole, hanswer⟩ := h.whole_call w c
      rw [hwhole] at hrun hanswers
      refine ⟨hrun, ?_⟩
      rw [answers, hanswers, hanswer]
      rfl
    | take =>
      obtain ⟨hrun, hanswers⟩ := ih (h.act .take)
      rw [whole_take] at hrun hanswers
      exact ⟨hrun, hanswers⟩

end Host

open Session in
/-- **The numbering survives any draining.**  However a host mixes calls with taking events, the
batches that it took and what is still pending are together what the calls alone would have left
pending, and the rest of the session, the answers and the view are theirs too.  These events are
numbered 1, 2, and so on, and two of them share the number of a call just when one call recorded
both. -/
theorem numbering_survives_draining (acts : List Act) :
    let h := Host.initial.run acts
    let s := initial.run (Act.calls acts)
    let recordings := initial.recordings (Act.calls acts)
    h.events = s.pending ∧ h.session = { s with pending := h.session.pending } ∧
      Host.initial.answers acts = initial.answers (Act.calls acts) ∧
      View.ofState h.session.state = View.ofState s.state ∧
      h.events.map (·.number) = List.range' 1 h.events.length ∧
      h.events = recordings.flatten ∧
      ∀ (i j : Nat) (a b : List Event), recordings[i]? = some a → recordings[j]? = some b →
        ∀ e ∈ a, ∀ f ∈ b, (e.call = f.call ↔ i = j) := by
  intro h s recordings
  obtain ⟨hwhole, hanswers⟩ := Host.initial.whole_run acts
  change h.whole = s at hwhole
  have hevents : h.events = s.pending := congrArg Session.pending hwhole
  have hstate : h.session.state = s.state := congrArg (·.state) hwhole
  have hrecorded : h.events = recordings.flatten := hevents.trans (pending_run ..)
  refine ⟨hevents, ?_, hanswers, by rw [hstate], ?_, hrecorded, ?_⟩
  · rw [← hwhole]
    rfl
  · rw [hrecorded]
    exact map_number_recordings initial (Act.calls acts)
  · intro i j a b ha hb e he f hf
    exact call_eq_iff initial (Act.calls acts) ha hb he hf

/-- At the door events are taken after the book was loaded and twice after the countdown began; the
first tick of it is not taken.  Loading and the tick do not share a number. -/
theorem numbering_at_door :
    let acts := [.call atDoor (.input (.load "door.yaml")), .take,
      .call atDoor (.input .advance), .take, .take, .call atDoor .tick]
    let h := Host.initial.run acts
    let recordings := Session.initial.recordings (Act.calls acts)
    h.batches.map (·.map (·.number)) = [[1, 2], [3], []] ∧
      h.events.map (·.number) = [1, 2, 3, 4] ∧
      ∃ a b, recordings[0]? = some a ∧ recordings[2]? = some b ∧ a.length = 2 ∧ b.length = 1 ∧
        ∀ e ∈ a, ∀ f ∈ b, e.call ≠ f.call := by
  intro acts h recordings
  have hfacts : h.batches.map (·.map (·.number)) = [[1, 2], [3], []] ∧ h.events.length = 4 ∧
      recordings.map (·.length) = [2, 1, 1] := by
    decide +kernel
  obtain ⟨hbatches, hcount, hlengths⟩ := hfacts
  obtain ⟨_, _, _, _, hnumbers, _, hshare⟩ := numbering_survives_draining acts
  have hfirst : recordings[0]?.map (·.length) = some 2 := by
    rw [← List.getElem?_map, hlengths]
    rfl
  have hlast : recordings[2]?.map (·.length) = some 1 := by
    rw [← List.getElem?_map, hlengths]
    rfl
  obtain ⟨a, ha, hloaded⟩ := Option.map_eq_some_iff.1 hfirst
  obtain ⟨b, hb, hticked⟩ := Option.map_eq_some_iff.1 hlast
  refine ⟨hbatches, ?_, a, b, ha, hb, hloaded, hticked, fun e he f hf hcall => ?_⟩
  · change h.events.map _ = List.range' 1 h.events.length at hnumbers
    rw [hnumbers, hcount]
    rfl
  · nomatch (hshare 0 2 a b ha hb e he f hf).1 hcall

end Gamebook
