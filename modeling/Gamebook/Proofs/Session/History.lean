import Gamebook.Proofs.Session.Shift

/-!
# A call reads the state and adds to the history

A session is a state and a history: the events not yet taken, the numbers of
the last event and the last call, the pictures asked for and the locators
fetched.  `s.followedBy t` is the session `t` with the history of `s` in front
of its own.  That is a shift (`followedBy_shift`), so calls commute with it,

    (s.followedBy t).perform w c = s.followedBy (t.perform w c),

and what a call answers, and what it adds, depend on the state alone
(`perform_followedBy`).  The same holds of a run (`run_followedBy`,
`answers_followedBy`).

`recorded w c s` are the events that a call records.  What is pending before the
call, all of it or only what was not yet taken, changes neither these nor the
answer (`perform_pending`).
-/

namespace Gamebook

/-- The event as it stands after `n` other events and `m` other calls. -/
def Event.later (n m : Nat) (e : Event) : Event :=
  { e with number := n + e.number, call := m + e.call }

namespace Session

/-- A session in this state with nothing behind it. -/
def ofState (state : State) : Session := ⟨state, [], 0, 0, [], []⟩

/-- The session `t` with the history of `s` in front of its own. -/
def followedBy (s t : Session) : Session where
  state := t.state
  pending := s.pending ++ t.pending.map (Event.later s.lastNumber s.call)
  lastNumber := s.lastNumber + t.lastNumber
  call := s.call + t.call
  preloaded := s.preloaded ++ t.preloaded
  fetched := s.fetched ++ t.fetched

theorem followedBy_ofState (s : Session) : s.followedBy (ofState s.state) = s := by
  simp [followedBy, ofState]

variable (w : Outside) (s t : Session)

theorem followedBy_shift : Shift 0 w w s.followedBy where
  fetch := rfl
  state _ _ := rfl
  beginCall _ := rfl
  record kind t := by simp [record, followedBy, Event.later, Nat.add_assoc]
  preloaded t pictures := by simp [followedBy]
  fetched t locators := by simp [followedBy]

/-- **A call reads the state and adds to the history.** -/
theorem perform_followedBy (c : Call) :
    (s.followedBy t).perform w c = (s.followedBy (t.perform w c).1, (t.perform w c).2) :=
  (followedBy_shift w s).perform c t

theorem perform_eq_followedBy (c : Call) :
    s.perform w c =
      (s.followedBy ((ofState s.state).perform w c).1, ((ofState s.state).perform w c).2) := by
  rw [← perform_followedBy, followedBy_ofState]

/-! ### What a call records -/

/-- The events that a call records. -/
def recorded (w : Outside) (c : Call) (s : Session) : List Event :=
  (s.perform w c).1.pending.drop s.pending.length

theorem recorded_eq (c : Call) :
    s.recorded w c =
      ((ofState s.state).perform w c).1.pending.map (Event.later s.lastNumber s.call) := by
  rw [recorded, perform_eq_followedBy]
  exact List.drop_left

theorem pending_perform (c : Call) :
    (s.perform w c).1.pending = s.pending ++ s.recorded w c := by
  rw [recorded_eq, perform_eq_followedBy]
  rfl

/-- **What is pending changes no call**: it stays in front of what the call records. -/
theorem perform_pending (pending : List Event) (c : Call) :
    perform w { s with pending } c =
      ({ (s.perform w c).1 with pending := pending ++ s.recorded w c }, (s.perform w c).2) := by
  rw [perform_eq_followedBy, recorded_eq, perform_eq_followedBy w s]
  rfl

theorem recorded_pending (pending : List Event) (c : Call) :
    recorded w c { s with pending } = s.recorded w c := by
  rw [recorded_eq, recorded_eq]

theorem perform_takeEvents (c : Call) :
    s.takeEvents.1.perform w c =
      ({ (s.perform w c).1 with pending := s.recorded w c }, (s.perform w c).2) :=
  perform_pending w s [] c

/-! ### Runs -/

/-- Makes the calls one after another, each with what it finds outside. -/
def run (s : Session) (calls : List (Outside × Call)) : Session :=
  calls.foldl (fun s c => (s.perform c.1 c.2).1) s

/-- What the calls of a run answer. -/
def answers (s : Session) : List (Outside × Call) → List (Except LoadError Bool)
  | [] => []
  | (w, c) :: rest => (s.perform w c).2 :: (s.perform w c).1.answers rest

@[simp] theorem run_nil : s.run [] = s := rfl

@[simp] theorem run_cons (c : Outside × Call) (calls : List (Outside × Call)) :
    s.run (c :: calls) = (s.perform c.1 c.2).1.run calls := rfl

theorem run_append (first last : List (Outside × Call)) :
    s.run (first ++ last) = (s.run first).run last := List.foldl_append

theorem run_concat (calls : List (Outside × Call)) (c : Call) :
    s.run (calls ++ [(w, c)]) = ((s.run calls).perform w c).1 := by
  rw [run_append, run_cons, run_nil]

theorem run_shift {n : Nat} {f : Session → Session} {g : Outside → Outside}
    (h : ∀ w, Shift n w (g w) f) (calls : List (Outside × Call)) :
    (f t).run (calls.map fun c => (g c.1, c.2)) = f (t.run calls) := by
  induction calls generalizing t with
  | nil => rfl
  | cons c rest ih => rw [List.map_cons, run_cons, run_cons, (h c.1).perform, ih]

theorem answers_shift {n : Nat} {f : Session → Session} {g : Outside → Outside}
    (h : ∀ w, Shift n w (g w) f) (calls : List (Outside × Call)) :
    (f t).answers (calls.map fun c => (g c.1, c.2)) = t.answers calls := by
  induction calls generalizing t with
  | nil => rfl
  | cons c rest ih => rw [List.map_cons, answers, answers, (h c.1).perform, ih]

theorem run_followedBy (calls : List (Outside × Call)) :
    (s.followedBy t).run calls = s.followedBy (t.run calls) := by
  have hrun := run_shift t (g := id) (followedBy_shift · s) calls
  rwa [show (calls.map fun c => (id c.1, c.2)) = calls from List.map_id calls] at hrun

theorem answers_followedBy (calls : List (Outside × Call)) :
    (s.followedBy t).answers calls = t.answers calls := by
  have hanswers := answers_shift t (g := id) (followedBy_shift · s) calls
  rwa [show (calls.map fun c => (id c.1, c.2)) = calls from List.map_id calls] at hanswers

/-- The events that the calls of a run record. -/
def recordedIn (s : Session) (calls : List (Outside × Call)) : List Event :=
  (s.run calls).pending.drop s.pending.length

theorem recordedIn_of_run_eq {calls : List (Outside × Call)} (h : s.run calls = s.followedBy t) :
    s.recordedIn calls = t.pending.map (Event.later s.lastNumber s.call) := by
  rw [recordedIn, h]
  exact List.drop_left

/-- **Induction along a run**: what a session has and each call keeps, holds after any run. -/
theorem run_induction {P : State → Prop}
    (hstep : ∀ (w : Outside) (c : Call) (s : Session), P s.state → P (s.perform w c).1.state)
    (calls : List (Outside × Call)) (h : P s.state) : P (s.run calls).state := by
  induction calls generalizing s with
  | nil => exact h
  | cons c rest ih => exact ih _ (hstep c.1 c.2 s h)

end Session

end Gamebook
