import Gamebook.Proofs.Loop.Moves

/-!
# The runs of a loop

`Loop.Run session period past now l` says that a loop started around `session`
can be `l` at the time `now`, after what is listed in `past`.  In between,
inputs are sent, the queue is closed and the listener leaves at any time; the
loop makes its moves in their order, when they are due or later, and each move
may find something else outside.

`Loop.Path held l now past now' l'` leads on in the same way from any loop `l`,
not only from a fresh one.  If nothing holds it up, no time passes beyond the
next move and no input is left waiting for its book.  A run goes on along a path
(`Run.path`).

The loop's own functions only make such paths and runs: `Path.moves`,
`Run.runUntil`, `Run.runToEnd`.
-/

namespace Gamebook

/-- What happens to a loop or is done by it. -/
inductive Happening where
  | sent (i : Input)
  | closed
  | left
  | called (time : Nat) (w : Outside) (c : Call)
  | told (u : Update)

namespace Happening

def sent? : Happening → Option Input
  | sent i => some i
  | _ => none

def call? : Happening → Option (Outside × Call)
  | called _ w c => some (w, c)
  | _ => none

def update? : Happening → Option Update
  | told u => some u
  | _ => none

def isLeft : Happening → Bool
  | left => true
  | _ => false

end Happening

/-- All that has happened, in order. -/
abbrev Past := List Happening

namespace Past

/-- The inputs that were accepted. -/
def sent (past : Past) : List Input := past.filterMap Happening.sent?

/-- The calls that were made, each with what it found outside. -/
def calls (past : Past) : List (Outside × Call) := past.filterMap Happening.call?

/-- The inputs among the calls. -/
def inputs (past : Past) : List Input := past.calls.filterMap (·.2.input?)

/-- The updates that were published. -/
def updates (past : Past) : List Update := past.filterMap Happening.update?

/-- What happened while the listener was there. -/
def beforeLeaving (past : Past) : Past := past.takeWhile (!·.isLeft)

/-- What happened since the listener left. -/
def afterLeaving (past : Past) : Past := past.dropWhile (!·.isLeft)

section

variable (past more : Past)

@[simp] theorem sent_append : sent (past ++ more) = past.sent ++ more.sent :=
  List.filterMap_append

@[simp] theorem calls_append : calls (past ++ more) = past.calls ++ more.calls :=
  List.filterMap_append

@[simp] theorem inputs_append : inputs (past ++ more) = past.inputs ++ more.inputs := by
  simp [inputs]

@[simp] theorem updates_append : updates (past ++ more) = past.updates ++ more.updates :=
  List.filterMap_append

end

section

variable (told : List Update)

@[simp] theorem sent_map_told : sent (told.map .told) = [] := by
  simp [sent, Happening.sent?, List.filterMap_map, Function.comp_def]

@[simp] theorem calls_map_told : calls (told.map .told) = [] := by
  simp [calls, Happening.call?, List.filterMap_map, Function.comp_def]

@[simp] theorem updates_map_told : updates (told.map .told) = told := by
  simp [updates, Happening.update?, List.filterMap_map, Function.comp_def]

end

theorem beforeLeaving_of_notMem {past : Past} (h : .left ∉ past) : past.beforeLeaving = past := by
  induction past with
  | nil => rfl
  | cons x rest ih =>
    have hrest := ih fun hmem => h (List.mem_cons_of_mem _ hmem)
    cases x with
    | left => exact absurd List.mem_cons_self h
    | _ => exact congrArg (List.cons _) hrest

theorem afterLeaving_of_notMem {past : Past} (h : .left ∉ past) : past.afterLeaving = [] := by
  induction past with
  | nil => rfl
  | cons x rest ih =>
    have hrest := ih fun hmem => h (List.mem_cons_of_mem _ hmem)
    cases x with
    | left => exact absurd List.mem_cons_self h
    | _ => exact hrest

theorem beforeLeaving_append_of_mem {past : Past} (h : .left ∈ past) (more : Past) :
    beforeLeaving (past ++ more) = past.beforeLeaving := by
  induction past with
  | nil => nomatch h
  | cons x rest ih =>
    cases x with
    | left => rfl
    | _ => exact congrArg (List.cons _) (ih ((List.mem_cons.1 h).resolve_left nofun))

theorem afterLeaving_append_of_mem {past : Past} (h : .left ∈ past) (more : Past) :
    afterLeaving (past ++ more) = past.afterLeaving ++ more := by
  induction past with
  | nil => nomatch h
  | cons x rest ih =>
    cases x with
    | left => rfl
    | _ => exact ih ((List.mem_cons.1 h).resolve_left nofun)

end Past

namespace Loop

/-- What is seen of a move: the call that it makes, and what it publishes. -/
def seen (w : Surroundings) (l : Loop) (time : Nat) (m : Move) : Past :=
  (l.callOf w m).toList.map (.called time w.toOutside) ++ (l.move w time m).2.map .told

@[simp] theorem sent_seen (w : Surroundings) (l : Loop) (time : Nat) (m : Move) :
    (l.seen w time m).sent = [] := by
  rw [seen, Past.sent_append, Past.sent_map_told]
  cases l.callOf w m <;> rfl

@[simp] theorem updates_seen (w : Surroundings) (l : Loop) (time : Nat) (m : Move) :
    (l.seen w time m).updates = (l.move w time m).2 := by
  rw [seen, Past.updates_append, Past.updates_map_told]
  cases l.callOf w m <;> rfl

@[simp] theorem calls_seen (w : Surroundings) (l : Loop) (time : Nat) (m : Move) :
    (l.seen w time m).calls = (l.callOf w m).toList.map (w.toOutside, ·) := by
  rw [seen, Past.calls_append, Past.calls_map_told]
  cases l.callOf w m <;> rfl

theorem mem_seen {w : Surroundings} {l : Loop} {time : Nat} {m : Move} {x : Happening}
    (hx : x ∈ l.seen w time m) :
    (∃ c, l.callOf w m = some c ∧ x = .called time w.toOutside c) ∨
      ∃ u ∈ (l.move w time m).2, x = .told u := by
  rcases List.mem_append.1 hx with hcall | htold
  · obtain ⟨c, hc, rfl⟩ := List.mem_map.1 hcall
    exact Or.inl ⟨c, by simpa using hc, rfl⟩
  · obtain ⟨u, hu, rfl⟩ := List.mem_map.1 htold
    exact Or.inr ⟨u, hu, rfl⟩

theorem closed_notMem_seen (w : Surroundings) (l : Loop) (time : Nat) (m : Move) :
    .closed ∉ l.seen w time m := by
  intro hx
  rcases mem_seen hx with ⟨_, _, hx⟩ | ⟨_, _, hx⟩ <;> nomatch hx

theorem left_notMem_seen (w : Surroundings) (l : Loop) (time : Nat) (m : Move) :
    .left ∉ l.seen w time m := by
  intro hx
  rcases mem_seen hx with ⟨_, _, hx⟩ | ⟨_, _, hx⟩ <;> nomatch hx

/-- A loop started around `session` can be `l` at the time `now`, after all that is listed. -/
inductive Run (session : Session) (period : Nat) : Past → Nat → Loop → Prop
  | start (now : Nat) :
      Run session period ((start session period now).2.map .told) now
        (start session period now).1
  | wait {past : Past} {now later : Nat} {l : Loop} (h : Run session period past now l)
      (hlater : now ≤ later) : Run session period past later l
  | send {past : Past} {now : Nat} {l : Loop} (h : Run session period past now l) (i : Input) :
      Run session period (past ++ if (l.send i).2 then [.sent i] else []) now (l.send i).1
  | close {past : Past} {now : Nat} {l : Loop} (h : Run session period past now l) :
      Run session period (past ++ [.closed]) now l.close
  | deafen {past : Past} {now : Nat} {l : Loop} (h : Run session period past now l) :
      Run session period (past ++ [.left]) now l.deafen
  | move {past : Past} {now time : Nat} {l : Loop} {m : Move} (h : Run session period past now l)
      (w : Surroundings) (hnext : l.next? now = some (time, m)) :
      Run session period (past ++ l.seen w time m) time (l.move w time m).1

/-- From the loop `l` at the time `now` on.  If it is not `held` up, it makes each move at its time
and no fetch takes any. -/
inductive Path (held : Prop) (l : Loop) (now : Nat) : Past → Nat → Loop → Prop
  | refl : Path held l now [] now l
  | wait {past : Past} {time later : Nat} {l' : Loop} (h : Path held l now past time l')
      (hlater : time ≤ later)
      (hprompt : held ∨ ∀ due m, l'.next? time = some (due, m) → later ≤ due) :
      Path held l now past later l'
  | send {past : Past} {time : Nat} {l' : Loop} (h : Path held l now past time l') (i : Input) :
      Path held l now (past ++ if (l'.send i).2 then [.sent i] else []) time (l'.send i).1
  | close {past : Past} {time : Nat} {l' : Loop} (h : Path held l now past time l') :
      Path held l now (past ++ [.closed]) time l'.close
  | deafen {past : Past} {time : Nat} {l' : Loop} (h : Path held l now past time l') :
      Path held l now (past ++ [.left]) time l'.deafen
  | move {past : Past} {time due : Nat} {l' : Loop} {m : Move} (h : Path held l now past time l')
      (w : Surroundings) (hnext : l'.next? time = some (due, m))
      (hfetched : held ∨ (l'.move w due m).1.busy = none) :
      Path held l now (past ++ l'.seen w due m) due (l'.move w due m).1

namespace Path

variable {held : Prop} {l l' l'' : Loop} {now now' now'' : Nat} {past more : Past}

theorem trans (h : Path held l now past now' l') (h' : Path held l' now' more now'' l'') :
    Path held l now (past ++ more) now'' l'' := by
  induction h' with
  | refl => rwa [List.append_nil]
  | wait h' hlater hprompt ih => exact ih.wait hlater hprompt
  | send h' i ih => rw [← List.append_assoc]; exact ih.send i
  | close h' ih => rw [← List.append_assoc]; exact ih.close
  | deafen h' ih => rw [← List.append_assoc]; exact ih.deafen
  | move h' w hnext hfetched ih => rw [← List.append_assoc]; exact ih.move w hnext hfetched

theorem le (h : Path held l now past now' l') : now ≤ now' := by
  induction h with
  | refl => exact Nat.le_refl _
  | wait h hlater hprompt ih => exact Nat.le_trans ih hlater
  | send h i ih => exact ih
  | close h ih => exact ih
  | deafen h ih => exact ih
  | move h w hnext hfetched ih => exact Nat.le_trans ih (due_of_next? hnext).2.le

/-- The moves of the loop within a limit make a path, and end before the limit.  Nothing holds it
up where fetches take no time. -/
theorem moves (w : Surroundings) (hquick : held ∨ ∀ n locator, w.delay n locator = 0)
    (limit : Option Nat) (fuel : Nat) (l : Loop) (now : Nat) :
    ∃ (more : Past) (time : Nat), Path held l now more time (l.moves w limit fuel now).1 ∧
      more.updates = (l.moves w limit fuel now).2 ∧
      (time = now ∨ ∀ bound, limit = some bound → time < bound) := by
  induction fuel generalizing l now with
  | zero => exact ⟨[], now, .refl, rfl, Or.inl rfl⟩
  | succ fuel ih =>
    unfold Loop.moves
    cases hnext : l.next? now with
    | none => exact ⟨[], now, .refl, rfl, Or.inl rfl⟩
    | some next =>
      obtain ⟨time, m⟩ := next
      dsimp only
      split <;> rename_i hlimit
      · exact ⟨[], now, .refl, rfl, Or.inl rfl⟩
      · have hfetched : held ∨ (l.move w time m).1.busy = none :=
          hquick.imp_right fun hnone =>
            busy_move (due_of_next? hnext).2 fun i _ _ => l.delayOf_of_quick hnone i
        obtain ⟨more, last, hpath, hupdates, hlast⟩ := ih (l.move w time m).1 time
        have hmoved : Path held l now (l.seen w time m) time (l.move w time m).1 :=
          Path.refl.move w hnext hfetched
        refine ⟨l.seen w time m ++ more, last, hmoved.trans hpath, ?_, Or.inr ?_⟩
        · rw [Past.updates_append, updates_seen, hupdates]
        · intro bound hbound
          have htime : time < bound := by simpa [hbound] using hlimit
          exact hlast.elim (fun heq => heq ▸ htime) fun hlt => hlt bound hbound

end Path

namespace Run

variable {session : Session} {period : Nat} {past : Past} {now : Nat} {l : Loop}

/-- **A run goes on along a path.** -/
theorem path {held : Prop} {more : Past} {later : Nat} {l' : Loop}
    (h : Run session period past now l) (hpath : Path held l now more later l') :
    Run session period (past ++ more) later l' := by
  induction hpath with
  | refl => rwa [List.append_nil]
  | wait hpath hlater hprompt ih => exact ih.wait hlater
  | send hpath i ih => rw [← List.append_assoc]; exact ih.send i
  | close hpath ih => rw [← List.append_assoc]; exact ih.close
  | deafen hpath ih => rw [← List.append_assoc]; exact ih.deafen
  | move hpath w hnext hfetched ih => rw [← List.append_assoc]; exact ih.move w hnext

theorem moves (w : Surroundings) (limit : Option Nat) (fuel : Nat)
    (h : Run session period past now l) :
    ∃ (more : Past) (time : Nat),
      Run session period (past ++ more) time (l.moves w limit fuel now).1 ∧
        more.updates = (l.moves w limit fuel now).2 ∧
        (time = now ∨ ∀ bound, limit = some bound → time < bound) := by
  obtain ⟨more, time, hpath, hmoves⟩ :=
    Path.moves w (Or.inl trivial : True ∨ _) limit fuel l now
  exact ⟨more, time, h.path hpath, hmoves⟩

/-- **Letting time pass makes a run.** -/
theorem runUntil (w : Surroundings) {limit : Nat} (hlimit : now ≤ limit)
    (h : Run session period past now l) :
    ∃ more : Past, Run session period (past ++ more) limit (l.runUntil w now limit).1 ∧
      more.updates = (l.runUntil w now limit).2 := by
  obtain ⟨more, time, hrun, hupdates, htime⟩ := h.moves w (some limit) _
  refine ⟨more, hrun.wait ?_, hupdates⟩
  exact htime.elim (fun heq => heq ▸ hlimit) fun hlt => Nat.le_of_lt (hlt limit rfl)

/-- **Running to the end makes a run.** -/
theorem runToEnd (w : Surroundings) (h : Run session period past now l) :
    ∃ (more : Past) (time : Nat),
      Run session period (past ++ .closed :: more) time (l.runToEnd w now).1 ∧
        more.updates = (l.runToEnd w now).2 := by
  obtain ⟨more, time, hrun, hupdates, _⟩ := h.close.moves w none (2 * l.queue.length + 4)
  refine ⟨more, time, ?_, hupdates⟩
  rwa [List.append_assoc] at hrun

end Run

end Loop

end Gamebook
