import Gamebook.Proofs.Loop.Fuel
import Mathlib.Tactic.ByContra

/-!
# The loop is a session of calls one after another

Whatever is sent and when, and however long fetches take, a loop makes its
calls one at a time, and nothing is lost or told twice.  `Loop.Sequential` says
this of all that has happened to a loop (`Past`): its session is the initial one
after the calls, the inputs among them are those sent, in their order, up to the
ones that still wait, and what was published is the first view followed by the
`Session.report` of each call.

It holds at the start (`Sequential.start`), whatever comes from outside keeps it
(`Sequential.concat`), and so does a move (`Sequential.call`,
`Sequential.noCall`).
-/

namespace Gamebook

/-- Which happening may come before which other: once the queue is closed no input is accepted and
no tick made, and once the listener left nothing is told. -/
def Happening.MayPrecede : Happening → Happening → Prop
  | closed, sent _ => False
  | closed, called _ _ .tick => False
  | left, told _ => False
  | _, _ => True

namespace Past

theorem calls_beforeLeaving_concat (past : Past) {x : Happening} (hx : x.call? = none) :
    (beforeLeaving (past ++ [x])).calls = past.beforeLeaving.calls := by
  induction past with
  | nil =>
    cases x with
    | called => nomatch hx
    | _ => rfl
  | cons y rest ih =>
    cases y with
    | left => rfl
    | called time w c => exact congrArg (List.cons (w, c)) ih
    | _ => exact ih

theorem calls_afterLeaving_concat (past : Past) {x : Happening} (hx : x.call? = none) :
    (afterLeaving (past ++ [x])).calls = past.afterLeaving.calls := by
  induction past with
  | nil =>
    cases x with
    | called => nomatch hx
    | _ => rfl
  | cons y rest ih =>
    cases y with
    | left =>
      show Past.calls (.left :: rest ++ [x]) = Past.calls (.left :: rest)
      rw [calls_append]
      simp [calls, hx]
    | _ => exact ih

end Past

namespace Loop

theorem pairwise_seen (w : Surroundings) (l : Loop) (time : Nat) (m : Move) :
    (l.seen w time m).Pairwise Happening.MayPrecede := by
  refine List.pairwise_of_forall_mem_list fun x hx y _ => ?_
  rcases mem_seen hx with ⟨_, _, rfl⟩ | ⟨_, _, rfl⟩ <;> trivial

/-! ### The invariant -/

/-- The loop `l` is a loop around `session` to which all of `past` has happened, one call after
another. -/
structure Sequential (session : Session) (past : Past) (l : Loop) : Prop where
  accepting_iff : l.accepting = true ↔ .closed ∉ past
  listening_iff : l.listening = true ↔ .left ∉ past
  /-- The calls are made one at a time, and the events taken. -/
  session_eq : l.session = (session.run past.calls).takeEvents.1
  /-- Each input that was accepted is made a call once, in the order they were sent, or waits. -/
  inputs_eq : past.inputs ++ l.waiting = past.sent
  /-- The first view is told, and then of each call, up to the leaving of the listener. -/
  updates_eq : past.updates =
    tidings session.pending session.state ++ session.reports past.beforeLeaving.calls
  /-- Each tick finds a countdown running. -/
  ticks : ∀ (first last : List (Outside × Call)) (w : Outside),
    past.calls = first ++ (w, .tick) :: last →
      (session.run first).state.countdown.isRunning = true
  ordered : past.Pairwise Happening.MayPrecede
  ended : l.running = false → .left ∈ past ∨ .closed ∈ past ∧ l.waiting = []
  /-- One more call at most is made once the listener left, and it ends the loop. -/
  leaving : past.afterLeaving.calls = [] ∨
    past.afterLeaving.calls.length = 1 ∧ l.running = false

namespace Sequential

variable {session : Session} {past : Past} {l l' : Loop}

theorem pending_eq_nil (h : Sequential session past l) : l.session.pending = [] := by
  rw [h.session_eq]
  rfl

theorem closed_mem (h : Sequential session past l) (hclosed : l.accepting = false) :
    .closed ∈ past := by
  by_contra hopen
  rw [h.accepting_iff.2 hopen] at hclosed
  nomatch hclosed

theorem left_mem (h : Sequential session past l) (hdeaf : l.listening = false) :
    .left ∈ past := by
  by_contra hleft
  rw [h.listening_iff.2 hleft] at hdeaf
  nomatch hdeaf

theorem calls_afterLeaving (h : Sequential session past l) (hrunning : l.running = true) :
    past.afterLeaving.calls = [] := by
  rcases h.leaving with hnone | ⟨_, hended⟩
  · exact hnone
  · rw [hrunning] at hended
    nomatch hended

theorem mayPrecede_called (h : Sequential session past l) {x : Happening} (hx : x ∈ past)
    {time : Nat} {w : Outside} {c : Call} (hopen : c = .tick → l.accepting = true) :
    x.MayPrecede (.called time w c) := by
  cases x with
  | closed =>
    cases c with
    | input i => trivial
    | tick => exact absurd hx (h.accepting_iff.1 (hopen rfl))
  | _ => trivial

theorem mayPrecede_told (h : Sequential session past l) {x : Happening} (hx : x ∈ past)
    {u : Update} (hlistening : l.listening = true) : x.MayPrecede (.told u) := by
  cases x with
  | left => exact absurd hx (h.listening_iff.1 hlistening)
  | _ => trivial

theorem start (session : Session) (period now : Nat) :
    Sequential session ((Loop.start session period now).2.map .told)
      (Loop.start session period now).1 := by
  rw [Loop.start, publish_eq]
  have hleft (updates : List Update) : .left ∉ updates.map Happening.told := by simp
  refine
    { accepting_iff := by simp
      listening_iff := by simp
      session_eq := by rw [Past.calls_map_told]; rfl
      inputs_eq := by rw [Past.inputs, Past.calls_map_told, Past.sent_map_told]; rfl
      updates_eq := ?_
      ticks := ?_
      ordered := List.pairwise_map.2 (List.pairwise_of_forall fun _ _ => trivial)
      ended := fun hstopped => by cases hstopped
      leaving := Or.inl ?_ }
  · rw [Past.beforeLeaving_of_notMem (hleft _), Past.calls_map_told, Past.updates_map_told]
    exact (List.append_nil _).symm
  · intro first last w hsplit
    rw [Past.calls_map_told] at hsplit
    simp at hsplit
  · rw [Past.afterLeaving_of_notMem (hleft _)]
    rfl

/-- **What comes from outside** makes no call and tells nothing. -/
theorem concat (h : Sequential session past l) {x : Happening} (hcall : x.call? = none)
    (hupdate : x.update? = none) (hsession : l'.session = l.session)
    (hrunning : l'.running = l.running)
    (haccepting : l'.accepting = true ↔ l.accepting = true ∧ x ≠ .closed)
    (hlistening : l'.listening = true ↔ l.listening = true ∧ x ≠ .left)
    (hwaiting : l'.waiting = l.waiting ++ x.sent?.toList)
    (hsent : ∀ i, x = .sent i → l.accepting = true ∧ l.running = true) :
    Sequential session (past ++ [x]) l' := by
  have hcalls : Past.calls (past ++ [x]) = past.calls := by
    rw [Past.calls_append]
    simp [Past.calls, hcall]
  refine
    { accepting_iff := by simp [haccepting, h.accepting_iff, eq_comm]
      listening_iff := by simp [hlistening, h.listening_iff, eq_comm]
      session_eq := by rw [hcalls, hsession, h.session_eq]
      inputs_eq := ?_
      updates_eq := ?_
      ticks := by rw [hcalls]; exact h.ticks
      ordered := ?_
      ended := ?_
      leaving := by rw [Past.calls_afterLeaving_concat past hcall, hrunning]; exact h.leaving }
  · rw [Past.inputs, hcalls, hwaiting, ← List.append_assoc, Past.sent_append, ← h.inputs_eq]
    cases x <;> rfl
  · rw [Past.calls_beforeLeaving_concat past hcall, Past.updates_append, h.updates_eq]
    simp [Past.updates, hupdate]
  · refine List.pairwise_append.2 ⟨h.ordered, List.pairwise_singleton _ _, ?_⟩
    intro y hy z hz
    obtain rfl := List.mem_singleton.1 hz
    cases z with
    | sent i =>
      have hopen := h.accepting_iff.1 (hsent i rfl).1
      cases y with
      | closed => exact absurd hy hopen
      | _ => trivial
    | called => cases hcall
    | told => cases hupdate
    | _ => cases y <;> trivial
  · intro hended
    rw [hrunning] at hended
    cases x with
    | sent i => rw [(hsent i rfl).2] at hended; cases hended
    | called => cases hcall
    | told => cases hupdate
    | _ =>
      rcases h.ended hended with hleft | ⟨hclosed, hnone⟩
      · exact Or.inl (List.mem_append_left _ hleft)
      · exact Or.inr ⟨List.mem_append_left _ hclosed, by rw [hwaiting, hnone]; rfl⟩

theorem send (h : Sequential session past l) (i : Input) :
    Sequential session (past ++ if (l.send i).2 then [.sent i] else []) (l.send i).1 := by
  by_cases hopen : (l.accepting && l.running) = true
  · have hsend : l.send i = ({ l with queue := l.queue ++ [i] }, true) := if_pos hopen
    rw [hsend]
    refine h.concat rfl rfl rfl rfl (by simp) (by simp) ?_ fun _ _ => Bool.and_eq_true_iff.1 hopen
    exact (List.append_assoc _ _ _).symm
  · have hsend : l.send i = (l, false) := if_neg hopen
    rw [hsend, if_neg Bool.false_ne_true, List.append_nil]
    exact h

theorem close (h : Sequential session past l) : Sequential session (past ++ [.closed]) l.close :=
  h.concat rfl rfl rfl rfl (by simp [Loop.close]) (by simp [Loop.close])
    (List.append_nil _).symm nofun

theorem deafen (h : Sequential session past l) : Sequential session (past ++ [.left]) l.deafen :=
  h.concat rfl rfl rfl rfl (by simp [Loop.deafen]) (by simp [Loop.deafen])
    (List.append_nil _).symm nofun

/-! ### Moves -/

theorem ticks_concat {calls : List (Outside × Call)} {w : Outside} {c : Call}
    (h : ∀ (first last : List (Outside × Call)) (w : Outside), calls = first ++ (w, .tick) :: last →
      (session.run first).state.countdown.isRunning = true)
    (hc : c = .tick → (session.run calls).state.countdown.isRunning = true)
    (first last : List (Outside × Call)) (w' : Outside)
    (hsplit : calls ++ [(w, c)] = first ++ (w', .tick) :: last) :
    (session.run first).state.countdown.isRunning = true := by
  rcases List.eq_nil_or_concat last with rfl | ⟨last, x, rfl⟩
  · obtain ⟨rfl, hcall⟩ := List.append_inj' hsplit rfl
    exact hc (Prod.mk.inj (List.singleton_inj.1 hcall)).2
  · rw [List.concat_eq_append, ← List.cons_append, ← List.append_assoc] at hsplit
    exact h first last w' (List.append_inj' hsplit rfl).1

theorem updates_call (h : Sequential session past l) {w : Outside} {c : Call} {more : Past}
    (hcalls : more.calls = [(w, c)]) (hleft : .left ∉ more)
    (hupdates : more.updates = if l.listening then l.session.report w c else []) :
    Past.updates (past ++ more) = tidings session.pending session.state ++
      session.reports (Past.beforeLeaving (past ++ more)).calls := by
  rw [Past.updates_append, hupdates, h.updates_eq]
  cases hlistening : l.listening with
  | true =>
    have hbefore : .left ∉ past := h.listening_iff.1 hlistening
    have hafter : .left ∉ past ++ more := by simp [hbefore, hleft]
    rw [Past.beforeLeaving_of_notMem hbefore, Past.beforeLeaving_of_notMem hafter,
      Past.calls_append, hcalls, Session.reports_concat, if_pos rfl, h.session_eq,
      Session.report_takeEvents, List.append_assoc]
  | false =>
    rw [Past.beforeLeaving_append_of_mem (h.left_mem hlistening), if_neg Bool.false_ne_true,
      List.append_nil]

/-- A call that finds nobody listening is the first such, and the last call. -/
theorem leaving_call (h : Sequential session past l) {w : Outside} {c : Call} {more : Past}
    (hrunning : l.running = true) (hcalls : more.calls = [(w, c)]) (hleft : .left ∉ more)
    (hended : l'.running = l.listening) :
    (Past.afterLeaving (past ++ more)).calls = [] ∨
      (Past.afterLeaving (past ++ more)).calls.length = 1 ∧ l'.running = false := by
  cases hlistening : l.listening with
  | true =>
    have hbefore : .left ∉ past := h.listening_iff.1 hlistening
    have hafter : .left ∉ past ++ more := by simp [hbefore, hleft]
    rw [Past.afterLeaving_of_notMem hafter]
    exact Or.inl rfl
  | false =>
    rw [Past.afterLeaving_append_of_mem (h.left_mem hlistening), Past.calls_append,
      h.calls_afterLeaving hrunning, hcalls]
    exact Or.inr ⟨rfl, hended.trans hlistening⟩

/-- **A move that makes a call** makes it the next of the sequence, and tells it. -/
theorem call (h : Sequential session past l) {w : Surroundings} {now time : Nat} {m : Move}
    {c : Call} (hrunning : l.running = true) (hdue : Due l now time m)
    (hc : l.callOf w m = some c) :
    Sequential session (past ++ l.seen w time m) (l.move w time m).1 := by
  have hpending := h.pending_eq_nil
  have hstate : l.session.state = (session.run past.calls).state := by rw [h.session_eq]; rfl
  obtain ⟨hcalled, hwaiting, htick⟩ := move_call hdue hpending hc
  have hended : (l.move w time m).1.running = l.listening := by
    rw [hcalled.running_eq, hrunning, Bool.true_and]
  have hseen : (l.seen w time m).calls = [(w.toOutside, c)] := by rw [calls_seen, hc]; rfl
  have hcalls : Past.calls (past ++ l.seen w time m) = past.calls ++ [(w.toOutside, c)] := by
    rw [Past.calls_append, hseen]
  have hleft := left_notMem_seen w l time m
  refine
    { accepting_iff := ?_
      listening_iff := ?_
      session_eq := ?_
      inputs_eq := ?_
      updates_eq := h.updates_call hseen hleft ((updates_seen ..).trans hcalled.updates_eq)
      ticks := ?_
      ordered := ?_
      ended := ?_
      leaving := h.leaving_call hrunning hseen hleft hended }
  · rw [hcalled.accepting_eq, h.accepting_iff]
    simp [closed_notMem_seen]
  · rw [hcalled.listening_eq, h.listening_iff]
    simp [hleft]
  · rw [hcalled.session_eq, hcalls, Session.run_concat, h.session_eq, Session.perform_takeEvents]
    rfl
  · rw [Past.sent_append, sent_seen, List.append_nil, ← h.inputs_eq, hwaiting, Past.inputs_append,
      Past.inputs, Past.inputs, hseen, List.append_assoc]
    cases c <;> rfl
  · rw [hcalls]
    exact ticks_concat h.ticks fun hc' => hstate ▸ (htick hc').2
  · refine List.pairwise_append.2 ⟨h.ordered, pairwise_seen w l time m, fun x hx y hy => ?_⟩
    rcases mem_seen hy with ⟨c', hc', rfl⟩ | ⟨u, hu, rfl⟩
    · obtain rfl := Option.some.inj (hc.symm.trans hc')
      exact h.mayPrecede_called hx fun hc' => (htick hc').1
    · rw [hcalled.updates_eq] at hu
      refine h.mayPrecede_told hx ?_
      by_contra hdeaf
      rw [if_neg hdeaf] at hu
      cases hu
  · intro hstopped
    exact Or.inl (List.mem_append_left _ (h.left_mem (hended.symm.trans hstopped)))

/-- **A move that makes no call** shows nothing. -/
theorem noCall (h : Sequential session past l) {w : Surroundings} {now time : Nat} {m : Move}
    (hrunning : l.running = true) (hdue : Due l now time m) (hc : l.callOf w m = none) :
    Sequential session (past ++ l.seen w time m) (l.move w time m).1 := by
  obtain ⟨hupdates, hsession, hlistening, haccepting, hwaiting, hended⟩ := move_noCall hdue hc
  have hseen : l.seen w time m = [] := by
    rw [seen, hc, hupdates]
    rfl
  rw [hseen, List.append_nil]
  refine
    { accepting_iff := haccepting ▸ h.accepting_iff
      listening_iff := hlistening ▸ h.listening_iff
      session_eq := hsession ▸ h.session_eq
      inputs_eq := hwaiting ▸ h.inputs_eq
      updates_eq := h.updates_eq
      ticks := h.ticks
      ordered := h.ordered
      ended := fun hstopped => ?_
      leaving := Or.inl (h.calls_afterLeaving hrunning) }
  rcases hended with hkept | ⟨hnone, hclosed⟩
  · rw [hkept, hrunning] at hstopped
    cases hstopped
  · exact Or.inr ⟨h.closed_mem hclosed, hwaiting.trans hnone⟩

end Sequential

theorem Run.sequential {session : Session} {period : Nat} {past : Past} {now : Nat} {l : Loop}
    (h : Run session period past now l) : Sequential session past l := by
  induction h with
  | start now => exact .start session period now
  | wait h hlater ih => exact ih
  | send h i ih => exact ih.send i
  | close h ih => exact ih.close
  | deafen h ih => exact ih.deafen
  | @move past now time l m h w hnext ih =>
    obtain ⟨hrunning, hdue⟩ := due_of_next? hnext
    cases hc : l.callOf w m with
    | some c => exact ih.call hrunning hdue hc
    | none => exact ih.noCall hrunning hdue hc

end Loop

open Loop in
/-- **The loop is a session of calls one after another, and loses nothing**, whatever is sent and
when, and however long fetches take.  While somebody listens every call is told, and a loop that has
ended was closed and has carried out every input that it accepted.  Letting time pass makes more of
such a run, and closing the queue ends it. -/
theorem loop_is_sequential {session : Session} {period : Nat} {past : Past} {now : Nat} {l : Loop}
    (h : Run session period past now l) :
    Sequential session past l ∧
      (.left ∉ past →
        past.updates =
          tidings session.pending session.state ++ session.reports past.calls ∧
        (l.running = false → .closed ∈ past ∧ past.inputs = past.sent)) ∧
      ∀ w : Surroundings,
        (∀ limit, now ≤ limit → ∃ more : Past,
          Run session period (past ++ more) limit (l.runUntil w now limit).1 ∧
            more.updates = (l.runUntil w now limit).2) ∧
        ∃ (more : Past) (later : Nat),
          Run session period (past ++ .closed :: more) later (l.runToEnd w now).1 ∧
            more.updates = (l.runToEnd w now).2 ∧ (l.runToEnd w now).1.running = false := by
  have hsequential := h.sequential
  refine ⟨hsequential, fun hleft => ⟨?_, fun hended => ?_⟩, fun w => ⟨fun limit hlimit => ?_, ?_⟩⟩
  · rw [hsequential.updates_eq, Past.beforeLeaving_of_notMem hleft]
  · obtain ⟨hclosed, hnone⟩ := (hsequential.ended hended).resolve_left hleft
    have hinputs := hsequential.inputs_eq
    rw [hnone, List.append_nil] at hinputs
    exact ⟨hclosed, hinputs⟩
  · exact h.runUntil w hlimit
  · obtain ⟨more, later, hrun, hupdates⟩ := h.runToEnd w
    exact ⟨more, later, hrun, hupdates, l.runToEnd_ended w now⟩

/-- A session at a door, with three seconds to go through it. -/
def doorSession : Session :=
  .ofState
    { State.initial with
      book := some ⟨"door", .ofList [("door",
        { Screen.blank with kind := .timed, timedChoices := some ⟨3, 0, []⟩ })]⟩
      screenId := some "door" }

/-- Surroundings without any book, where fetches take no time. -/
def noBooks : Surroundings := { fetch := fetchFrom .empty "books", now := 0, delay := fun _ _ => 0 }

/-- An input that starts a countdown, a tick of it, and then the end. -/
theorem countdown_in_sequence :
    ∃ (past : Past) (l : Loop),
      Loop.Run doorSession 1000 past 1000 l ∧ l.running = false ∧ .left ∉ past ∧
        past.inputs = past.sent ∧
        past.updates = tidings doorSession.pending doorSession.state ++
          doorSession.reports past.calls ∧
        l.session.state.countdown = ⟨some ⟨"door", 2, 0⟩, 1⟩ := by
  have hsent : Loop.Run doorSession 1000 _ 0 _ := (Loop.Run.start 0).send .advance
  have hbegun : Loop.Run doorSession 1000 _ 0 _ := hsent.move noBooks (m := .begin .advance []) rfl
  have hticked : Loop.Run doorSession 1000 _ 1000 _ := hbegun.move noBooks (m := .tick) rfl
  have hended : Loop.Run doorSession 1000 _ 1000 _ := hticked.close.move noBooks (m := .stop) rfl
  obtain ⟨hsequential, htold, _⟩ := loop_is_sequential hended
  have hleft := hsequential.listening_iff.1 rfl
  obtain ⟨hupdates, hcarried⟩ := htold hleft
  exact ⟨_, _, hended, rfl, hleft, (hcarried rfl).2, hupdates, rfl⟩

end Gamebook
