import Mathlib.Data.List.Induction
import Gamebook.Proofs.Session.Coherence

/-!
# A countdown that runs out picks its default

From a state with `n` seconds left the first `k < n` ticks only count
(`run_ticks`), and the last one expires (`tick_of_default`,
`tick_of_no_default`).  It either enters the default option's screen, and then
leaves just what picking that option by hand would have left, or it leaves the
countdown idle where it was.

An idle countdown stays idle until one is started (`idle_run`), so further ticks
do nothing.
-/

namespace Gamebook

/-- The events of the first `count` ticks of a countdown with so many seconds left. -/
def ticksOf (owner : String) (seconds count : Nat) : List EventKind :=
  (List.range count).map fun k => .countdownTicked owner (seconds - 1 - k)

theorem ticksOf_succ (owner : String) (seconds count : Nat) :
    ticksOf owner seconds (count + 1) =
      ticksOf owner seconds count ++ [.countdownTicked owner (seconds - 1 - count)] := by
  simp [ticksOf, List.range_succ]

namespace State

/-- The same state with this countdown running. -/
def counting (s : State) (r : Running) : State :=
  { s with countdown := { s.countdown with running := some r } }

/-- The same state with no countdown running. -/
def stopped (s : State) : State := { s with countdown := s.countdown.cancel }

theorem counting_self {s : State} {r : Running} (hr : s.countdown.running = some r) :
    s.counting r = s := by
  unfold counting
  rw [← hr]

theorem mode_of_running {s : State} {r : Running} (hr : s.countdown.running = some r) :
    s.mode = .timed := by
  have hrunning : s.countdown.isRunning = true := by rw [Countdown.isRunning, hr]; rfl
  exact if_pos hrunning

theorem activeId_of_screenId {s : State} {id : String} (h : s.screenId = some id) :
    s.activeId = id := by
  rw [activeId, h]
  rfl

end State

namespace Session

variable {w : Outside} {s : Session} {r : Running}

/-! ### Ticks of a running countdown -/

theorem tick_of_counting (hr : s.state.countdown.running = some r)
    (howner : s.state.screenId = some r.owner) (hlast : 1 < r.remaining) :
    (s.tick w).1.state = s.state.counting { r with remaining := r.remaining - 1 } ∧
      (s.tick w).1.kinds = s.kinds ++ [.countdownTicked r.owner (r.remaining - 1)] := by
  rw [tick_of_more w hr hlast, State.activeId_of_screenId howner]
  exact ⟨rfl, kinds_record ..⟩

/-- The ticks before the last one count down. -/
theorem run_ticks (hr : s.state.countdown.running = some r)
    (howner : s.state.screenId = some r.owner) (ticks : List Outside)
    (hmore : ticks.length < r.remaining) :
    (s.run (ticks.map (·, .tick))).state =
        s.state.counting { r with remaining := r.remaining - ticks.length } ∧
      (s.run (ticks.map (·, .tick))).kinds =
        s.kinds ++ ticksOf r.owner r.remaining ticks.length := by
  induction ticks using List.reverseRecOn with
  | nil => exact ⟨(State.counting_self hr).symm, (List.append_nil _).symm⟩
  | append_singleton ticks w ih =>
    rw [List.length_append, List.length_singleton] at hmore ⊢
    obtain ⟨hstate, hkinds⟩ := ih (by omega)
    rw [List.map_append, List.map_singleton, run_concat]
    generalize s.run (ticks.map (·, .tick)) = t at hstate hkinds ⊢
    have hleft : t.state.countdown.running =
        some { r with remaining := r.remaining - ticks.length } := by rw [hstate]; rfl
    have hscreen : t.state.screenId = some r.owner := by rw [hstate]; exact howner
    obtain ⟨hnext, hticked⟩ := tick_of_counting (w := w) hleft hscreen (by dsimp only; omega)
    refine ⟨?_, ?_⟩
    · change (t.tick w).1.state = _
      rw [hnext, hstate]
      rfl
    · change (t.tick w).1.kinds = _
      rw [hticked, hkinds, ticksOf_succ, List.append_assoc]
      congr 4
      dsimp only
      omega

/-- The last tick picks the default option, if that leads to a screen of the book. -/
theorem tick_of_default {option : Choice} (hr : s.state.countdown.running = some r)
    (howner : s.state.screenId = some r.owner) (hlast : r.remaining ≤ 1)
    (hoption : s.state.option? r.defaultIndex true = some option)
    (hnext : s.state.defines option.next = true) :
    (s.tick w).1.state = s.state.place option.next ∧
      (s.tick w).1.kinds = s.kinds ++ [.countdownExpired r.owner r.defaultIndex,
        .choiceMade r.owner r.defaultIndex option.next true, .screenEntered option.next] := by
  have hexpire : (s.expire w r).kinds = s.kinds ++ [.countdownExpired r.owner r.defaultIndex] :=
    kinds_record ..
  have hactive : (s.expire w r).state.activeId = r.owner := State.activeId_of_screenId howner
  obtain ⟨hkinds, hstate⟩ := pickTimed_of_defines w (s := s.expire w r) hoption hnext
  rw [tick_of_last w hr hlast, if_pos howner]
  refine ⟨hstate.trans rfl, ?_⟩
  rw [hkinds, hexpire, hactive, List.append_assoc]
  rfl

/-- If that leads nowhere, the last tick only stops the countdown. -/
theorem tick_of_no_default (hr : s.state.countdown.running = some r)
    (howner : s.state.screenId = some r.owner) (hlast : r.remaining ≤ 1)
    (hnone : ∀ option, s.state.option? r.defaultIndex true = some option →
      s.state.defines option.next = false) :
    (s.tick w).1.state = s.state.stopped ∧
      (s.tick w).1.kinds = s.kinds ++ [.countdownExpired r.owner r.defaultIndex] := by
  rw [tick_of_last w hr hlast, if_pos howner,
    pickTimed_of_not_defines w (s := s.expire w r) hnone]
  exact ⟨rfl, kinds_record ..⟩

/-! ### Picking by hand -/

theorem chooseTimed_of_defines {index : Nat} {option : Choice}
    (hr : s.state.countdown.running = some r) (howner : s.state.screenId = some r.owner)
    (hoption : s.state.option? index true = some option)
    (hnext : s.state.defines option.next = true) :
    (s.perform w (.input (.chooseTimed index))).1.state = s.state.place option.next ∧
      (s.perform w (.input (.chooseTimed index))).2 = .ok true ∧
      (s.recorded w (.input (.chooseTimed index))).map (·.kind) =
        [.choiceMade r.owner index option.next true, .screenEntered option.next] := by
  have hi : (Input.chooseTimed index).pick? s.state = some (index, true) :=
    if_pos (State.mode_of_running hr)
  obtain ⟨hanswer, hstate, hkinds⟩ := perform_of_pick (w := w) hi hoption hnext
  rw [State.activeId_of_screenId howner] at hkinds
  exact ⟨hstate, hanswer, hkinds⟩

end Session

/-! ### Idle countdowns -/

theorem Turn.idle {w : Outside} {s s' : State} {c : Call} {kinds : List EventKind}
    (ht : Turn w s c kinds s') (hidle : s.countdown.running = none)
    (hkinds : ∀ kind ∈ kinds, kind.tag ≠ .countdownStarted) : s'.countdown.running = none := by
  cases ht with
  | countdownStarted => exact absurd rfl (hkinds _ List.mem_cons_self)
  | ticked hr _ => rw [hidle] at hr; nomatch hr
  | expired => rfl
  | defaulted => rfl
  | entered => rfl
  | loaded => rfl
  | picked => rfl
  | _ => exact hidle

namespace Session

theorem idle_run (calls : List (Outside × Call)) (s : Session)
    (hidle : s.state.countdown.running = none)
    (hkinds : ∀ kind ∈ s.logged calls, kind.tag ≠ .countdownStarted) :
    (s.run calls).state.countdown.running = none := by
  induction calls generalizing s with
  | nil => exact hidle
  | cons c rest ih =>
    refine ih _ ?_ fun kind hkind => hkinds kind (List.mem_append_right _ hkind)
    exact (s.perform_turn c.1 c.2).idle hidle fun kind hkind =>
      hkinds kind (List.mem_append_left _ hkind)

/-! ### Running out -/

variable {s : Session} {r : Running}

/-- The ticks until a countdown runs out: all but the last only count, and leave a state from which
the last one expires. -/
theorem exists_last_tick (hr : s.state.countdown.running = some r)
    (howner : s.state.screenId = some r.owner) (hpos : 0 < r.remaining) {ticks : List Outside}
    (hticks : ticks.length = r.remaining) :
    ∃ (t : Session) (w : Outside), s.run (ticks.map (·, .tick)) = (t.tick w).1 ∧
      t.state = s.state.counting { r with remaining := 1 } ∧
      t.kinds = s.kinds ++ ticksOf r.owner r.remaining (r.remaining - 1) := by
  rcases List.eq_nil_or_concat ticks with rfl | ⟨init, w, rfl⟩
  · rw [List.length_nil] at hticks
    omega
  · rw [List.concat_eq_append, List.length_append, List.length_singleton] at hticks
    have hinit : init.length = r.remaining - 1 := by omega
    obtain ⟨hstate, hkinds⟩ := run_ticks hr howner init (by omega)
    refine ⟨s.run (init.map (·, .tick)), w, ?_, ?_, ?_⟩
    · rw [List.concat_eq_append, List.map_append, List.map_singleton, run_concat]
      rfl
    · rw [hstate]
      congr 2
      omega
    · rw [hkinds, hinit]

theorem run_out_of_default {option : Choice} (hr : s.state.countdown.running = some r)
    (howner : s.state.screenId = some r.owner) (hpos : 0 < r.remaining) {ticks : List Outside}
    (hticks : ticks.length = r.remaining)
    (hoption : s.state.option? r.defaultIndex true = some option)
    (hnext : s.state.defines option.next = true) :
    (s.run (ticks.map (·, .tick))).state = s.state.place option.next ∧
      s.logged (ticks.map (·, .tick)) = ticksOf r.owner r.remaining (r.remaining - 1) ++
        [.countdownExpired r.owner r.defaultIndex,
          .choiceMade r.owner r.defaultIndex option.next true, .screenEntered option.next] := by
  obtain ⟨t, w, hrun, hstate, hkinds⟩ := exists_last_tick hr howner hpos hticks
  have hsame : t.state.option? r.defaultIndex true = s.state.option? r.defaultIndex true := by
    rw [hstate]
    rfl
  have hdefines : t.state.defines option.next = s.state.defines option.next := by
    rw [hstate]
    rfl
  obtain ⟨hplace, hlogged⟩ := tick_of_default (w := w) (s := t) (r := { r with remaining := 1 })
    (by rw [hstate]; rfl) (by rw [hstate]; exact howner) (Nat.le_refl 1)
    (hsame.trans hoption) (hdefines.trans hnext)
  refine ⟨by rw [hrun, hplace, hstate]; rfl, ?_⟩
  have hall := kinds_run s (ticks.map (·, .tick))
  rw [hrun, hlogged, hkinds, List.append_assoc] at hall
  exact (List.append_cancel_left hall).symm

theorem run_out_of_no_default (hr : s.state.countdown.running = some r)
    (howner : s.state.screenId = some r.owner) (hpos : 0 < r.remaining) {ticks : List Outside}
    (hticks : ticks.length = r.remaining)
    (hnone : ∀ option, s.state.option? r.defaultIndex true = some option →
      s.state.defines option.next = false) :
    (s.run (ticks.map (·, .tick))).state = s.state.stopped ∧
      s.logged (ticks.map (·, .tick)) = ticksOf r.owner r.remaining (r.remaining - 1) ++
        [.countdownExpired r.owner r.defaultIndex] := by
  obtain ⟨t, w, hrun, hstate, hkinds⟩ := exists_last_tick hr howner hpos hticks
  obtain ⟨hstopped, hlogged⟩ := tick_of_no_default (w := w) (s := t)
    (r := { r with remaining := 1 }) (by rw [hstate]; rfl) (by rw [hstate]; exact howner)
    (Nat.le_refl 1) (by rw [hstate]; exact hnone)
  refine ⟨by rw [hrun, hstopped, hstate]; rfl, ?_⟩
  have hall := kinds_run s (ticks.map (·, .tick))
  rw [hrun, hlogged, hkinds, List.append_assoc] at hall
  exact (List.append_cancel_left hall).symm

end Session

open Session in
/-- **Letting a countdown run out is picking its default.**  As many ticks as there are seconds left
lead to the very state that picking the default option by hand leads to, if that option is there and
leads to a screen of the book; else they only stop the countdown.  They record the seconds in their
order, then that the countdown expired, and then what the pick records.  After that a tick does
nothing, until a countdown is started again. -/
theorem running_out_picks_default (calls : List (Outside × Call)) {r : Running}
    (hr : (Session.initial.run calls).state.countdown.running = some r) {ticks : List Outside}
    (hticks : ticks.length = r.remaining) (w : Outside) :
    let s := Session.initial.run calls
    let out := s.run (ticks.map (·, .tick))
    let pick := Call.input (.chooseTimed r.defaultIndex)
    (∀ option, s.state.option? r.defaultIndex true = some option →
      s.state.defines option.next = true →
        out.state = (s.perform w pick).1.state ∧ (s.perform w pick).2 = .ok true ∧
        (s.recorded w pick).map (·.kind) =
          [.choiceMade r.owner r.defaultIndex option.next true, .screenEntered option.next] ∧
        s.logged (ticks.map (·, .tick)) = ticksOf r.owner r.remaining (r.remaining - 1) ++
          .countdownExpired r.owner r.defaultIndex :: (s.recorded w pick).map (·.kind)) ∧
    ((∀ option, s.state.option? r.defaultIndex true = some option →
      s.state.defines option.next = false) →
        out.state = { s.state with countdown := ⟨none, s.state.countdown.epoch⟩ } ∧
        s.logged (ticks.map (·, .tick)) = ticksOf r.owner r.remaining (r.remaining - 1) ++
          [.countdownExpired r.owner r.defaultIndex]) ∧
    ∀ later : List (Outside × Call),
      (∀ kind ∈ out.logged later, kind.tag ≠ .countdownStarted) →
        ∀ w', (out.run later).perform w' .tick = ((out.run later).beginCall, .ok false) := by
  intro s out pick
  obtain ⟨howner, _, _, _, _, _, _, _, _, hpos, _⟩ := (State.Coherent.of_run calls).countdown r hr
  refine ⟨fun option hoption hnext => ?_, fun hnone => ?_, fun later hlater w' => ?_⟩
  · obtain ⟨hout, hlogged⟩ := run_out_of_default hr howner hpos hticks hoption hnext
    obtain ⟨hstate, hanswer, hrecorded⟩ := chooseTimed_of_defines (w := w) hr howner hoption hnext
    refine ⟨hout.trans hstate.symm, hanswer, hrecorded, ?_⟩
    rw [hrecorded]
    exact hlogged
  · exact run_out_of_no_default hr howner hpos hticks hnone
  · have hout : out.state.countdown.running = none := by
      rcases s.state.picks_or_not r.defaultIndex with ⟨option, hoption, hnext⟩ | hnone
      · rw [(run_out_of_default hr howner hpos hticks hoption hnext).1]
        rfl
      · rw [(run_out_of_no_default hr howner hpos hticks hnone).1]
        rfl
    have hidle := idle_run later out hout hlater
    exact congrArg boolAnswer (tick_of_idle w' hidle)

/-- A book of one screen, with two seconds to go through a door that leads back to it. -/
def doorText : String :=
  "start: door\nscreens:\n  door:\n    type: timed\n    timedChoices:\n      time: 2\n" ++
    "      options:\n        - text: Run\n          next: door\n"

def atDoor : Outside := ⟨fun _ => .ok doorText, 0⟩

/-- The calls that start the countdown at the door. -/
def startAtDoor : List (Outside × Call) :=
  [(atDoor, .input (.load "door.yaml")), (atDoor, .input .advance)]

theorem state_startAtDoor :
    (Session.initial.run startAtDoor).state.countdown.running = some ⟨"door", 2, 0⟩ ∧
      (Session.initial.run startAtDoor).state.option? 0 true = some ⟨"Run", "door"⟩ ∧
      (Session.initial.run startAtDoor).state.defines "door" = true := by
  decide +kernel

/-- The countdown at the door, run out. -/
theorem running_out_at_door :
    let s := Session.initial.run startAtDoor
    let ticks := [(atDoor, Call.tick), (atDoor, Call.tick)]
    s.state.countdown.running = some ⟨"door", 2, 0⟩ ∧
      (s.run ticks).state = (s.perform atDoor (.input (.chooseTimed 0))).1.state ∧
      s.logged ticks =
        [.countdownTicked "door" 1, .countdownExpired "door" 0,
          .choiceMade "door" 0 "door" true, .screenEntered "door"] := by
  intro s ticks
  obtain ⟨hrunning, hoption, hnext⟩ := state_startAtDoor
  have hticks : [atDoor, atDoor].length = 2 := rfl
  obtain ⟨hpicked, _⟩ := running_out_picks_default startAtDoor hrunning hticks atDoor
  obtain ⟨hstate, _, hrecorded, hlogged⟩ := hpicked _ hoption hnext
  exact ⟨hrunning, hstate, hlogged.trans (by rw [hrecorded]; rfl)⟩

end Gamebook
