import Gamebook.Session.Countdown
import Mathlib.Data.List.Induction

/-!
# What a countdown has been told, it does

After any calls a countdown runs just when the last start has been followed by ticks
alone, and by fewer of them than it was given seconds (`Countdown.running_run_iff`).  The
proof goes along the calls, the last one split off: a start forgets what was before it, a
cancel forgets all, and a tick takes one second or ends it (`Countdown.running_tick_iff`).
All else is read off this: what is left, what each tick answers, and where in a sequence
of calls a countdown runs out (`Countdown.expired_iff`).
-/

namespace Gamebook.Countdown

variable {calls : List Call} {owner : String} {t : TimedChoices} {m : Nat}

/-! ### Sequences of calls -/

/-- Makes the calls one after another. -/
def run (c : Countdown) (calls : List Call) : Countdown :=
  calls.foldl (fun c call => (c.perform call).1) c

/-- What the calls are answered. -/
def answers (c : Countdown) : List Call → List Answer
  | [] => []
  | call :: rest => (c.perform call).2 :: (c.perform call).1.answers rest

def Call.isStart : Call → Bool
  | .start _ _ => true
  | _ => false

theorem run_concat (c : Countdown) (calls : List Call) (call : Call) :
    c.run (calls ++ [call]) = ((c.run calls).perform call).1 := by
  rw [run, List.foldl_append]
  rfl

theorem getElem?_answers (c : Countdown) (calls : List Call) (k : Nat) :
    (c.answers calls)[k]? = calls[k]?.map fun call => ((c.run (calls.take k)).perform call).2 := by
  induction calls generalizing c k with
  | nil => rfl
  | cons call rest ih =>
    cases k with
    | zero => rfl
    | succ k =>
      rw [answers, List.getElem?_cons_succ, ih, List.getElem?_cons_succ, List.take_succ_cons]
      rfl

/-- **The epoch counts the starts.** -/
theorem epoch_run (calls : List Call) : (fresh.run calls).epoch = calls.countP Call.isStart := by
  induction calls using List.reverseRecOn with
  | nil => rfl
  | append_singleton calls call ih =>
    rw [run_concat, List.countP_append, ← ih]
    cases call with
    | start owner t => rfl
    | cancel => rfl
    | tick =>
      rw [perform, tick]
      cases (fresh.run calls).running with
      | none => rfl
      | some r =>
        dsimp only
        split
        · rfl
        · rfl

/-! ### The ticks since the last start -/

/-- Whether the calls end with a start and `m` ticks after it. -/
def TicksSince (calls : List Call) (owner : String) (t : TimedChoices) (m : Nat) : Prop :=
  ∃ before, calls = before ++ .start owner t :: List.replicate m .tick

theorem not_ticksSince_nil : ¬TicksSince [] owner t m := by
  rintro ⟨before, h⟩
  simp at h

theorem ticksSince_concat_iff {call : Call} :
    TicksSince (calls ++ [call]) owner t m ↔ call = .start owner t ∧ m = 0 ∨
      call = .tick ∧ ∃ n, m = n + 1 ∧ TicksSince calls owner t n := by
  constructor
  · rintro ⟨before, h⟩
    cases m with
    | zero =>
      obtain ⟨-, hcall⟩ := List.append_inj' h rfl
      exact Or.inl ⟨by simpa using hcall, rfl⟩
    | succ n =>
      rw [List.replicate_succ', ← List.cons_append, ← List.append_assoc] at h
      obtain ⟨hcalls, hcall⟩ := List.append_inj' h rfl
      exact Or.inr ⟨by simpa using hcall, n, rfl, before, hcalls⟩
  · rintro (⟨rfl, rfl⟩ | ⟨rfl, n, rfl, before, rfl⟩)
    · exact ⟨calls, rfl⟩
    · refine ⟨before, ?_⟩
      rw [List.replicate_succ']
      simp

/-- Where in the calls the start and the ticks after it stand. -/
theorem ticksSince_take_iff {k : Nat} (hk : k ≤ calls.length) :
    TicksSince (calls.take k) owner t m ↔ ∃ i, k = i + m + 1 ∧ calls[i]? = some (.start owner t) ∧
      ∀ j, i < j → j < k → calls[j]? = some .tick := by
  constructor
  · rintro ⟨before, h⟩
    have hlength := congrArg List.length h
    simp only [List.length_take, List.length_append, List.length_cons, List.length_replicate]
      at hlength
    have hcalls (j : Nat) (hj : j < k) :
        calls[j]? = (before ++ .start owner t :: List.replicate m .tick)[j]? := by
      rw [← h, List.getElem?_take_of_lt hj]
    refine ⟨before.length, by omega, ?_, ?_⟩
    · rw [hcalls _ (by omega), List.getElem?_append_right (Nat.le_refl _), Nat.sub_self]
      rfl
    · intro j hij hjk
      have hafter : j - before.length = j - before.length - 1 + 1 := by omega
      rw [hcalls j hjk, List.getElem?_append_right (by omega), hafter, List.getElem?_cons_succ,
        List.getElem?_replicate_of_lt (by omega)]
  · rintro ⟨i, rfl, hstart, hticks⟩
    refine ⟨calls.take i, ?_⟩
    apply List.ext_getElem?
    intro j
    have hlength : (calls.take i).length = i := by
      rw [List.length_take]
      omega
    rcases Nat.lt_trichotomy j i with hj | rfl | hj
    · rw [List.getElem?_take_of_lt (by omega), List.getElem?_append_left (by omega),
        List.getElem?_take_of_lt hj]
    · rw [List.getElem?_take_of_lt (by omega), List.getElem?_append_right (by omega), hlength,
        Nat.sub_self, hstart]
      rfl
    · have hafter : j - i = j - i - 1 + 1 := by omega
      rw [List.getElem?_append_right (by omega), hlength, hafter, List.getElem?_cons_succ]
      by_cases hjk : j < i + m + 1
      · rw [List.getElem?_take_of_lt hjk, hticks j hj hjk,
          List.getElem?_replicate_of_lt (by omega)]
      · rw [List.getElem?_eq_none (by rw [List.length_take]; omega),
          List.getElem?_eq_none (by rw [List.length_replicate]; omega)]

/-! ### One tick -/

variable {c : Countdown} {r : Running}

theorem tick_of_idle (h : c.running = none) : c.tick = (c, .idle) := by
  rw [tick, h]

theorem tick_of_more (h : c.running = some r) (hmore : 1 < r.remaining) :
    c.tick = ({ c with running := some { r with remaining := r.remaining - 1 } },
      .counting (r.remaining - 1)) := by
  rw [tick, h]
  exact if_pos hmore

theorem tick_of_last (h : c.running = some r) (hlast : r.remaining ≤ 1) :
    c.tick = (c.cancel, .expired r.owner r.defaultIndex) := by
  rw [tick, h]
  exact if_neg (Nat.not_lt.2 hlast)

theorem running_tick_iff : c.tick.1.running = some r ↔ ∃ before, c.running = some before ∧
    1 < before.remaining ∧ r = { before with remaining := before.remaining - 1 } := by
  cases hrunning : c.running with
  | none =>
    rw [tick_of_idle hrunning, hrunning]
    exact iff_of_false nofun fun ⟨before, hbefore, _⟩ => nomatch hbefore
  | some before =>
    simp only [Option.some.injEq, exists_eq_left']
    by_cases hmore : 1 < before.remaining
    · rw [tick_of_more hrunning hmore, Option.some.injEq, and_iff_right hmore]
      exact eq_comm
    · rw [tick_of_last hrunning (Nat.not_lt.1 hmore)]
      exact iff_of_false nofun fun h => hmore h.1

theorem tick_eq_expired_iff {n : Nat} : c.tick.2 = .expired owner n ↔
    ∃ r, c.running = some r ∧ r.remaining ≤ 1 ∧ r.owner = owner ∧ r.defaultIndex = n := by
  cases hrunning : c.running with
  | none =>
    rw [tick_of_idle hrunning]
    exact iff_of_false nofun fun ⟨before, hbefore, _⟩ => nomatch hbefore
  | some r =>
    simp only [Option.some.injEq, exists_eq_left']
    by_cases hmore : 1 < r.remaining
    · rw [tick_of_more hrunning hmore]
      exact iff_of_false nofun fun h => absurd hmore (Nat.not_lt.2 h.1)
    · have hlast := Nat.not_lt.1 hmore
      rw [tick_of_last hrunning hlast, TickOutcome.expired.injEq, and_iff_right hlast]

theorem tick_eq_idle_iff : c.tick.2 = .idle ↔ c.running = none := by
  cases hrunning : c.running with
  | none => exact iff_of_true (by rw [tick_of_idle hrunning]) rfl
  | some r =>
    refine iff_of_false (fun h => ?_) nofun
    by_cases hmore : 1 < r.remaining
    · rw [tick_of_more hrunning hmore] at h
      nomatch h
    · rw [tick_of_last hrunning (Nat.not_lt.1 hmore)] at h
      nomatch h

theorem isRunning_eq_false_iff : c.isRunning = false ↔ c.running = none := by
  rw [isRunning, Option.isSome_eq_false_iff, Option.isNone_iff_eq_none]

/-! ### What is running -/

/-- **A countdown runs just when fewer ticks than it has seconds, and nothing else, have followed
the last start.** -/
theorem running_run_iff (calls : List Call) (r : Running) :
    (fresh.run calls).running = some r ↔ ∃ owner t m, TicksSince calls owner t m ∧
      m < t.duration ∧ r = ⟨owner, t.duration - m, t.defaultIndex.toNat⟩ := by
  induction calls using List.reverseRecOn generalizing r with
  | nil => exact iff_of_false nofun fun ⟨_, _, _, hsince, _⟩ => not_ticksSince_nil hsince
  | append_singleton calls call ih =>
    simp only [run_concat, ticksSince_concat_iff]
    cases call with
    | start owner t =>
      constructor
      · intro h
        have hr : ⟨owner, t.duration, t.defaultIndex.toNat⟩ = r := Option.some.inj h
        exact ⟨owner, t, 0, Or.inl ⟨rfl, rfl⟩, t.duration_pos, hr.symm⟩
      · rintro ⟨owner', t', m, ⟨hcall, rfl⟩ | ⟨hcall, _⟩, _, rfl⟩
        · obtain ⟨rfl, rfl⟩ := Call.start.inj hcall
          rfl
        · nomatch hcall
    | cancel =>
      refine iff_of_false nofun ?_
      rintro ⟨_, _, _, ⟨hcall, _⟩ | ⟨hcall, _⟩, _⟩
      · nomatch hcall
      · nomatch hcall
    | tick =>
      change (fresh.run calls).tick.1.running = some r ↔ _
      rw [running_tick_iff]
      constructor
      · rintro ⟨before, hbefore, hmore, rfl⟩
        obtain ⟨owner, t, m, hsince, _, rfl⟩ := (ih before).1 hbefore
        dsimp only at hmore
        exact ⟨owner, t, m + 1, Or.inr ⟨rfl, m, rfl, hsince⟩, by omega, rfl⟩
      · rintro ⟨owner, t, m, ⟨hcall, _⟩ | ⟨-, n, rfl, hsince⟩, hm, rfl⟩
        · nomatch hcall
        · have hbefore := (ih _).2 ⟨owner, t, n, hsince, by omega, rfl⟩
          refine ⟨_, hbefore, ?_, rfl⟩
          dsimp only
          omega

theorem ticksSince_unique {owner' : String} {t' : TimedChoices} {m' : Nat}
    (h : TicksSince calls owner t m) (h' : TicksSince calls owner' t' m') :
    owner' = owner ∧ t' = t ∧ m' = m := by
  induction calls using List.reverseRecOn generalizing m m' with
  | nil => exact absurd h not_ticksSince_nil
  | append_singleton calls call ih =>
    rw [ticksSince_concat_iff] at h h'
    rcases h with ⟨rfl, rfl⟩ | ⟨rfl, n, rfl, h⟩
    · rcases h' with ⟨hcall, rfl⟩ | ⟨hcall, _⟩
      · obtain ⟨rfl, rfl⟩ := Call.start.inj hcall
        exact ⟨rfl, rfl, rfl⟩
      · nomatch hcall
    · rcases h' with ⟨hcall, _⟩ | ⟨-, n', rfl, h'⟩
      · nomatch hcall
      · obtain ⟨howner, ht, rfl⟩ := ih h h'
        exact ⟨howner, ht, rfl⟩

/-- **Each tick after a start takes one second off it**, the last one ends it, and the ones after
that find nothing. -/
theorem tick_of_ticksSince (h : TicksSince calls owner t m) :
    (fresh.run calls).tick.2 =
      if m + 1 < t.duration then .counting (t.duration - (m + 1))
      else if m + 1 = t.duration then .expired owner t.defaultIndex.toNat
      else .idle := by
  by_cases hm : m < t.duration
  · have hrunning := (running_run_iff calls _).2 ⟨owner, t, m, h, hm, rfl⟩
    by_cases hmore : m + 1 < t.duration
    · rw [if_pos hmore, tick_of_more hrunning (by dsimp only; omega)]
      rfl
    · rw [if_neg hmore, if_pos (by omega), tick_of_last hrunning (by dsimp only; omega)]
  · rw [if_neg (by omega), if_neg (by omega), tick_eq_idle_iff]
    cases hrunning : (fresh.run calls).running with
    | none => rfl
    | some r =>
      obtain ⟨owner', t', m', h', hm', -⟩ := (running_run_iff calls r).1 hrunning
      obtain ⟨-, rfl, rfl⟩ := ticksSince_unique h h'
      exact absurd hm' hm

theorem remaining_run_pos (h : (fresh.run calls).isRunning = true) :
    0 < (fresh.run calls).remaining := by
  obtain ⟨r, hr⟩ := Option.isSome_iff_exists.1 h
  obtain ⟨owner, t, m, -, hm, rfl⟩ := (running_run_iff calls r).1 hr
  rw [remaining, hr]
  dsimp only
  omega

/-! ### Running out -/

/-- **Where a countdown runs out**: as many ticks after a start as it was given seconds, with
nothing but ticks between. -/
theorem expired_iff (calls : List Call) (k : Nat) (owner : String) (n : Nat) :
    (fresh.answers calls)[k]? = some (.ticked (.expired owner n)) ↔
      ∃ i t, calls[i]? = some (.start owner t) ∧ n = t.defaultIndex.toNat ∧ k = i + t.duration ∧
        ∀ j, i < j → j ≤ k → calls[j]? = some .tick := by
  have hlength {call : Call} (h : calls[k]? = some call) : k ≤ calls.length :=
    Nat.le_of_lt (List.getElem?_eq_some_iff.1 h).1
  rw [getElem?_answers, Option.map_eq_some_iff]
  constructor
  · rintro ⟨call, hcall, hanswer⟩
    cases call with
    | start _ _ => nomatch hanswer
    | cancel => nomatch hanswer
    | tick =>
      obtain ⟨r, hr, hlast, rfl, rfl⟩ := tick_eq_expired_iff.1 (Answer.ticked.inj hanswer)
      obtain ⟨owner, t, m, hsince, hm, rfl⟩ := (running_run_iff _ r).1 hr
      obtain ⟨i, hi, hstart, hticks⟩ := (ticksSince_take_iff (hlength hcall)).1 hsince
      dsimp only at hlast
      refine ⟨i, t, hstart, rfl, by omega, fun j hij hjk => ?_⟩
      rcases Nat.lt_or_eq_of_le hjk with hlt | rfl
      · exact hticks j hij hlt
      · exact hcall
  · rintro ⟨i, t, hstart, rfl, rfl, hticks⟩
    have hpos := t.duration_pos
    have htick := hticks (i + t.duration) (by omega) (Nat.le_refl _)
    have hsince : TicksSince (calls.take (i + t.duration)) owner t (t.duration - 1) :=
      (ticksSince_take_iff (hlength htick)).2
        ⟨i, by omega, hstart, fun j hij hjk => hticks j hij (by omega)⟩
    have hlast : t.duration - 1 + 1 = t.duration := by omega
    have hanswer := tick_of_ticksSince hsince
    rw [hlast, if_neg (Nat.lt_irrefl _), if_pos rfl] at hanswer
    exact ⟨.tick, htick, congrArg Answer.ticked hanswer⟩

theorem exists_start_between {k k' : Nat} {owner owner' : String} {n n' : Nat} (hlt : k < k')
    (h : (fresh.answers calls)[k]? = some (.ticked (.expired owner n)))
    (h' : (fresh.answers calls)[k']? = some (.ticked (.expired owner' n'))) :
    ∃ j t, k < j ∧ j < k' ∧ calls[j]? = some (.start owner' t) := by
  obtain ⟨i, t, hstart, -, hk, hticks⟩ := (expired_iff calls k owner n).1 h
  obtain ⟨i', t', hstart', -, hk', hticks'⟩ := (expired_iff calls k' owner' n').1 h'
  have hpos := t'.duration_pos
  refine ⟨i', t', ?_, by omega, hstart'⟩
  apply Nat.lt_of_not_le
  intro hle
  -- the start of either expiry would be a tick of the other
  rcases Nat.lt_trichotomy i i' with hi | rfl | hi
  · rw [hticks i' hi hle] at hstart'
    nomatch hstart'
  · obtain ⟨-, rfl⟩ := Call.start.inj (Option.some.inj (hstart.symm.trans hstart'))
    omega
  · rw [hticks' i hi (by omega)] at hstart
    nomatch hstart

/-- **A countdown counts exactly**, whatever has been done with it.  The epoch is the number of
starts, something is left just while it runs, a tick is idle just when nothing runs and then
changes nothing, and a cancel tells whether something ran and discards it.  A start forgets what was
before it, and the ticks after it count its seconds down to the expiry.  So a countdown runs out
just as many ticks after a start as it was given seconds, with nothing but ticks between, and once
for each start at most. -/
theorem counts_exactly (calls : List Call) :
    (fresh.run calls).epoch = calls.countP Call.isStart ∧
      ((fresh.run calls).isRunning = true ↔ 0 < (fresh.run calls).remaining) ∧
      ((fresh.run calls).tick.2 = .idle ↔ (fresh.run calls).isRunning = false) ∧
      ((fresh.run calls).isRunning = false → (fresh.run calls).tick.1 = fresh.run calls) ∧
      (((fresh.run calls).perform .cancel).2 = .cancelled true ↔
        (fresh.run calls).isRunning = true) ∧
      (fresh.run (calls ++ [.cancel])).running = none ∧
      (∀ (owner : String) (t : TimedChoices),
        t.duration = (if t.time = 0 then 5 else t.time.toNat) ∧
          (fresh.run (calls ++ [.start owner t])).running =
            some ⟨owner, t.duration, t.defaultIndex.toNat⟩ ∧
          ∀ j, (fresh.run (calls ++ .start owner t :: List.replicate j .tick)).tick.2 =
            if j + 1 < t.duration then .counting (t.duration - (j + 1))
            else if j + 1 = t.duration then .expired owner t.defaultIndex.toNat
            else .idle) ∧
      (∀ (k : Nat) (owner : String) (n : Nat),
        (fresh.answers calls)[k]? = some (.ticked (.expired owner n)) ↔
          ∃ i t, calls[i]? = some (.start owner t) ∧ n = t.defaultIndex.toNat ∧
            k = i + t.duration ∧ ∀ j, i < j → j ≤ k → calls[j]? = some .tick) ∧
      (∀ (k k' : Nat) (owner owner' : String) (n n' : Nat), k < k' →
        (fresh.answers calls)[k]? = some (.ticked (.expired owner n)) →
        (fresh.answers calls)[k']? = some (.ticked (.expired owner' n')) →
        ∃ j t, k < j ∧ j < k' ∧ calls[j]? = some (.start owner' t)) := by
  refine ⟨epoch_run calls, ?remaining, ?idle, ?unchanged, ?cancel, ?discarded, ?started,
    expired_iff calls, fun k k' owner owner' n n' => exists_start_between⟩
  case remaining =>
    refine ⟨remaining_run_pos, fun hpos => ?_⟩
    rw [isRunning]
    unfold remaining at hpos
    cases hrunning : (fresh.run calls).running with
    | none => simp [hrunning] at hpos
    | some r => rfl
  case idle => rw [tick_eq_idle_iff, isRunning_eq_false_iff]
  case unchanged =>
    intro hidle
    rw [tick_of_idle (isRunning_eq_false_iff.1 hidle)]
  case cancel => rw [perform, Answer.cancelled.injEq]
  case discarded =>
    rw [run_concat]
    rfl
  case started =>
    intro owner t
    refine ⟨rfl, ?_, fun j => tick_of_ticksSince ⟨calls, rfl⟩⟩
    rw [run_concat]
    rfl

end Gamebook.Countdown
