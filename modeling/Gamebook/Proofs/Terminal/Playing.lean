import Gamebook.Proofs.Session.Expiry
import Gamebook.Proofs.Terminal.Ending
import Mathlib.Logic.Relation

/-!
# A play is one at a table

What is done with a play by starting it, letting time pass and typing (`Played`) is a run of a
table: each of these is a number of steps (`Table.Open.pass`, `Table.Open.takeLines`,
`Table.Open.endInput`), and what was typed up to now leaves open what is typed later
(`Table.Follows`, `Played.follows`).  So a play ends as every run of its table does
(`terminal_shows_all`).
-/

namespace Gamebook

/-! ### Lines -/

namespace Play

theorem splitLines_append (bytes more : List UInt8) :
    splitLines (bytes ++ more) =
      ((splitLines bytes).1 ++ (splitLines ((splitLines bytes).2 ++ more)).1,
        (splitLines ((splitLines bytes).2 ++ more)).2) := by
  induction bytes with
  | nil => rfl
  | cons b bytes ih =>
    rw [List.cons_append, splitLines, splitLines, ih]
    by_cases hbreak : b = 10
    · simp only [hbreak, if_true, List.cons_append]
    · simp only [hbreak, if_false]
      cases hlines : (splitLines bytes).1 with
      | nil =>
        simp only [List.nil_append, List.cons_append]
        rw [splitLines]
        simp only [hbreak, if_false]
      | cons line lines => rfl

/-- The lines of all that was typed, a last one without a break among them. -/
def allLines (bytes : List UInt8) : List (List UInt8) :=
  (splitLines bytes).1 ++ if (splitLines bytes).2.isEmpty then [] else [(splitLines bytes).2]

theorem showAll_cons {p : Play} (hended : p.ended = none) (u : Update) (updates : List Update) :
    p.showAll (u :: updates) = (p.showUpdate u).showAll updates := by
  rw [showAll, hended]
  rfl

theorem showAll_eq {p : Play} (hroom : p.room = none) (hended : p.ended = none)
    (updates : List Update) : ∃ current drawn, p.showAll updates = { p with current, drawn } := by
  induction updates generalizing p with
  | nil => exact ⟨p.current, p.drawn, rfl⟩
  | cons u updates ih =>
    obtain ⟨more, hshow, -⟩ := showUpdate_eq hroom u
    rw [showAll_cons hended, hshow]
    exact ih hroom hended

theorem start_eq {w : Surroundings} {settings : Settings} {session : Session}
    (hload : Session.initial.load w.toOutside settings.startBook = (session, .ok ()))
    (room : Option Nat) (now : Nat) :
    Play.start w settings room now = .ok
      ({ loop := (Loop.start session settings.tickMillis now).1, current := none, typed := [],
          drawn := [], room, ended := none : Play }.showAll
        (Loop.start session settings.tickMillis now).2) := by
  unfold start
  rw [hload]
  rfl

end Play

namespace Table

/-- From one table to another in any number of steps, with room for all that is sent. -/
abbrev Steps : Table → Table → Prop := Relation.ReflTransGen (Step none)

/-- The play at a table is like `p`, from which `out` was taken before. -/
structure Plays (t : Table) (p : Play) (out : String) : Prop where
  loop : t.play.loop = p.loop
  current : t.play.current = p.current
  room : t.play.room = none
  noLimit : p.room = none
  ended : t.play.ended = p.ended
  output : String.join t.play.drawn.reverse = out ++ String.join p.drawn.reverse

/-- From one table to another without a line being taken. -/
structure Onward (t t' : Table) : Prop where
  steps : Steps t t'
  lines : t'.lines = t.lines
  left : t'.left = t.left

theorem Onward.trans {t t' t'' : Table} (h : Onward t t') (h' : Onward t' t'') : Onward t t'' :=
  ⟨h.steps.trans h'.steps, h'.lines.trans h.lines, h'.left.trans h.left⟩

variable {t : Table} {p : Play} {out : String}

theorem Plays.display (h : Plays t p out) (u : Update) (rest : List Update) :
    Plays (t.display u rest) (p.showUpdate u) out := by
  obtain ⟨more, hshow, hmore⟩ := Play.showUpdate_eq h.room u
  obtain ⟨more', hshow', hmore'⟩ := Play.showUpdate_eq h.noLimit u
  rw [Table.display, hshow, hshow']
  exact
    { loop := h.loop
      current := congrArg ((Taken.update u).view?.or ·) h.current
      room := h.room
      noLimit := h.noLimit
      ended := h.ended
      output := by
        rw [List.reverse_append, List.reverse_reverse, String.join_append, h.output,
          List.reverse_append, List.reverse_reverse, String.join_append, hmore, hmore', h.current,
          String.append_assoc] }

theorem Plays.showAll (h : Plays t p out) (hended : p.ended = none) {updates rest : List Update}
    (hcoming : t.coming = updates ++ rest)
    (hturn : t.left = true → t.play.loop.running = false) :
    ∃ t', Onward t t' ∧ Plays t' (p.showAll updates) out ∧ t'.coming = rest ∧ t'.now = t.now := by
  induction updates generalizing t p with
  | nil => exact ⟨t, ⟨.refl, rfl, rfl⟩, h, hcoming, rfl⟩
  | cons u updates ih =>
    obtain ⟨more, hshow, -⟩ := Play.showUpdate_eq h.noLimit u
    have hdisplay := h.display u (updates ++ rest)
    have hloop : (t.display u (updates ++ rest)).play.loop = t.play.loop := by
      rw [hdisplay.loop, hshow, h.loop]
    have hstep : Step none t (t.display u (updates ++ rest)) := .display hcoming hturn
    obtain ⟨t', honward, hplays, hrest, hnow⟩ :=
      ih hdisplay (by rw [hshow]; exact hended) rfl (hloop ▸ hturn)
    rw [Play.showAll_cons hended]
    exact ⟨t', .trans ⟨.single hstep, rfl, rfl⟩ honward, hplays, hrest, hnow⟩

theorem Plays.moves (h : Plays t p out) (w : Surroundings) (limit : Option Nat) (fuel : Nat)
    {now : Nat} (hnow : t.now ≤ now) :
    ∃ t', Onward t t' ∧ Plays t' { p with loop := (p.loop.moves w limit fuel now).1 } out ∧
      t'.coming = t.coming ++ (p.loop.moves w limit fuel now).2 ∧
      (t'.now ≤ now ∨ ∀ bound, limit = some bound → t'.now < bound) := by
  induction fuel generalizing t p now with
  | zero => exact ⟨t, ⟨.refl, rfl, rfl⟩, h, (List.append_nil _).symm, Or.inl hnow⟩
  | succ fuel ih =>
    rw [Loop.moves]
    cases hnext : p.loop.next? now with
    | none => exact ⟨t, ⟨.refl, rfl, rfl⟩, h, (List.append_nil _).symm, Or.inl hnow⟩
    | some next =>
      obtain ⟨time, m⟩ := next
      dsimp only
      split <;> rename_i hlimit
      · exact ⟨t, ⟨.refl, rfl, rfl⟩, h, (List.append_nil _).symm, Or.inl hnow⟩
      · have hstep : Step none t (t.move w time m) :=
          .move w hnow (by rw [h.loop]; exact hnext)
        have hmoved : Plays (t.move w time m) { p with loop := (p.loop.move w time m).1 } out := by
          rw [Table.move, h.loop]
          exact { h with loop := rfl }
        obtain ⟨t', honward, hplays, hcoming, hbound⟩ := ih hmoved (Nat.le_refl time)
        refine ⟨t', .trans ⟨.single hstep, rfl, rfl⟩ honward, hplays, ?_, Or.inr ?_⟩
        · rw [hcoming, Table.move, h.loop, List.append_assoc]
        · intro bound hlimited
          have htime : time < bound := by simpa [hlimited] using hlimit
          exact hbound.elim (fun hle => Nat.lt_of_le_of_lt hle htime) fun hlt => hlt bound hlimited

theorem Plays.movesShown (h : Plays t p out) (hended : p.ended = none) (hcoming : t.coming = [])
    (w : Surroundings) (limit : Option Nat) (fuel : Nat) {now : Nat} (hnow : t.now ≤ now)
    (hturn : t.left = true → (p.loop.moves w limit fuel now).1.running = false) :
    ∃ t' current drawn, Onward t t' ∧ t'.coming = [] ∧
      (t'.now ≤ now ∨ ∀ bound, limit = some bound → t'.now < bound) ∧
      Plays t' { p with loop := (p.loop.moves w limit fuel now).1, current, drawn } out ∧
      { p with loop := (p.loop.moves w limit fuel now).1 }.showAll
          (p.loop.moves w limit fuel now).2 =
        { p with loop := (p.loop.moves w limit fuel now).1, current, drawn } := by
  obtain ⟨t₁, honward, hmoved, htold, hbound⟩ := h.moves w limit fuel hnow
  rw [hcoming, List.nil_append] at htold
  obtain ⟨t₂, honward', hshown, hrest, hnow'⟩ := hmoved.showAll hended
    (htold.trans (List.append_nil _).symm) fun hleft => by
      rw [hmoved.loop]
      exact hturn (honward.left ▸ hleft)
  obtain ⟨current, drawn, heq⟩ := Play.showAll_eq
    (p := { p with loop := (p.loop.moves w limit fuel now).1 }) h.noLimit hended
    (p.loop.moves w limit fuel now).2
  rw [heq] at hshown
  exact ⟨t₂, current, drawn, honward.trans honward', hrest, by rwa [hnow'], hshown, heq⟩

/-- The play `p` goes on at the table at the time `now`, with `rest` still to be taken. -/
structure Open (t : Table) (p : Play) (out : String) (now : Nat) (rest : List (List UInt8)) :
    Prop extends Plays t p out where
  coming : t.coming = []
  left : t.left = false
  lines : t.lines = rest
  now_le : t.now ≤ now
  notEnded : p.ended = none

/-- The play goes on as `p'`, with the same start of a line, or has ended well as that. -/
def Becomes (t : Table) (p p' : Play) (out : String) (now : Nat) (rest : List (List UInt8)) :
    Prop :=
  Open t p' out now rest ∧ p'.typed = p.typed ∨ Plays t p' out ∧ p'.ended = some (.ok ())

variable {now : Nat} {rest : List (List UInt8)} {session : Session} {period : Nat}

/-- **Letting time pass** is a matter of moves that are shown at once. -/
theorem Open.pass (h : Open t p out now rest) (w : Surroundings) {limit later : Nat}
    (hlater : now ≤ later) (hlimit : limit ≤ later + 1) :
    ∃ t', Steps t t' ∧ Open t' (p.pass w now limit) out later rest ∧
      (p.pass w now limit).typed = p.typed := by
  have hpass : p.pass w now limit =
      { p with loop := (p.loop.runUntil w now limit).1 }.showAll
        (p.loop.runUntil w now limit).2 := by
    rw [Play.pass, h.notEnded]
    rfl
  obtain ⟨t', current, drawn, honward, hcoming, hbound, hplays, heq⟩ :=
    h.movesShown h.notEnded h.coming w (some limit) (limit + 2 * p.loop.queue.length + 4) h.now_le
      fun hleft => absurd (h.left.symm.trans hleft) nofun
  rw [hpass, Loop.runUntil, heq]
  refine ⟨t', honward.steps, ?_, rfl⟩
  exact
    { hplays with
      coming := hcoming
      left := honward.left.trans h.left
      lines := honward.lines.trans h.lines
      now_le := hbound.elim (fun hle => Nat.le_trans hle hlater) fun hlt =>
        Nat.le_of_lt_succ (Nat.lt_of_lt_of_le (hlt limit rfl) hlimit)
      notEnded := h.notEnded }

/-- **Leaving** is a matter of moves to the end of the loop, and of showing what they tell. -/
theorem Open.leave (h : Open t p out now rest) (w : Surroundings)
    (hleave : Step none t t.leave) :
    ∃ t', Steps t t' ∧ Plays t' (p.leave w now) out ∧ (p.leave w now).ended = some (.ok ()) := by
  have hleft : Plays t.leave { p with loop := p.loop.close } out :=
    { h.toPlays with loop := congrArg Loop.close h.loop }
  have hstopped := p.loop.runToEnd_ended w now
  obtain ⟨t', current, drawn, honward, hcoming, -, hplays, heq⟩ :=
    hleft.movesShown h.notEnded h.coming w none (2 * p.loop.queue.length + 4) h.now_le
      fun _ => hstopped
  have hended : p.leave w now =
      { p with
        loop := (p.loop.runToEnd w now).1, current, drawn
        ended := some (.ok ()) } := by
    unfold Play.leave Loop.runToEnd
    dsimp only
    rw [heq]
    exact if_neg (by simp [h.notEnded])
  have hfinish : Step none t' t'.finish :=
    .finish honward.left (hplays.loop ▸ hstopped) hcoming (hplays.ended.trans h.notEnded)
  rw [hended]
  exact ⟨t'.finish, .head hleave (honward.steps.tail hfinish), { hplays with ended := rfl }, rfl⟩

theorem Open.hasChoices (h : Open t p out now rest) : t.play.hasChoices = p.hasChoices :=
  congrArg menuOf h.current

/-- **Taking a line** is one step, and leaving if the line says so. -/
theorem Open.takeLine {line : List UInt8} (h : Open t p out now (line :: rest)) (w : Surroundings)
    {text : String} (htext : Text.decodeUtf8 line = .ok text) :
    ∃ t', Steps t t' ∧ Becomes t' p (p.takeLine w now line) out now rest := by
  unfold Play.takeLine
  rw [htext]
  dsimp only
  cases hparse : Command.parse text p.hasChoices with
  | input i =>
    have hstep : Step none t (t.send text rest i) :=
      .send h.left h.lines htext (h.hasChoices ▸ hparse) nofun
    refine ⟨_, .single hstep, Or.inl ⟨?_, rfl⟩⟩
    exact
      { h with
        loop := congrArg (fun l => (Loop.send i l).1) h.loop
        lines := rfl }
  | unknown =>
    have hstep : Step none t (t.help text rest) :=
      .help h.left h.lines htext (h.hasChoices ▸ hparse)
    refine ⟨_, .single hstep, Or.inl ⟨?_, ?_⟩⟩
    · rw [Table.help, Play.write_eq h.room, Play.write_eq h.noLimit]
      exact
        { h with
          output := by
            simp only [List.reverse_append, List.reverse_reverse, String.join_append, h.output,
              String.append_assoc]
          lines := rfl }
    · rw [Play.write_eq h.noLimit]
  | quit =>
    obtain ⟨t', hsteps, hplays, hended⟩ :=
      h.leave w (.quit h.left h.lines htext (h.hasChoices ▸ hparse))
    exact ⟨t', hsteps, Or.inr ⟨hplays, hended⟩⟩

theorem Open.takeLines {lines : List (List UInt8)} (h : Open t p out now (lines ++ rest))
    (w : Surroundings) (hlines : ∀ line ∈ lines, ∃ text, Text.decodeUtf8 line = .ok text) :
    ∃ t', Steps t t' ∧ Becomes t' p (p.takeLines w now lines) out now rest := by
  induction lines generalizing t p with
  | nil => exact ⟨t, .refl, Or.inl ⟨h, rfl⟩⟩
  | cons line lines ih =>
    obtain ⟨text, htext⟩ := hlines line (List.mem_cons_self ..)
    obtain ⟨t₁, hsteps, hbecomes⟩ := Open.takeLine h w htext
    have htake : p.takeLines w now (line :: lines) =
        (p.takeLine w now line).takeLines w now lines := by
      rw [Play.takeLines, h.notEnded]
      rfl
    rw [htake]
    rcases hbecomes with ⟨hopen, htyped⟩ | ⟨hplays, hended⟩
    · obtain ⟨t₂, hsteps', hbecomes'⟩ := ih hopen fun l hl => hlines l (List.mem_cons_of_mem _ hl)
      exact ⟨t₂, hsteps.trans hsteps', by rwa [Becomes, htyped] at hbecomes'⟩
    · have hstays : (p.takeLine w now line).takeLines w now lines = p.takeLine w now line := by
        cases lines with
        | nil => rfl
        | cons l lines => rw [Play.takeLines, hended]; rfl
      rw [hstays]
      exact ⟨t₁, hsteps, Or.inr ⟨hplays, hended⟩⟩

theorem Open.wait (h : Open t p out now rest) {later : Nat} (hlater : now ≤ later) :
    Open t p out later rest :=
  { h with now_le := Nat.le_trans h.now_le hlater }

/-- **The end of what is typed** ends the play well. -/
theorem Open.endInput (h : Open t p out now (if p.typed.isEmpty then [] else [p.typed]))
    (w : Surroundings)
    (htyped : p.typed.isEmpty = false → ∃ text, Text.decodeUtf8 p.typed = .ok text) :
    ∃ t', Steps t t' ∧ Plays t' (p.endInput w now) out ∧
      (p.endInput w now).ended = some (.ok ()) := by
  have hgoes : ¬p.ended.isSome = true := by simp [h.notEnded]
  rw [Play.endInput, if_neg hgoes]
  dsimp only
  cases hempty : p.typed.isEmpty with
  | true =>
    rw [hempty, if_pos rfl] at h
    rw [if_pos rfl, if_neg hgoes]
    exact h.leave w (.endInput h.left h.lines)
  | false =>
    obtain ⟨text, htext⟩ := htyped hempty
    rw [hempty, if_neg Bool.false_ne_true] at h
    rw [if_neg Bool.false_ne_true]
    have hnext : Open t { p with typed := [] } out now [p.typed] := { h with }
    obtain ⟨t₁, hsteps, ⟨hopen, -⟩ | ⟨hplays, hended⟩⟩ := hnext.takeLine w htext
    · rw [hopen.notEnded, Option.isSome_none, if_neg Bool.false_ne_true]
      obtain ⟨t₂, hsteps', hleft⟩ := hopen.leave w (.endInput hopen.left hopen.lines)
      exact ⟨t₂, hsteps.trans hsteps', hleft⟩
    · rw [hended, Option.isSome_some, if_pos rfl]
      exact ⟨t₁, hsteps, hplays, hended⟩

end Table

/-! ### What can be done with a play -/

/-- A play that was started at the time `began`, where `bytes` were typed and `out` was taken up to
the time `now`. -/
inductive Played (w : Surroundings) (settings : Settings) (began : Nat) :
    List UInt8 → String → Nat → Play → Prop
  | start {p : Play} (hstart : Play.start w settings none began = .ok p) :
      Played w settings began [] "" began p
  | pass {bytes : List UInt8} {out : String} {now : Nat} {p : Play} {start limit later : Nat}
      (w' : Surroundings) (h : Played w settings began bytes out now p) (hstart : now ≤ start)
      (hlater : start ≤ later) (hlimit : limit ≤ later + 1) :
      Played w settings began bytes out later (p.pass w' start limit)
  | type {bytes : List UInt8} {out : String} {now : Nat} {p : Play} {later : Nat}
      (w' : Surroundings) (h : Played w settings began bytes out now p) (hlater : now ≤ later)
      (more : List UInt8) :
      Played w settings began (bytes ++ more) out later (p.type w' later more)
  | takeOutput {bytes : List UInt8} {out : String} {now : Nat} {p : Play}
      (h : Played w settings began bytes out now p) :
      Played w settings began bytes (out ++ p.takeOutput.2) now p.takeOutput.1

namespace Table

variable {session : Session} {period began : Nat} {bytes : List UInt8} {out : String} {now : Nat}
  {p : Play}

/-- The play is one that has come about at a table with the lines that were typed to their ends,
whatever other lines come after them. -/
def Follows (session : Session) (period began : Nat) (bytes : List UInt8) (out : String)
    (now : Nat) (p : Play) : Prop :=
  ∀ rest, ∃ t, Steps (start session period began ((Play.splitLines bytes).1 ++ rest)) t ∧
    (Open t p out now rest ∧ p.typed = (Play.splitLines bytes).2 ∨
      Plays t p out ∧ p.ended = some (.ok ()))

theorem follows_start {w : Surroundings} {settings : Settings}
    (hload : Session.initial.load w.toOutside settings.startBook = (session, .ok ()))
    (hstart : Play.start w settings none began = .ok p) :
    Follows session settings.tickMillis began [] "" began p := by
  intro rest
  rw [Play.start_eq hload, Except.ok.injEq] at hstart
  subst hstart
  have hplays : Plays (start session settings.tickMillis began rest)
      { loop := (Loop.start session settings.tickMillis began).1, current := none, typed := [],
        drawn := [], room := none, ended := none } "" :=
    { loop := rfl, current := rfl, room := rfl, noLimit := rfl, ended := rfl, output := rfl }
  obtain ⟨t, honward, hshown, hcoming, hnow⟩ :=
    hplays.showAll rfl (List.append_nil _).symm nofun
  obtain ⟨current, drawn, heq⟩ := Play.showAll_eq hplays.noLimit rfl
    (Loop.start session settings.tickMillis began).2
  refine ⟨t, honward.steps, Or.inl ⟨?_, by rw [heq]; rfl⟩⟩
  exact
    { hshown with
      coming := hcoming
      left := honward.left
      lines := honward.lines
      now_le := Nat.le_of_eq hnow
      notEnded := by rw [heq] }

theorem Follows.pass (h : Follows session period began bytes out now p) (w : Surroundings)
    {start limit later : Nat} (hstart : now ≤ start) (hlater : start ≤ later)
    (hlimit : limit ≤ later + 1) :
    Follows session period began bytes out later (p.pass w start limit) := by
  intro rest
  obtain ⟨t, hsteps, ⟨hopen, htyped⟩ | ⟨hplays, hended⟩⟩ := h rest
  · obtain ⟨t', hsteps', hopen', hsame⟩ := (hopen.wait hstart).pass w hlater hlimit
    exact ⟨t', hsteps.trans hsteps', Or.inl ⟨hopen', hsame.trans htyped⟩⟩
  · have hsame : p.pass w start limit = p := by
      rw [Play.pass, hended]
      rfl
    rw [hsame]
    exact ⟨t, hsteps, Or.inr ⟨hplays, hended⟩⟩

theorem Follows.type (h : Follows session period began bytes out now p) (w : Surroundings)
    {later : Nat} (hlater : now ≤ later) (more : List UInt8)
    (hlines : ∀ line ∈ (Play.splitLines (bytes ++ more)).1,
      ∃ text, Text.decodeUtf8 line = .ok text) :
    Follows session period began (bytes ++ more) out later (p.type w later more) := by
  intro rest
  rw [Play.splitLines_append] at hlines ⊢
  rw [List.append_assoc]
  obtain ⟨t, hsteps, ⟨hopen, htyped⟩ | ⟨hplays, hended⟩⟩ :=
    h ((Play.splitLines ((Play.splitLines bytes).2 ++ more)).1 ++ rest)
  · have hgoes : ¬p.ended.isSome = true := by simp [hopen.notEnded]
    rw [Play.type, if_neg hgoes, htyped]
    dsimp only
    have hnext : Open t { p with typed := (Play.splitLines ((Play.splitLines bytes).2 ++ more)).2 }
        out later ((Play.splitLines ((Play.splitLines bytes).2 ++ more)).1 ++ rest) :=
      { hopen.wait hlater with }
    obtain ⟨t', hsteps', hbecomes⟩ := hnext.takeLines w fun line hline =>
      hlines line (List.mem_append_right _ hline)
    exact ⟨t', hsteps.trans hsteps', hbecomes⟩
  · have hsame : p.type w later more = p := by
      rw [Play.type, hended]
      rfl
    rw [hsame]
    exact ⟨t, hsteps, Or.inr ⟨hplays, hended⟩⟩

theorem Plays.takeOutput {t : Table} (h : Plays t p out) :
    Plays t p.takeOutput.1 (out ++ p.takeOutput.2) :=
  { h with output := h.output.trans (String.append_empty).symm }

theorem Follows.takeOutput (h : Follows session period began bytes out now p) :
    Follows session period began bytes (out ++ p.takeOutput.2) now p.takeOutput.1 := by
  intro rest
  obtain ⟨t, hsteps, ⟨hopen, htyped⟩ | ⟨hplays, hended⟩⟩ := h rest
  · exact ⟨t, hsteps, Or.inl ⟨{ hopen with toPlays := hopen.toPlays.takeOutput }, htyped⟩⟩
  · exact ⟨t, hsteps, Or.inr ⟨hplays.takeOutput, hended⟩⟩

theorem Follows.endInput (h : Follows session period began bytes out now p) (w : Surroundings)
    {later : Nat} (hlater : now ≤ later)
    (hlines : ∀ line ∈ Play.allLines bytes, ∃ text, Text.decodeUtf8 line = .ok text) :
    ∃ t, Steps (start session period began (Play.allLines bytes)) t ∧
      Plays t (p.endInput w later) out ∧ (p.endInput w later).ended = some (.ok ()) := by
  obtain ⟨t, hsteps, ⟨hopen, htyped⟩ | ⟨hplays, hended⟩⟩ :=
    h (if (Play.splitLines bytes).2.isEmpty then [] else [(Play.splitLines bytes).2])
  · rw [← htyped] at hopen
    obtain ⟨t', hsteps', hend⟩ := (hopen.wait hlater).endInput w fun hmore =>
      hlines p.typed (by simp [Play.allLines, ← htyped, hmore])
    exact ⟨t', hsteps.trans hsteps', hend⟩
  · have hsame : p.endInput w later = p := by
      rw [Play.endInput, hended]
      rfl
    rw [hsame]
    exact ⟨t, hsteps, hplays, hended⟩

end Table

/-- **A play is one at a table.** -/
theorem Played.follows {w : Surroundings} {settings : Settings} {session : Session} {began : Nat}
    (hload : Session.initial.load w.toOutside settings.startBook = (session, .ok ()))
    {bytes : List UInt8} {out : String} {now : Nat} {p : Play}
    (h : Played w settings began bytes out now p)
    (hlines : ∀ line ∈ (Play.splitLines bytes).1, ∃ text, Text.decodeUtf8 line = .ok text) :
    Table.Follows session settings.tickMillis began bytes out now p := by
  induction h with
  | start hstart => exact Table.follows_start hload hstart
  | pass w' _ hstart hlater hlimit ih => exact (ih hlines).pass w' hstart hlater hlimit
  | takeOutput _ ih => exact (ih hlines).takeOutput
  | type w' _ hlater more ih =>
    refine (ih fun line hline => hlines line ?_).type w' hlater more hlines
    rw [Play.splitLines_append]
    exact List.mem_append_left _ hline

theorem Table.Kept.steps {session : Session} {period : Nat} {texts : List String} {t t' : Table}
    (h : Kept session period texts t) (hsteps : Steps t t') : Kept session period texts t' := by
  induction hsteps with
  | refl => exact h
  | tail _ hstep ih => exact ih.step hstep

/-- Where the start book loads, a play starts.  Whatever order updates and lines are then taken in,
and however few inputs the queue holds, it comes to its end with all that was published shown and
all that was typed carried out.  A play that is started, passed and typed to comes to that end
too. -/
theorem terminal_shows_all {w : Surroundings} {settings : Settings} {session : Session}
    (hload : Session.initial.load w.toOutside settings.startBook = (session, .ok ())) (began : Nat)
    {limit : Option Nat} (hlimit : limit ≠ some 0) {bytes : List UInt8} {texts : List String}
    (hlines : Spelled (Play.allLines bytes) texts) :
    (∃ p, Play.start w settings none began = .ok p) ∧
    EndsIn (Table.Step limit) (Table.Complete session texts)
      (Table.start session settings.tickMillis began (Play.allLines bytes)) ∧
    ∀ {out : String} {now : Nat} {p : Play}, Played w settings began bytes out now p →
      ∀ (w' : Surroundings) {later : Nat}, now ≤ later →
        (p.endInput w' later).ended = some (.ok ()) ∧
        ∃ t, Table.Steps
            (Table.start session settings.tickMillis began (Play.allLines bytes)) t ∧
          Table.Complete session texts t ∧ t.play.loop = (p.endInput w' later).loop ∧
          Taken.output t.taken = out ++ (p.endInput w' later).takeOutput.2 := by
  refine ⟨⟨_, Play.start_eq hload none began⟩, Table.endsIn_complete _ _ _ hlimit hlines, ?_⟩
  intro out now p hplayed w' later hlater
  have hdecoded : ∀ line ∈ Play.allLines bytes, ∃ text, Text.decodeUtf8 line = .ok text := by
    intro line hline
    obtain ⟨i, hi, rfl⟩ := List.mem_iff_getElem.1 hline
    exact ⟨_, hlines.get hi (hlines.length_eq ▸ hi)⟩
  have hfollows := hplayed.follows hload fun line hline =>
    hdecoded line (List.mem_append_left _ hline)
  obtain ⟨t, hsteps, hplays, hended⟩ := hfollows.endInput w' hlater hdecoded
  have hkept := (Table.Kept.start session settings.tickMillis began hlines).steps hsteps
  have hcomplete := Table.complete_of_ended hkept (by rw [hplays.ended, hended]; nofun)
  exact ⟨hended, t, hsteps, hcomplete, hplays.loop, hcomplete.output.symm.trans hplays.output⟩

/-- Where the book of the door is found at once. -/
def doorstep : Surroundings := { atDoor with delay := fun _ _ => 0 }

/-- A player who turns a page at the door and leaves. -/
theorem terminal_shows_all_at_door :
    let session := (Session.initial.load atDoor "door.yaml").1
    let bytes : List UInt8 := [10, 113, 10, 10]
    ∃ p, Play.start doorstep ⟨"books", "door.yaml", 1000⟩ none 0 = .ok p ∧
      ((p.type doorstep 0 bytes).endInput doorstep 0).ended = some (.ok ()) ∧
      EndsIn (Table.Step (some 16)) (Table.Complete session ["\n", "q\n", "\n"])
        (Table.start session 1000 0 [[10], [113, 10], [10]]) := by
  intro session bytes
  have hload : Session.initial.load doorstep.toOutside "door.yaml" = (session, .ok ()) :=
    Prod.ext rfl (by decide +kernel)
  have hlines : Spelled (Play.allLines bytes) ["\n", "q\n", "\n"] :=
    .cons rfl (.cons rfl (.cons rfl .nil))
  obtain ⟨⟨p, hstart⟩, hends, hplayed⟩ :=
    @terminal_shows_all doorstep ⟨"books", "door.yaml", 1000⟩ session hload 0 (some 16) nofun bytes
      _ hlines
  refine ⟨p, hstart, ?_, hends⟩
  exact (hplayed (.type doorstep (.start hstart) (Nat.le_refl 0) bytes) doorstep
    (Nat.le_refl 0)).1

end Gamebook
