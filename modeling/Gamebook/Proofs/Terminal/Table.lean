import Gamebook.Proofs.Loop.Sequential
import Gamebook.Proofs.Terminal.Shown
import Mathlib.Data.List.Forall2

/-!
# A player, a loop, and what goes between them

The play and its loop go on by themselves, and what one sends the other may be on its way for any
time.  A table holds both, what is on its way and what has happened (`Table`), and `Table.Step` is
all that can happen next.  Every step keeps (`Table.Kept.step`) that the loop has run as loops do
(`Loop.Run`), that what was sent is what the lines said, that what was shown and what is on its way
is what was published, and that all was written that is written for what was taken
(`Taken.output`).  Which lines say to leave does not depend on what is shown (`saysQuit_iff`).
-/

namespace Gamebook

/-- The input that a command gives, if it gives one. -/
def Command.input? : Command → Option Input
  | input i => some i
  | _ => none

theorem Command.ofNumber_ne_quit (menu : Bool) (n : Nat) : ofNumber menu n ≠ quit := by
  unfold ofNumber
  split
  · nofun
  · split <;> nofun

theorem Command.parse_eq_quit_iff (text : String) (menu : Bool) :
    parse text menu = .quit ↔ Text.trim text = "q" ∨ Text.trim text = "quit" := by
  unfold parse
  dsimp only
  by_cases hquit : Text.trim text = "q" ∨ Text.trim text = "quit"
  · rcases hquit with h | h <;> simp [h]
  · rw [not_or] at hquit
    simp only [hquit, decide_false, Bool.or_self, Bool.false_eq_true, if_false, or_self, iff_false]
    split
    · nofun
    split
    · nofun
    split
    · nofun
    split
    · nofun
    · nofun
    · split
      · exact ofNumber_ne_quit menu _
      · nofun

/-- Whether a line says to leave. -/
def saysQuit (text : String) : Bool := Command.parse text false = .quit

/-- Which lines say so does not depend on what is shown. -/
theorem saysQuit_iff (text : String) (menu : Bool) :
    saysQuit text = true ↔ Command.parse text menu = .quit := by
  rw [saysQuit, decide_eq_true_iff, Command.parse_eq_quit_iff, Command.parse_eq_quit_iff]

/-- The lines are the bytes of these texts. -/
abbrev Spelled (lines : List (List UInt8)) (texts : List String) : Prop :=
  List.Forall₂ (fun line text => Text.decodeUtf8 line = .ok text) lines texts

/-! ### The table -/

/-- A play and its loop, with what is on its way between them and what has happened so far. -/
structure Table where
  play : Play
  now : Nat
  /-- What the loop has published and the play has not shown. -/
  coming : List Update
  /-- The lines that are typed and not taken. -/
  lines : List (List UInt8)
  /-- Whether the play takes no more lines. -/
  left : Bool
  /-- All that has happened to the loop. -/
  past : Past
  /-- All that the play has taken. -/
  taken : List Taken

namespace Table

/-- A player sits down in front of a loop that was started around a session. -/
def start (session : Session) (period now : Nat) (lines : List (List UInt8)) : Table where
  play :=
    { loop := (Loop.start session period now).1, current := none, typed := [], drawn := [],
      room := none, ended := none }
  now
  coming := (Loop.start session period now).2
  lines
  left := false
  past := (Loop.start session period now).2.map .told
  taken := []

/-- The loop makes a move that is due, and publishes what it tells. -/
def move (t : Table) (w : Surroundings) (time : Nat) (m : Loop.Move) : Table :=
  { t with
    play := { t.play with loop := (t.play.loop.move w time m).1 }
    now := time
    coming := t.coming ++ (t.play.loop.move w time m).2
    past := t.past ++ t.play.loop.seen w time m }

/-- The play shows the update that was published first. -/
def display (t : Table) (u : Update) (rest : List Update) : Table :=
  { t with play := t.play.showUpdate u, coming := rest, taken := t.taken ++ [.update u] }

/-- The play sends an input that was typed. -/
def send (t : Table) (text : String) (rest : List (List UInt8)) (i : Input) : Table :=
  { t with
    play := { t.play with loop := (t.play.loop.send i).1 }
    lines := rest
    past := t.past ++ if (t.play.loop.send i).2 then [.sent i] else []
    taken := t.taken ++ [.line text] }

/-- The play helps where no command was typed. -/
def help (t : Table) (text : String) (rest : List (List UInt8)) : Table :=
  { t with
    play := t.play.write [Command.help, "\n"]
    lines := rest
    taken := t.taken ++ [.line text] }

/-- The play takes no more lines and closes the queue. -/
def leave (t : Table) : Table :=
  { t with
    play := { t.play with loop := t.play.loop.close }
    left := true
    past := t.past ++ [.closed] }

def finish (t : Table) : Table := { t with play := { t.play with ended := some (.ok ()) } }

/-- Whether an input can be sent; without a limit it always can. -/
def HasRoom (limit : Option Nat) (t : Table) : Prop :=
  ∀ n, limit = some n → t.play.loop.queue.length < n

/-- What can happen next.  The loop moves when a move is due, or later.  The play takes updates and
lines in any order, each in their own, and waits with an input for room in the queue.  It leaves at
a line that says so or when all lines are taken, and then shows the rest once the loop has ended. -/
inductive Step (limit : Option Nat) : Table → Table → Prop
  | move {t : Table} {later time : Nat} {m : Loop.Move} (w : Surroundings) (hlater : t.now ≤ later)
      (hnext : t.play.loop.next? later = some (time, m)) : Step limit t (t.move w time m)
  | display {t : Table} {u : Update} {rest : List Update} (hcoming : t.coming = u :: rest)
      (hturn : t.left = true → t.play.loop.running = false) : Step limit t (t.display u rest)
  | send {t : Table} {line : List UInt8} {rest : List (List UInt8)} {text : String} {i : Input}
      (hopen : t.left = false) (hlines : t.lines = line :: rest)
      (htext : Text.decodeUtf8 line = .ok text)
      (hparse : Command.parse text t.play.hasChoices = .input i) (hroom : t.HasRoom limit) :
      Step limit t (t.send text rest i)
  | help {t : Table} {line : List UInt8} {rest : List (List UInt8)} {text : String}
      (hopen : t.left = false) (hlines : t.lines = line :: rest)
      (htext : Text.decodeUtf8 line = .ok text)
      (hparse : Command.parse text t.play.hasChoices = .unknown) :
      Step limit t (t.help text rest)
  | quit {t : Table} {line : List UInt8} {rest : List (List UInt8)} {text : String}
      (hopen : t.left = false) (hlines : t.lines = line :: rest)
      (htext : Text.decodeUtf8 line = .ok text)
      (hparse : Command.parse text t.play.hasChoices = .quit) : Step limit t t.leave
  | endInput {t : Table} (hopen : t.left = false) (hlines : t.lines = []) : Step limit t t.leave
  | finish {t : Table} (hleft : t.left = true) (hstopped : t.play.loop.running = false)
      (hcoming : t.coming = []) (hended : t.play.ended = none) : Step limit t t.finish

/-! ### What every step keeps -/

/-- What holds of every table at which `texts` are typed. -/
structure Kept (session : Session) (period : Nat) (texts : List String) (t : Table) : Prop where
  run : Loop.Run session period t.past t.now t.play.loop
  listening : .left ∉ t.past
  left_iff : t.left = true ↔ .closed ∈ t.past
  room : t.play.room = none
  ended : t.play.ended = none ∨
    t.play.ended = some (.ok ()) ∧ t.left = true ∧ t.play.loop.running = false ∧ t.coming = []
  current : t.play.current = lastView none t.taken
  written : String.join t.play.drawn.reverse = Taken.output t.taken
  updates : Taken.shown t.taken ++ t.coming = t.past.updates
  sent : t.past.sent = (Taken.commands t.taken).filterMap Command.input?
  lines : ∃ rest, Spelled t.lines rest ∧ texts = Taken.heard t.taken ++ rest ∧
    (t.left = true → ∀ text, rest.head? = some text → saysQuit text = true)
  stays : ∀ text ∈ Taken.heard t.taken, saysQuit text = false

namespace Kept

variable {session : Session} {period : Nat} {texts : List String} {t : Table}

theorem accepting_iff (h : Kept session period texts t) :
    t.play.loop.accepting = true ↔ t.left = false := by
  rw [h.run.sequential.accepting_iff, ← h.left_iff, Bool.not_eq_true]

theorem running (h : Kept session period texts t) (hopen : t.left = false) :
    t.play.loop.running = true := by
  cases hrunning : t.play.loop.running with
  | true => rfl
  | false =>
    rcases h.run.sequential.ended hrunning with hleft | ⟨hclosed, -⟩
    · exact absurd hleft h.listening
    · rw [h.left_iff.2 hclosed] at hopen
      cases hopen

theorem send_eq (h : Kept session period texts t) (hopen : t.left = false) (i : Input) :
    (t.play.loop.send i).2 = true := by
  unfold Loop.send
  rw [h.accepting_iff.2 hopen, h.running hopen]
  rfl

theorem ended_eq_none (h : Kept session period texts t) (hopen : t.left = false) :
    t.play.ended = none := by
  rcases h.ended with hnone | ⟨-, hleft, -⟩
  · exact hnone
  · rw [hleft] at hopen
    cases hopen

theorem start (session : Session) (period now : Nat) {lines : List (List UInt8)}
    {texts : List String} (hlines : Spelled lines texts) :
    Kept session period texts (Table.start session period now lines) where
  run := .start now
  listening := by simp [Table.start]
  left_iff := by simp [Table.start]
  room := rfl
  ended := Or.inl rfl
  current := rfl
  written := rfl
  updates := by simp [Table.start, Taken.shown]
  sent := by simp [Table.start, Taken.commands, along]
  lines := ⟨texts, hlines, rfl, nofun⟩
  stays := by simp [Table.start, Taken.heard]

theorem move (h : Kept session period texts t) (w : Surroundings) {later time : Nat}
    {m : Loop.Move} (hlater : t.now ≤ later)
    (hnext : t.play.loop.next? later = some (time, m)) :
    Kept session period texts (t.move w time m) where
  run := (h.run.wait hlater).move w hnext
  listening := by
    simp [Table.move, h.listening, Loop.left_notMem_seen]
  left_iff := by
    simp [Table.move, h.left_iff, Loop.closed_notMem_seen]
  room := h.room
  ended := by
    refine Or.inl (h.ended.resolve_right fun ⟨_, _, hstopped, _⟩ => ?_)
    rw [(Loop.due_of_next? hnext).1] at hstopped
    cases hstopped
  current := h.current
  written := h.written
  updates := by
    rw [Table.move, Past.updates_append, Loop.updates_seen, ← h.updates, ← List.append_assoc]
  sent := by
    rw [Table.move, Past.sent_append, Loop.sent_seen, List.append_nil]
    exact h.sent
  lines := h.lines
  stays := h.stays

theorem display (h : Kept session period texts t) {u : Update} {rest : List Update}
    (hcoming : t.coming = u :: rest) : Kept session period texts (t.display u rest) := by
  obtain ⟨more, hshow, hmore⟩ := Play.showUpdate_eq h.room u
  rw [Table.display, hshow]
  exact
    { run := h.run
      listening := h.listening
      left_iff := h.left_iff
      room := h.room
      ended := Or.inl (h.ended.resolve_right fun hended => by simp [hcoming] at hended)
      current := by rw [lastView_concat, h.current]
      written := by
        rw [Taken.output_concat, ← h.written, ← h.current, ← hmore, List.reverse_append,
          List.reverse_reverse, String.join_append]
      updates := by rw [← h.updates, hcoming, Taken.shown_update, List.append_assoc]; rfl
      sent := by rw [h.sent, Taken.commands_update]
      lines := by
        rw [Taken.heard_update]
        exact h.lines
      stays := by
        rw [Taken.heard_update]
        exact h.stays }

/-- A line that the play takes and stays is one more of those it took. -/
theorem lines_concat (h : Kept session period texts t) (hopen : t.left = false)
    {line : List UInt8} {rest : List (List UInt8)} (hlines : t.lines = line :: rest)
    {text : String} (htext : Text.decodeUtf8 line = .ok text)
    (hstays : Command.parse text t.play.hasChoices ≠ .quit) :
    (∃ later, Spelled rest later ∧ texts = Taken.heard t.taken ++ [text] ++ later ∧
      (t.left = true → ∀ text, later.head? = some text → saysQuit text = true)) ∧
    ∀ text' ∈ Taken.heard t.taken ++ [text], saysQuit text' = false := by
  obtain ⟨later, hlater, htexts, -⟩ := h.lines
  rw [hlines] at hlater
  obtain ⟨text', later, htext', hspelled, rfl⟩ := List.forall₂_cons_left_iff.1 hlater
  obtain rfl : text = text' := Except.ok.inj (htext.symm.trans htext')
  refine ⟨⟨later, hspelled, by simpa using htexts, fun hleft => ?_⟩, fun text' htext' => ?_⟩
  · rw [hopen] at hleft
    cases hleft
  · rcases List.mem_append.1 htext' with hold | hnew
    · exact h.stays text' hold
    · obtain rfl := List.mem_singleton.1 hnew
      exact Bool.eq_false_iff.2 fun hquit => hstays ((saysQuit_iff text' _).1 hquit)

theorem send (h : Kept session period texts t) (hopen : t.left = false)
    {line : List UInt8} {rest : List (List UInt8)} (hlines : t.lines = line :: rest)
    {text : String} (htext : Text.decodeUtf8 line = .ok text) {i : Input}
    (hparse : Command.parse text t.play.hasChoices = .input i) :
    Kept session period texts (t.send text rest i) := by
  obtain ⟨hmore, hstays⟩ := h.lines_concat hopen hlines htext (by rw [hparse]; nofun)
  have hsent := h.send_eq hopen i
  have hcommand : Command.parse text (menuOf (lastView none t.taken)) = .input i := by
    rw [← h.current]
    exact hparse
  rw [← Taken.heard_line] at hmore hstays
  exact
    { run := h.run.send i
      listening := by simp [Table.send, hsent, h.listening]
      left_iff := by simp [Table.send, hsent, h.left_iff]
      room := h.room
      ended := Or.inl (h.ended_eq_none hopen)
      current := (lastView_concat none t.taken (.line text)).symm ▸ h.current
      written := by
        have hnone : Taken.written (lastView none t.taken) (.line text) = [] :=
          if_neg (hcommand ▸ nofun)
        rw [Table.send, Taken.output_concat, hnone]
        simpa using h.written
      updates := by
        rw [Table.send, hsent, if_pos rfl, Past.updates_append, Taken.shown_line, h.updates]
        exact (List.append_nil _).symm
      sent := by
        rw [Table.send, hsent, if_pos rfl, Past.sent_append, h.sent, Taken.commands_line, hcommand,
          List.filterMap_append]
        rfl
      lines := hmore
      stays := hstays }

theorem help (h : Kept session period texts t) (hopen : t.left = false)
    {line : List UInt8} {rest : List (List UInt8)} (hlines : t.lines = line :: rest)
    {text : String} (htext : Text.decodeUtf8 line = .ok text)
    (hparse : Command.parse text t.play.hasChoices = .unknown) :
    Kept session period texts (t.help text rest) := by
  obtain ⟨hmore, hstays⟩ := h.lines_concat hopen hlines htext (by rw [hparse]; nofun)
  have hcommand : Command.parse text (menuOf (lastView none t.taken)) = .unknown := by
    rw [← h.current]
    exact hparse
  rw [← Taken.heard_line] at hmore hstays
  rw [Table.help, Play.write_eq h.room]
  exact
    { run := h.run
      listening := h.listening
      left_iff := h.left_iff
      room := h.room
      ended := Or.inl (h.ended_eq_none hopen)
      current := (lastView_concat none t.taken (.line text)).symm ▸ h.current
      written := by
        have hhelp : Taken.written (lastView none t.taken) (.line text) =
            [Command.help ++ "\n"] := if_pos hcommand
        rw [Taken.output_concat, hhelp, ← h.written, List.reverse_append, List.reverse_reverse,
          String.join_append]
        simp
      updates := by simpa using h.updates
      sent := by simp [h.sent, hcommand, Command.input?]
      lines := hmore
      stays := hstays }

/-- The play may leave once nothing is left to be taken but a line that says so. -/
theorem leave (h : Kept session period texts t) (hopen : t.left = false)
    (hrest : ∀ later, Spelled t.lines later → ∀ text, later.head? = some text → saysQuit text = true) :
    Kept session period texts t.leave where
  run := h.run.close
  listening := by simp [Table.leave, h.listening]
  left_iff := by simp [Table.leave]
  room := h.room
  ended := Or.inl (h.ended_eq_none hopen)
  current := h.current
  written := h.written
  updates := by
    rw [Table.leave, Past.updates_append, h.updates]
    exact (List.append_nil _).symm
  sent := by
    rw [Table.leave, Past.sent_append, h.sent]
    exact List.append_nil _
  lines := by
    obtain ⟨later, hlater, htexts, -⟩ := h.lines
    exact ⟨later, hlater, htexts, fun _ => hrest later hlater⟩
  stays := h.stays

theorem finish (h : Kept session period texts t) (hleft : t.left = true)
    (hstopped : t.play.loop.running = false) (hcoming : t.coming = []) :
    Kept session period texts t.finish where
  run := h.run
  listening := h.listening
  left_iff := h.left_iff
  room := h.room
  ended := Or.inr ⟨rfl, hleft, hstopped, hcoming⟩
  current := h.current
  written := h.written
  updates := h.updates
  sent := h.sent
  lines := h.lines
  stays := h.stays

/-- **Every step keeps what holds of a table.** -/
theorem step (h : Kept session period texts t) {limit : Option Nat} {t' : Table}
    (hstep : Step limit t t') : Kept session period texts t' := by
  cases hstep with
  | move w hlater hnext => exact h.move w hlater hnext
  | display hcoming _ => exact h.display hcoming
  | send hopen hlines htext hparse _ => exact h.send hopen hlines htext hparse
  | help hopen hlines htext hparse => exact h.help hopen hlines htext hparse
  | @quit line rest text hopen hlines htext hparse =>
    refine h.leave hopen fun later hlater first hfirst => ?_
    rw [hlines] at hlater
    obtain ⟨text', later, htext', -, rfl⟩ := List.forall₂_cons_left_iff.1 hlater
    obtain rfl : text = first := by
      rw [Except.ok.inj (htext.symm.trans htext')]
      exact Option.some.inj hfirst
    exact (saysQuit_iff text _).2 hparse
  | endInput hopen hlines =>
    refine h.leave hopen fun later hlater first hfirst => ?_
    rw [hlines] at hlater
    rw [List.forall₂_nil_left_iff.1 hlater] at hfirst
    cases hfirst
  | finish hleft hstopped hcoming _ => exact h.finish hleft hstopped hcoming

end Kept

end Table

end Gamebook
