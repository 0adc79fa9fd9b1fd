import Gamebook.Proofs.Session.FailedLoad

/-!
# Effects outside follow the log

A session asks for pictures and fetches books.  `Gallery` follows the log and nothing
else: a book that was loaded is the active one from then on, and a screen that was
entered asks for its picture in the book that is active then.  What the session asked for
is what the log tells (`Session.gallery_run`).

A fetch is due to the call alone: one for each call that asks for a book, and none for
any other (`Session.fetched_run`).  Both are settled part by part of a call (`Told`), so
no route to a screen or to a book is left out.
-/

namespace Gamebook

/-! ### What the log tells -/

/-- The picture of a screen of the book: its cover, or else its background. -/
def pictureOf? (book : Option Book) (id : String) : Option String := do
  let book ← book
  let screen ← book.screen? id
  screen.cover <|> screen.background

/-- The active book, and the pictures asked for so far. -/
structure Gallery where
  book : Option Book
  pictures : List String

namespace Gallery

def blank : Gallery := ⟨none, []⟩

/-- What an event changes. The book that was loaded is the one that the call found outside. -/
def note (w : Outside) (g : Gallery) : EventKind → Gallery
  | .bookLoaded locator _ _ _ => { g with book := (w.book locator).toOption }
  | .screenEntered id => { g with pictures := g.pictures ++ (pictureOf? g.book id).toList }
  | _ => g

/-- What a log tells, each event with what its call found outside. -/
def follow (g : Gallery) (log : List (Outside × EventKind)) : Gallery :=
  log.foldl (fun g e => g.note e.1 e.2) g

theorem follow_append (g : Gallery) (first last : List (Outside × EventKind)) :
    g.follow (first ++ last) = (g.follow first).follow last := List.foldl_append

end Gallery

/-- The book that a call asks for in this state. -/
def Call.request? (s : State) : Call → Option String
  | input i => i.request? s
  | tick => none

namespace Session

def gallery (s : Session) : Gallery := ⟨s.state.book, s.preloaded⟩

/-- The events that the calls of a run record, each with what its call found outside. -/
def log (s : Session) : List (Outside × Call) → List (Outside × EventKind)
  | [] => []
  | (w, c) :: rest => (s.recorded w c).map (fun e => (w, e.kind)) ++ (s.perform w c).1.log rest

/-- The books that the calls of a run ask for. -/
def requests (s : Session) : List (Outside × Call) → List String
  | [] => []
  | (w, c) :: rest => (c.request? s.state).toList ++ (s.perform w c).1.requests rest

theorem map_snd_log (s : Session) (calls : List (Outside × Call)) :
    (s.log calls).map Prod.snd = s.logged calls := by
  induction calls generalizing s with
  | nil => rfl
  | cons c rest ih =>
    obtain ⟨w, c⟩ := c
    rw [log, List.map_append, ih, List.map_map]
    rfl

/-! ### Parts of a call -/

/-- The part of a call that leads from `s` to `t` records what accounts for its pictures, and
fetches the books listed. -/
structure Told (w : Outside) (s t : Session) (books : List String) : Prop where
  account : ∃ kinds, t.kinds = s.kinds ++ kinds ∧
    s.gallery.follow (kinds.map fun kind => (w, kind)) = t.gallery
  fetched : t.fetched = s.fetched ++ books

variable {w : Outside} {s t u : Session}

namespace Told

theorem trans {books more : List String} (h : Told w s t books) (h' : Told w t u more) :
    Told w s u (books ++ more) where
  account := by
    obtain ⟨kinds, hkinds, hgallery⟩ := h.account
    obtain ⟨later, hlater, hgallery'⟩ := h'.account
    refine ⟨kinds ++ later, by rw [hlater, hkinds, List.append_assoc], ?_⟩
    rw [List.map_append, Gallery.follow_append, hgallery, hgallery']
  fetched := by rw [h'.fetched, h.fetched, List.append_assoc]

theorem quiet (hkinds : t.kinds = s.kinds) (hgallery : t.gallery = s.gallery)
    (hfetched : t.fetched = s.fetched) : Told w s t [] where
  account := ⟨[], by rw [hkinds, List.append_nil], hgallery.symm⟩
  fetched := by rw [hfetched, List.append_nil]

theorem beginCall (s : Session) : Told w s s.beginCall [] := quiet rfl rfl rfl

theorem record {kind : EventKind} (hquiet : ∀ g : Gallery, g.note w kind = g) {state : State}
    (hbook : state.book = s.state.book) : Told w s ({ s with state }.record w kind) [] where
  account := by
    refine ⟨[kind], kinds_record .., (hquiet _).trans ?_⟩
    change (⟨s.state.book, s.preloaded⟩ : Gallery) = ⟨state.book, s.preloaded⟩
    rw [hbook]
  fetched := (List.append_nil _).symm

theorem announce {id : String} (h : s.state.screenId = some id) :
    Told w s (s.announce w) [] where
  account := by
    refine ⟨[.screenEntered id], (announce_of_screenId w h).1, ?_⟩
    have hpicture : pictureOf? s.state.book id = s.state.screen?.bind Screen.backdrop := by
      unfold pictureOf? State.screen? Screen.backdrop
      rw [h]
      cases s.state.book <;> rfl
    unfold Session.announce
    rw [h, ← hpicture]
    rfl
  fetched := by
    unfold Session.announce
    rw [h]
    exact (List.append_nil _).symm

theorem enter (id : String) : Told w s (s.enter w id).1 [] := by
  unfold Session.enter
  split
  · have hplaced : Told w s { s with state := s.state.place id } [] := quiet rfl rfl rfl
    exact hplaced.trans (announce rfl)
  · exact quiet rfl rfl rfl

theorem swapIn (locator : String) : Told w s (s.swapIn w locator).1 [locator] := by
  let asked : Session := { s with fetched := s.fetched ++ [locator] }
  have hasked : Told w s asked [locator] := ⟨⟨[], (List.append_nil _).symm, rfl⟩, rfl⟩
  cases hbook : w.book locator with
  | error e =>
    rw [swapIn_of_error hbook]
    exact hasked
  | ok book =>
    obtain ⟨text, hfetch, hdecode⟩ := Outside.exists_text_of_book hbook
    let loaded := EventKind.bookLoaded locator book.start book.screens.size (versionHash text)
    let adopted := { asked with state := s.state.adopt book }.record w loaded
    have hadopted : Told w asked adopted [] := by
      refine ⟨⟨[loaded], kinds_record .., ?_⟩, (List.append_nil _).symm⟩
      -- the book that was decoded is the one that the log tells of
      change Gallery.mk (w.book locator).toOption s.preloaded = Gallery.mk (some book) s.preloaded
      rw [hbook]
      rfl
    unfold Session.swapIn
    simp only [hfetch, hdecode]
    exact hasked.trans (hadopted.trans (announce rfl))

theorem pick (index : Nat) (timed : Bool) : Told w s (s.pick w index timed).1 [] := by
  unfold Session.pick
  cases s.state.option? index timed with
  | none => exact quiet rfl rfl rfl
  | some option =>
    dsimp only
    unfold resolve
    split
    · exact (record (fun _ => rfl) rfl).trans (enter option.next)
    · exact quiet rfl rfl rfl

theorem carryOut (plan : Plan) : Told w s (s.carryOut w plan).1 plan.request?.toList := by
  cases plan with
  | nextLine => exact record (fun _ => rfl) rfl
  | openChoices => exact record (fun _ => rfl) rfl
  | startCountdown t => exact record (fun _ => rfl) rfl
  | goTo id => exact enter id
  | stay => exact quiet rfl rfl rfl
  | dispatch action =>
    cases action with
    | navigate id => exact enter id
    | loadBook path => exact swapIn path
    | advance => exact quiet rfl rfl rfl

theorem runAction (a : Action) : Told w s (s.runAction w a).1 (a.request? s.state).toList := by
  cases a with
  | navigate id => exact (beginCall s).trans (enter id)
  | loadBook path => exact (beginCall s).trans (swapIn path)
  | advance => exact (beginCall s).trans (carryOut (Plan.ofState s.state))

theorem handle_pick {i : Input} (hpicks : i.picks = true) : Told w s (s.handle w i).1 [] := by
  cases hi : i.pick? s.state with
  | none =>
    obtain ⟨call, hignored⟩ := handle_of_no_pick (w := w) hpicks hi
    rw [hignored]
    exact quiet rfl rfl rfl
  | some picked =>
    rw [handle_of_pick hi]
    exact (beginCall s).trans (pick picked.1 picked.2)

theorem handle (i : Input) : Told w s (s.handle w i).1 (i.request? s.state).toList := by
  cases i with
  | advance => exact runAction .advance
  | runAction action => exact runAction action
  | load locator => exact runAction (.loadBook locator)
  | navigate id => exact runAction (.navigate id)
  | select index => exact handle_pick rfl
  | choose index => exact handle_pick rfl
  | chooseTimed index => exact handle_pick rfl
  | press index =>
    change Told w s (s.press w index).1
      ((buttonAction? s.state index).bind (Action.request? s.state)).toList
    unfold press
    cases buttonAction? s.state index with
    | none => exact quiet rfl rfl rfl
    | some action => exact runAction action
  | scroll delta =>
    change Told w s (s.scroll delta).1 []
    unfold scroll
    cases s.state.screen? with
    | none => exact quiet rfl rfl rfl
    | some screen => exact quiet rfl rfl rfl

theorem tick (w : Outside) (s : Session) : Told w s (s.tick w).1 [] := by
  cases hr : s.state.countdown.running with
  | none =>
    rw [tick_of_idle w hr]
    exact beginCall s
  | some r =>
    by_cases hlast : 1 < r.remaining
    · rw [tick_of_more w hr hlast]
      exact (beginCall s).trans (record (fun _ => rfl) rfl)
    · rw [tick_of_last w hr (Nat.not_lt.1 hlast)]
      have hexpired : Told w s (s.expire w r) [] :=
        (beginCall s).trans (record (fun _ => rfl) rfl)
      split
      · exact hexpired.trans (pick r.defaultIndex true)
      · exact hexpired

end Told

/-- **A call records what accounts for its pictures**, and fetches the book that it asks for. -/
theorem perform_told (w : Outside) (s : Session) (c : Call) :
    Told w s (s.perform w c).1 (c.request? s.state).toList := by
  cases c with
  | input i => exact .handle i
  | tick => exact .tick w s

/-! ### Runs -/

/-- **The log tells the active book and the pictures asked for**, after any run. -/
theorem gallery_run (s : Session) (calls : List (Outside × Call)) :
    (s.run calls).gallery = s.gallery.follow (s.log calls) := by
  induction calls generalizing s with
  | nil => rfl
  | cons c rest ih =>
    obtain ⟨w, c⟩ := c
    obtain ⟨kinds, hkinds, hgallery⟩ := (s.perform_told w c).account
    have hrecorded : (s.recorded w c).map (fun e => (w, e.kind)) = kinds.map (w, ·) := by
      rw [← map_kind_recorded hkinds, List.map_map]
      rfl
    rw [run_cons, ih, log, Gallery.follow_append, hrecorded, hgallery]

/-- **Every call that asks for a book fetches it once**, and no other call fetches any. -/
theorem fetched_run (s : Session) (calls : List (Outside × Call)) :
    (s.run calls).fetched = s.fetched ++ s.requests calls := by
  induction calls generalizing s with
  | nil => exact (List.append_nil _).symm
  | cons c rest ih =>
    obtain ⟨w, c⟩ := c
    rw [run_cons, ih, (s.perform_told w c).fetched, List.append_assoc]
    rfl

end Session

theorem Turn.entered_le_one {w : Outside} {s s' : State} {c : Call} {kinds : List EventKind}
    (ht : Turn w s c kinds s') : kinds.countP (·.tag = .screenEntered) ≤ 1 := by
  cases ht with
  | _ => simp [EventKind.tag]

open Session in
/-- **Effects outside follow the log.**  After any run from the start the pictures asked for are
those of the screens that the log says were entered, each in the book that was active then, so that
a screen without a picture, or that the book does not have, asks for none.  The books fetched are
those that calls asked for, one for each such call, whatever came of it; and as a call enters one
screen at most and fetches only what it asked for before, no screen runs its action when it is
entered. -/
theorem effects_follow_log (calls : List (Outside × Call)) :
    let s := initial.run calls
    (initial.log calls).map Prod.snd = s.kinds ∧
      Gallery.blank.follow (initial.log calls) = ⟨s.state.book, s.preloaded⟩ ∧
      s.fetched = initial.requests calls ∧
      ∀ w c, (s.perform w c).1.fetched = s.fetched ++ (c.request? s.state).toList ∧
        (s.recorded w c).countP (·.kind.tag = .screenEntered) ≤ 1 := by
  intro s
  refine ⟨?_, (gallery_run initial calls).symm, fetched_run initial calls, fun w c => ?_⟩
  · rw [map_snd_log]
    exact (kinds_run initial calls).symm
  · have hentered := (s.perform_turn w c).entered_le_one
    rw [List.countP_map] at hentered
    exact ⟨(s.perform_told w c).fetched, hentered⟩

end Gamebook
