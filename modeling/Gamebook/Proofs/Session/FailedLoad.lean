import Gamebook.Files.Tree
import Gamebook.Proofs.Session.Turn

/-!
# A failed load changes nothing

A call fails just when it asks for a book (`Input.request?`) that cannot be
fetched or decoded (`Outside.book`), on whichever route it asks:
`handle_of_failed_request`, `handle_of_no_failed_request`.  It then has fetched
once and taken the number of a call, and all else of the session is as before.

So nothing that follows can tell: `failed_load_changes_nothing` says that any
further run answers the same, and adds the same to what was there before.
-/

namespace Gamebook

/-! ### Where errors come from -/

/-- The book at a locator: fetched, then decoded. -/
def Outside.book (w : Outside) (locator : String) : Except LoadError Book :=
  match w.fetch locator with
  | .error e => .error e
  | .ok text => Book.decode locator text

theorem Outside.exists_text_of_book {w : Outside} {locator : String} {book : Book}
    (h : w.book locator = .ok book) :
    ∃ text, w.fetch locator = .ok text ∧ Book.decode locator text = .ok book := by
  unfold Outside.book at h
  cases hfetch : w.fetch locator with
  | error e => simp [hfetch] at h
  | ok text =>
    rw [hfetch] at h
    exact ⟨text, rfl, h⟩

/-- What a source says of a failed fetch names the locator that was asked for. -/
def Outside.NamesLocator (w : Outside) : Prop :=
  ∀ locator e, w.fetch locator = .error e → e.locator = locator

theorem locator_of_decode {locator text : String} {e : LoadError}
    (h : Book.decode locator text = .error e) : e.locator = locator := by
  unfold Book.decode at h
  split at h
  · cases hread : Book.ofJsonText text with
    | error problem =>
      rw [hread] at h
      obtain rfl := Except.error.inj h
      rfl
    | ok book =>
      rw [hread] at h
      cases h
  · split at h
    · simp at h
    · obtain rfl := Except.error.inj h
      rfl

theorem Outside.NamesLocator.of_book {w : Outside} (hw : w.NamesLocator) {locator : String}
    {e : LoadError} (h : w.book locator = .error e) : e.locator = locator := by
  unfold Outside.book at h
  cases hfetch : w.fetch locator with
  | error e' =>
    rw [hfetch] at h
    obtain rfl := Except.error.inj h
    exact hw locator e' hfetch
  | ok text =>
    rw [hfetch] at h
    exact locator_of_decode h

/-- Books kept as files are such a source. -/
theorem namesLocator_fetchFrom (tree : FileTree) (root : String) (now : Int) :
    Outside.NamesLocator ⟨fetchFrom tree root, now⟩ := by
  intro locator e h
  change fetchFrom tree root locator = .error e at h
  unfold fetchFrom shelfPath at h
  cases hunder : Path.under? root locator with
  | none =>
    rw [hunder] at h
    obtain rfl := Except.error.inj h
    rfl
  | some path =>
    simp only [hunder, bind, Except.bind] at h
    cases hread : tree.readText path with
    | ok text =>
      rw [hread] at h
      cases h
    | error fault =>
      rw [hread] at h
      obtain rfl := Except.error.inj h
      cases fault <;> rfl

namespace Session

variable {w : Outside} {s : Session} {locator : String}

/-! ### A load fails or is done -/

/-- The session after it asked for a book in vain. -/
def refused (s : Session) (locator : String) : Session :=
  { s with call := s.call + 1, fetched := s.fetched ++ [locator] }

theorem swapIn_of_error {e : LoadError} (h : w.book locator = .error e) :
    s.swapIn w locator = ({ s with fetched := s.fetched ++ [locator] }, .error e) := by
  unfold Outside.book at h
  unfold swapIn
  cases hfetch : w.fetch locator with
  | error e' =>
    rw [hfetch] at h
    obtain rfl := Except.error.inj h
    rfl
  | ok text =>
    simp only [hfetch] at h
    simp only [h]

theorem swapIn_of_ok {book : Book} (h : w.book locator = .ok book) :
    (s.swapIn w locator).2 = .ok () := by
  unfold Outside.book at h
  unfold swapIn
  cases hfetch : w.fetch locator with
  | error e' => simp [hfetch] at h
  | ok text =>
    simp only [hfetch] at h
    simp only [h]

/-! ### The routes to a load -/

theorem runAction_of_error {a : Action} {e : LoadError} (ha : a.request? s.state = some locator)
    (h : w.book locator = .error e) : s.runAction w a = (s.refused locator, .error e) := by
  cases a with
  | navigate id => simp [Action.request?] at ha
  | loadBook path =>
    obtain rfl := Option.some.inj ha
    exact swapIn_of_error h
  | advance =>
    change (Plan.ofState s.state).request? = some locator at ha
    unfold runAction step
    rw [state_beginCall]
    cases hplan : Plan.ofState s.state with
    | dispatch action =>
      cases action with
      | loadBook path =>
        rw [hplan] at ha
        obtain rfl := Option.some.inj ha
        exact swapIn_of_error h
      | _ => simp [hplan, Plan.request?] at ha
    | _ => simp [hplan, Plan.request?] at ha

theorem runAction_of_ok {a : Action}
    (h : ∀ locator, a.request? s.state = some locator → ∃ book, w.book locator = .ok book) :
    (s.runAction w a).2 = .ok () := by
  cases a with
  | navigate id => rfl
  | loadBook path =>
    obtain ⟨book, hbook⟩ := h path rfl
    exact swapIn_of_ok hbook
  | advance =>
    unfold runAction step
    rw [state_beginCall]
    cases hplan : Plan.ofState s.state with
    | dispatch action =>
      cases action with
      | loadBook path =>
        obtain ⟨book, hbook⟩ := h path (by simp [Action.request?, Plan.request?, hplan])
        exact swapIn_of_ok hbook
      | _ => rfl
    | _ => rfl

theorem handle_of_request {i : Input} (hi : i.request? s.state = some locator) :
    ∃ a : Action, a.request? s.state = some locator ∧
      s.handle w i = unitAnswer (s.runAction w a) := by
  rw [Input.request?_eq] at hi
  obtain ⟨a, ha, hrequest⟩ := Option.bind_eq_some_iff.1 hi
  refine ⟨a, hrequest, handle_of_action ha fun id hid => ?_⟩
  subst hid
  obtain rfl := Option.some.inj ha
  nomatch hrequest

/-- **A request in vain fails the call**, on every route. -/
theorem handle_of_failed_request {i : Input} {e : LoadError}
    (hi : i.request? s.state = some locator) (h : w.book locator = .error e) :
    s.handle w i = (s.refused locator, .error e) := by
  obtain ⟨a, hrequest, hhandle⟩ := handle_of_request (w := w) hi
  rw [hhandle, runAction_of_error hrequest h]
  rfl

theorem handle_of_no_failed_request {i : Input}
    (h : ∀ locator, i.request? s.state = some locator → ∃ book, w.book locator = .ok book) :
    ∃ heeded, (s.handle w i).2 = .ok heeded := by
  cases i with
  | advance => exact ⟨true, congrArg (Except.map fun _ => true) (runAction_of_ok (a := .advance) h)⟩
  | runAction a => exact ⟨true, congrArg (Except.map fun _ => true) (runAction_of_ok h)⟩
  | load l =>
    exact ⟨true, congrArg (Except.map fun _ => true) (runAction_of_ok (a := .loadBook l) h)⟩
  | press index =>
    change ∃ heeded, (s.press w index).2 = .ok heeded
    unfold press
    cases ha : buttonAction? s.state index with
    | none => exact ⟨false, rfl⟩
    | some a =>
      refine ⟨true, congrArg (Except.map fun _ => true) (runAction_of_ok fun l hl => h l ?_)⟩
      exact Option.bind_eq_some_iff.2 ⟨a, ha, hl⟩
  | _ => exact ⟨_, rfl⟩

theorem perform_eq_error_iff {c : Call} {e : LoadError} :
    (s.perform w c).2 = .error e ↔ ∃ i locator,
      c = .input i ∧ i.request? s.state = some locator ∧ w.book locator = .error e := by
  constructor
  · intro h
    cases c with
    | tick => simp [perform, boolAnswer] at h
    | input i =>
      change (s.handle w i).2 = .error e at h
      by_cases hfails : ∃ locator e', i.request? s.state = some locator ∧ w.book locator = .error e'
      · obtain ⟨locator, e', hi, hbook⟩ := hfails
        rw [handle_of_failed_request hi hbook] at h
        obtain rfl := Except.error.inj h
        exact ⟨i, locator, rfl, hi, hbook⟩
      · have hbooks (l : String) (hl : i.request? s.state = some l) :
            ∃ book, w.book l = .ok book := by
          cases hbook : w.book l with
          | ok book => exact ⟨book, rfl⟩
          | error e' => exact absurd ⟨l, e', hl, hbook⟩ hfails
        obtain ⟨heeded, hok⟩ := handle_of_no_failed_request hbooks
        simp [hok] at h
  · rintro ⟨i, locator, rfl, hi, hbook⟩
    exact congrArg Prod.snd (handle_of_failed_request hi hbook)

theorem perform_of_error {c : Call} {e : LoadError} (h : (s.perform w c).2 = .error e) :
    ∃ i locator, c = .input i ∧ i.request? s.state = some locator ∧ w.book locator = .error e ∧
      (s.perform w c).1 = s.refused locator := by
  obtain ⟨i, locator, rfl, hi, hbook⟩ := perform_eq_error_iff.1 h
  exact ⟨i, locator, rfl, hi, hbook, congrArg Prod.fst (handle_of_failed_request hi hbook)⟩

theorem pending_of_error {c : Call} {e : LoadError} (h : (s.perform w c).2 = .error e) :
    (s.perform w c).1.pending = s.pending := by
  obtain ⟨_, _, _, _, _, hperform⟩ := perform_of_error h
  rw [hperform]
  rfl

/-! ### Nothing that follows can tell -/

/-- Sessions in one state have the same future: what `t` adds, each adds to its own history. -/
theorem exists_run_eq_followedBy {s' : Session} (h : s'.state = s.state)
    (later : List (Outside × Call)) :
    s'.answers later = s.answers later ∧
      ∃ t, s.run later = s.followedBy t ∧ s'.run later = s'.followedBy t := by
  have hs : s.followedBy (ofState s.state) = s := followedBy_ofState s
  have hs' : s'.followedBy (ofState s.state) = s' := h ▸ followedBy_ofState s'
  refine ⟨?_, (ofState s.state).run later, ?_, ?_⟩
  · rw [← hs, ← hs', answers_followedBy, answers_followedBy]
  · rw [← run_followedBy, hs]
  · rw [← run_followedBy, hs']

end Session

open Session in
/-- **A failed load changes nothing.**  The call asked for a book that could not be fetched or
decoded, the error names that book, and but for the one fetch and the number of the call the session
is as before; whatever is done later answers the same and adds the same. -/
theorem failed_load_changes_nothing {w : Outside} (hw : w.NamesLocator) {s : Session} {c : Call}
    {e : LoadError} (h : (s.perform w c).2 = .error e) :
    ∃ i locator, c = .input i ∧ i.request? s.state = some locator ∧ w.book locator = .error e ∧
      e.locator = locator ∧
      (s.perform w c).1 = { s with call := s.call + 1, fetched := s.fetched ++ [locator] } ∧
      ∀ later : List (Outside × Call),
        (s.perform w c).1.answers later = s.answers later ∧
        ∃ t, s.run later = s.followedBy t ∧
          (s.perform w c).1.run later = (s.perform w c).1.followedBy t := by
  obtain ⟨i, locator, hc, hi, hbook, hperform⟩ := perform_of_error h
  refine ⟨i, locator, hc, hi, hbook, hw.of_book hbook, hperform, fun later => ?_⟩
  exact exists_run_eq_followedBy (by rw [hperform]; rfl) later

/-- A menu with a button that asks for a book, and a countdown of three seconds. -/
def menuScreen : Screen :=
  { Screen.blank with
    kind := .ui
    elements := [⟨.button, "Start", some (.loadBook "b.json"), .empty⟩]
    timedChoices := some ⟨3, 0, []⟩ }

/-- A session at the menu, with two seconds left. -/
def menuSession : Session :=
  .ofState
    { State.initial with
      book := some ⟨"menu", .ofList [("menu", menuScreen)]⟩
      screenId := some "menu"
      countdown := ⟨some ⟨"menu", 2, 0⟩, 1⟩ }

def bareShelf : Outside := ⟨fetchFrom .empty "books", 0⟩

/-- The button asks for a missing file, while the countdown runs. -/
theorem failed_load_during_countdown :
    bareShelf.NamesLocator ∧
      (menuSession.perform bareShelf (.input (.press 0))).2 = .error (.notFound "b.json") ∧
      menuSession.state.countdown.isRunning = true ∧
      (menuSession.perform bareShelf (.input (.press 0))).1 =
        { menuSession with
          call := menuSession.call + 1
          fetched := menuSession.fetched ++ ["b.json"] } := by
  have hnames : bareShelf.NamesLocator := namesLocator_fetchFrom .empty "books" 0
  have hfailed : (menuSession.perform bareShelf (.input (.press 0))).2 =
      .error (.notFound "b.json") := rfl
  obtain ⟨_, locator, _, _, _, hlocator, hsession, _⟩ := failed_load_changes_nothing hnames hfailed
  obtain rfl : "b.json" = locator := hlocator
  exact ⟨hnames, hfailed, rfl, hsession⟩

end Gamebook
