import Gamebook.Proofs.Session.Menu
import Gamebook.Proofs.Terminal.Drawing
import Gamebook.Proofs.Terminal.Grammar

/-!
# What a typed number does

A view is made for the mode of the session, a drawing numbers what the view
has, a line that is typed is read for the view, and the session looks up what
was meant on the screen.  These agree: a number acts on the row that is drawn
with it (`typed_number_acts_on_drawn_row`).  A number of an option picks it
(`Session.Picks`), a number of a button runs its action, and a number that no
row has leaves the session as it is (`Session.Unmoved`).
-/

namespace Gamebook

/-! ### Reading the number -/

namespace Command

theorem parse_number {n : Nat} (hpos : 0 < n) (hsize : n < UInt64.size) (v : View) :
    parse (toString n) v.hasChoices =
      .input (if v.choices = [] then .press (n - 1) else .select (n - 1)) := by
  have hzero : n ≠ 0 := by omega
  rw [parse_toString, if_pos hsize]
  unfold ofNumber View.hasChoices
  cases v.choices with
  | nil => simp [hzero]
  | cons choice choices => simp [hzero]

end Command

/-! ### Selecting -/

namespace Session

variable {w : Outside} {s : Session} {i : Input} {index : Nat}

/-- The input picks the option: the choice is recorded and the screen it leads to is entered. -/
structure Picks (w : Outside) (i : Input) (index : Nat) (option : Choice) (s : Session) : Prop where
  answer : (s.perform w (.input i)).2 = .ok true
  state : (s.perform w (.input i)).1.state = s.state.place option.next
  records : (s.recorded w (.input i)).map (·.kind) =
    [.choiceMade s.state.activeId index option.next (s.state.mode = .timed),
      .screenEntered option.next]

/-- The input is not heeded; it may have counted as a call. -/
def Unmoved (w : Outside) (i : Input) (s : Session) : Prop :=
  ∃ call, s.perform w (.input i) = ({ s with call }, .ok false)

theorem picks_of_defines {timed : Bool} {option : Choice}
    (hi : i.pick? s.state = some (index, timed))
    (hoption : s.state.option? index timed = some option)
    (hnext : s.state.defines option.next = true) : s.Picks w i index option := by
  obtain ⟨hanswer, hstate, hkinds⟩ := perform_of_pick (w := w) hi hoption hnext
  rw [Input.timed_of_pick hi] at hkinds
  exact ⟨hanswer, hstate, hkinds⟩

theorem unmoved_of_not_defines {timed : Bool} (hi : i.pick? s.state = some (index, timed))
    (h : ∀ option, s.state.option? index timed = some option →
      s.state.defines option.next = false) : s.Unmoved w i := by
  refine ⟨s.call + 1, ?_⟩
  change s.handle w i = _
  rw [handle_of_pick hi, pick_of_not_defines (s := s.beginCall) w h]
  rfl

theorem picks_or_unmoved {timed : Bool} (hi : i.pick? s.state = some (index, timed)) :
    (∃ option, s.state.offered[index]? = some option ∧ s.state.defines option.next = true ∧
        s.Picks w i index option) ∨
      (∀ option, s.state.offered[index]? = some option → s.state.defines option.next = false) ∧
        s.Unmoved w i := by
  rw [State.offered_getElem?_of_pick hi]
  cases hoption : s.state.option? index timed with
  | none =>
    refine Or.inr ⟨nofun, unmoved_of_not_defines hi fun option hsome => ?_⟩
    nomatch hoption.symm.trans hsome
  | some option =>
    cases hnext : s.state.defines option.next with
    | true => exact Or.inl ⟨option, rfl, hnext, picks_of_defines hi hoption hnext⟩
    | false =>
      have hdangling (other : Choice) (hother : some option = some other) :
          s.state.defines other.next = false := by
        obtain rfl := Option.some.inj hother
        exact hnext
      refine Or.inr ⟨hdangling, unmoved_of_not_defines hi fun other hother => ?_⟩
      exact hdangling other (hoption.symm.trans hother)

/-- **Selecting picks the option on offer of this index** if there is one that leads to a screen of
the book, and else does nothing. -/
theorem select_picks_or_unmoved (w : Outside) (s : Session) (index : Nat) :
    (∃ option, s.state.offered[index]? = some option ∧ s.state.defines option.next = true ∧
        s.Picks w (.select index) index option) ∨
      (∀ option, s.state.offered[index]? = some option → s.state.defines option.next = false) ∧
        s.Unmoved w (.select index) := by
  cases hmode : s.state.mode with
  | choice =>
    have hi : (Input.select index).pick? s.state = some (index, false) := by
      simp only [Input.pick?, hmode]
    exact picks_or_unmoved hi
  | timed =>
    have hi : (Input.select index).pick? s.state = some (index, true) := by
      simp only [Input.pick?, hmode]
    exact picks_or_unmoved hi
  | _ =>
    -- no other mode offers anything
    have hnone : s.state.offered = [] := State.offered_eq_nil (by simp [hmode]) (by simp [hmode])
    have hi : (Input.select index).pick? s.state = none := by simp only [Input.pick?, hmode]
    refine Or.inr ⟨fun option hoption => ?_, handle_of_no_pick rfl hi⟩
    rw [hnone, List.getElem?_nil] at hoption
    cases hoption

/-! ### Looking up the button -/

theorem buttonAction?_eq_some_iff {a : Action} :
    buttonAction? s.state index = some a ↔ ∃ screen e, s.state.screen? = some screen ∧
      screen.kind ≠ .unknown ∧ (View.ofState s.state).buttons[index]? = some e ∧
      e.action = some a := by
  unfold buttonAction? View.buttons View.ofState
  cases hscreen : s.state.screen? with
  | none => simp
  | some screen =>
    by_cases hkind : screen.kind = .unknown
    · simp [hkind]
    · simp [hkind, Screen.buttons, Option.bind_eq_some_iff]

/-- **Pressing runs the action of the button of this index** on a screen of a known kind, and else
does nothing. -/
theorem press_runs_or_unmoved (w : Outside) (s : Session) (index : Nat) :
    (∃ screen e a, s.state.screen? = some screen ∧ screen.kind ≠ .unknown ∧
        (View.ofState s.state).buttons[index]? = some e ∧ e.action = some a ∧
        s.perform w (.input (.press index)) = s.perform w (.input (.runAction a))) ∨
      (∀ screen e, s.state.screen? = some screen → screen.kind ≠ .unknown →
          (View.ofState s.state).buttons[index]? = some e → e.action = none) ∧
        s.Unmoved w (.press index) := by
  cases haction : buttonAction? s.state index with
  | some a =>
    obtain ⟨screen, e, hscreen, hkind, hbutton, ha⟩ := buttonAction?_eq_some_iff.1 haction
    have hruns : s.perform w (.input (.press index)) = unitAnswer (s.runAction w a) :=
      handle_of_action (i := .press index) haction nofun
    exact Or.inl ⟨screen, e, a, hscreen, hkind, hbutton, ha, hruns⟩
  | none =>
    refine Or.inr ⟨fun screen e hscreen hkind hbutton => ?_, s.call, ?_⟩
    · cases ha : e.action with
      | none => rfl
      | some a =>
        have hsome := buttonAction?_eq_some_iff.2 ⟨screen, e, hscreen, hkind, hbutton, ha⟩
        rw [haction] at hsome
        nomatch hsome
    · change s.press w index = _
      unfold press
      rw [haction]

end Session

/-! ### Typing it -/

open Session in
/-- **A typed number acts on the row that is drawn with it.**  The rows of the drawing with numbers
are the options of the menu, or the buttons where there are no options.  Typed before a menu, the
number picks the option of its row, if that leads to a screen of the book; without a menu it runs
the action of the button of its row, if that has one and the screen is of a known kind.  In all
other cases, and if no row has the number, the session is left as it is. -/
theorem typed_number_acts_on_drawn_row (w : Outside) (s : Session) {n : Nat} (hpos : 0 < n)
    (hsize : n < UInt64.size) :
    let v := View.ofState s.state
    v.draw = "\n".intercalate (v.drawnRows.map Row.text) ++ "\n" ∧
      (v.choices ≠ [] →
        Command.parse (toString n) v.hasChoices = .input (.select (n - 1)) ∧
        (∀ label, .option n label ∈ v.drawnRows ↔ v.choices[n - 1]? = some label) ∧
        (∀ e, .button n e ∉ v.drawnRows) ∧
        ((∃ option, s.state.offered[n - 1]? = some option ∧
            v.choices[n - 1]? = some option.text ∧ s.state.defines option.next = true ∧
            s.Picks w (.select (n - 1)) (n - 1) option) ∨
          (∀ option, s.state.offered[n - 1]? = some option →
              s.state.defines option.next = false) ∧
            s.Unmoved w (.select (n - 1)))) ∧
      (v.choices = [] →
        Command.parse (toString n) v.hasChoices = .input (.press (n - 1)) ∧
        (∀ label, .option n label ∉ v.drawnRows) ∧
        (∀ e, .button n e ∈ v.drawnRows ↔ v.buttons[n - 1]? = some e) ∧
        ((∃ screen e a, s.state.screen? = some screen ∧ screen.kind ≠ .unknown ∧
            v.buttons[n - 1]? = some e ∧ e.action = some a ∧
            s.perform w (.input (.press (n - 1))) = s.perform w (.input (.runAction a))) ∨
          (∀ screen e, s.state.screen? = some screen → screen.kind ≠ .unknown →
              v.buttons[n - 1]? = some e → e.action = none) ∧
            s.Unmoved w (.press (n - 1)))) ∧
      ((∀ row ∈ v.drawnRows, row.number? ≠ some n) →
        ∃ i, Command.parse (toString n) v.hasChoices = .input i ∧ s.Unmoved w i) := by
  intro v
  have hplaced : v.Placed := View.placed_ofState s.state
  have hparse := Command.parse_number hpos hsize v
  have htexts : ∀ option, s.state.offered[n - 1]? = some option →
      v.choices[n - 1]? = some option.text := by
    intro option hoption
    rw [View.choices_ofState, List.getElem?_map, hoption]
    rfl
  have hselect := select_picks_or_unmoved w s (n - 1)
  have hpress := press_runs_or_unmoved w s (n - 1)
  refine ⟨v.draw_eq, fun hmenu => ?_, fun hmenu => ?_, fun hrows => ?_⟩
  · rw [if_neg hmenu] at hparse
    refine ⟨hparse, fun label => ?_, fun e he => ?_, hselect.imp_left ?_⟩
    · rw [View.option_mem_drawnRows hplaced, and_iff_right hpos]
    · exact hmenu ((View.button_mem_drawnRows hplaced).1 he).1
    · rintro ⟨option, hoption, hnext, hpicks⟩
      exact ⟨option, hoption, htexts option hoption, hnext, hpicks⟩
  · rw [if_pos hmenu] at hparse
    refine ⟨hparse, fun label hlabel => ?_, fun e => ?_, hpress⟩
    · have hchoice := ((View.option_mem_drawnRows hplaced).1 hlabel).2
      simp [hmenu] at hchoice
    · rw [View.button_mem_drawnRows hplaced, and_iff_right hmenu, and_iff_right hpos]
  · refine ⟨_, hparse, ?_⟩
    by_cases hmenu : v.choices = []
    · rw [if_pos hmenu]
      rcases hpress with ⟨_, e, _, _, _, hbutton, _⟩ | ⟨_, hunmoved⟩
      · have hdrawn := (View.button_mem_drawnRows hplaced).2 ⟨hmenu, hpos, hbutton⟩
        exact absurd rfl (hrows _ hdrawn)
      · exact hunmoved
    · rw [if_neg hmenu]
      rcases hselect with ⟨option, hoption, _, _⟩ | ⟨_, hunmoved⟩
      · have hdrawn := (View.option_mem_drawnRows hplaced).2 ⟨hpos, htexts option hoption⟩
        exact absurd rfl (hrows _ hdrawn)
      · exact hunmoved

/-- A one that is typed at the door picks the option that is drawn with it. -/
theorem typed_one_at_door :
    (View.ofState loadedAtDoor.state).draw = "== door [timed] ==\n  1. Run\n" ∧
      Command.parse (toString 1) (View.ofState loadedAtDoor.state).hasChoices =
        .input (.select 0) ∧
      loadedAtDoor.Picks atDoor (.select 0) 0 ⟨"Run", "door"⟩ := by
  have hfacts : (View.ofState loadedAtDoor.state).draw = "== door [timed] ==\n  1. Run\n" ∧
      (View.ofState loadedAtDoor.state).choices ≠ [] ∧
      loadedAtDoor.state.offered = [⟨"Run", "door"⟩] ∧
      loadedAtDoor.state.defines "door" = true := by
    decide +kernel
  obtain ⟨hdraw, hmenu, hoffered, hdefines⟩ := hfacts
  obtain ⟨_, htyped, _⟩ :=
    typed_number_acts_on_drawn_row atDoor loadedAtDoor (n := 1) (by decide) (by decide)
  obtain ⟨hparse, _, _, ⟨option, hoption, _, _, hpicks⟩ | ⟨hnowhere, _⟩⟩ := htyped hmenu
  · rw [hoffered] at hoption
    obtain rfl := Option.some.inj hoption
    exact ⟨hdraw, hparse, hpicks⟩
  · have hnext := hnowhere ⟨"Run", "door"⟩ (by rw [hoffered]; rfl)
    simp [hdefines] at hnext

end Gamebook
