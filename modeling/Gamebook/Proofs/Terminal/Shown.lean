import Gamebook.Terminal.Play
import Mathlib.Data.List.Induction

/-!
# What a player writes for what is taken

A player takes typed lines and published updates, in some order (`Taken`).  What is
written for each depends on the last view before it and on nothing else
(`Taken.written`, `along`), and it is what the play writes (`Play.showUpdate_eq`).  A
view that is not drawn looks like the one before it (`View.draw_eq_of_same`), so that the
last view drawn looks like the last view (`getLast?_views`).
-/

namespace Gamebook

/-! ### Views that show the same -/

namespace View

theorem elementRows_of_same {es fs : List Element} (h : same.sameElements es fs = true)
    (choosing : Bool) (number : Nat) :
    elementRows choosing number es = elementRows choosing number fs := by
  induction es generalizing fs number with
  | nil =>
    cases fs with
    | nil => rfl
    | cons f fs => simp [same.sameElements] at h
  | cons e es ih =>
    cases fs with
    | nil => simp [same.sameElements] at h
    | cons f fs =>
      simp only [same.sameElements, Bool.and_eq_true, beq_iff_eq] at h
      obtain ⟨⟨⟨⟨hkind, htext⟩, _⟩, _⟩, hrest⟩ := h
      unfold elementRows
      rw [hkind, htext, ih hrest, ih hrest]

theorem draw_eq_of_same {a b : View} (h : a.same b = true) : a.draw = b.draw := by
  simp only [same, Bool.and_eq_true, beq_iff_eq] at h
  obtain ⟨⟨⟨⟨⟨⟨⟨⟨⟨⟨hid, hmode⟩, hbackground⟩, hcover⟩, hline⟩, hindex⟩, hlength⟩, hchoices⟩,
    htime⟩, _⟩, helements⟩ := h
  have hrows (id : String) : a.rows id = b.rows id := by
    unfold rows heading backdropRow lineRow choiceRows timeRow
    rw [hmode, hbackground, hcover, hline, hindex, hlength, hchoices, htime,
      elementRows_of_same helements]
  unfold draw
  rw [hid]
  simp only [hrows]

end View

/-! ### What is taken -/

/-- What a player takes: a line that was typed, or an update that was published. -/
inductive Taken where
  | line (text : String)
  | update (u : Update)

/-- Whether the last view offers choices. -/
def menuOf (last : Option View) : Bool := (last.map View.hasChoices).getD false

namespace Taken

def line? : Taken → Option String
  | line text => some text
  | update _ => none

def update? : Taken → Option Update
  | line _ => none
  | update u => some u

def view? : Taken → Option View
  | update (.view v) => some v
  | _ => none

/-- The command that a line gives. -/
def command (last : Option View) : Taken → List Command
  | line text => [.parse text (menuOf last)]
  | update _ => []

/-- The view that is drawn, if one is: a view that differs from the last one. -/
def drawn (last : Option View) : Taken → List View
  | update (.view v) => if last.any (·.same v) then [] else [v]
  | _ => []

/-- What is written: a view as it is drawn, a line for a load that failed, and the help for a line
that is no command. -/
def written (last : Option View) : Taken → List String
  | line text => if Command.parse text (menuOf last) = .unknown then [Command.help ++ "\n"] else []
  | update (.view v) => (drawn last (update (.view v))).map View.draw
  | update (.events _) => []
  | update (.failed e) => ["! " ++ e.message ++ "\n"]

end Taken

/-- The last view after all that was taken. -/
def lastView (last : Option View) (taken : List Taken) : Option View :=
  taken.foldl (fun last x => x.view?.or last) last

section Along

variable {α : Type}

/-- What comes of all that was taken, each under the last view before it. -/
def along (f : Option View → Taken → List α) (last : Option View) : List Taken → List α
  | [] => []
  | x :: rest => f last x ++ along f (x.view?.or last) rest

theorem along_concat (f : Option View → Taken → List α) (last : Option View)
    (taken : List Taken) (x : Taken) :
    along f last (taken ++ [x]) = along f last taken ++ f (lastView last taken) x := by
  induction taken generalizing last with
  | nil => simp [along, lastView]
  | cons y taken ih =>
    rw [List.cons_append, along, ih, along, List.append_assoc]
    rfl

theorem lastView_concat (last : Option View) (taken : List Taken) (x : Taken) :
    lastView last (taken ++ [x]) = x.view?.or (lastView last taken) := by
  simp [lastView]

end Along

namespace Taken

/-- The lines that were taken. -/
def heard (taken : List Taken) : List String := taken.filterMap line?

/-- The updates that were taken. -/
def shown (taken : List Taken) : List Update := taken.filterMap update?

/-- The commands that the lines gave. -/
def commands (taken : List Taken) : List Command := along command none taken

/-- The views that were drawn. -/
def views (taken : List Taken) : List View := along drawn none taken

/-- All that was written. -/
def output (taken : List Taken) : String := String.join (along written none taken)

section

variable (taken : List Taken) (text : String) (u : Update)

@[simp] theorem heard_line : heard (taken ++ [.line text]) = heard taken ++ [text] := by
  simp [heard, line?]

@[simp] theorem heard_update : heard (taken ++ [.update u]) = heard taken := by
  simp [heard, line?]

@[simp] theorem shown_line : shown (taken ++ [.line text]) = shown taken := by
  simp [shown, update?]

@[simp] theorem shown_update : shown (taken ++ [.update u]) = shown taken ++ [u] := by
  simp [shown, update?]

@[simp] theorem commands_line : commands (taken ++ [.line text]) =
    commands taken ++ [.parse text (menuOf (lastView none taken))] :=
  along_concat _ _ _ _

@[simp] theorem commands_update : commands (taken ++ [.update u]) = commands taken := by
  rw [commands, along_concat]
  exact List.append_nil _

theorem output_concat (x : Taken) : output (taken ++ [x]) =
    output taken ++ String.join (x.written (lastView none taken)) := by
  rw [output, along_concat, String.join_append]
  rfl

end

end Taken

/-- **The last view drawn looks like the last view.** -/
theorem getLast?_views (taken : List Taken) :
    (Taken.views taken).getLast?.map View.draw = (lastView none taken).map View.draw := by
  unfold Taken.views
  induction taken using List.reverseRecOn with
  | nil => rfl
  | append_singleton taken x ih =>
    rw [along_concat, lastView_concat]
    cases x with
    | line text => simpa [Taken.drawn, Taken.view?] using ih
    | update u =>
      cases u with
      | events l => simpa [Taken.drawn, Taken.view?] using ih
      | failed e => simpa [Taken.drawn, Taken.view?] using ih
      | view v =>
        rw [Taken.drawn]
        split <;> rename_i hsame
        · obtain ⟨last, hlast, hsame⟩ := (Option.any_eq_true _ _).1 hsame
          rw [hlast] at ih
          rw [List.append_nil, ih]
          exact congrArg some (View.draw_eq_of_same hsame)
        · simp [Taken.view?]

/-! ### What a play writes -/

namespace Play

theorem write_eq {p : Play} (hroom : p.room = none) (texts : List String) :
    p.write texts = { p with drawn := texts.reverse ++ p.drawn } := by
  induction texts generalizing p with
  | nil => rfl
  | cons text rest ih =>
    rw [write, hroom]
    dsimp only
    rw [ih rfl, List.reverse_cons, List.append_assoc]
    rfl

theorem join_failed (e : LoadError) :
    String.join (["! "] ++ e.parts ++ ["\n"]) = "! " ++ e.message ++ "\n" := by
  rw [String.join_append, String.join_append]
  rfl

/-- A play keeps the last view it was shown, and writes what is written for each update. -/
theorem showUpdate_eq {p : Play} (hroom : p.room = none) (u : Update) :
    ∃ more, p.showUpdate u =
        { p with
          current := (Taken.update u).view?.or p.current
          drawn := more.reverse ++ p.drawn } ∧
      String.join more = String.join ((Taken.update u).written p.current) := by
  cases u with
  | events l => exact ⟨[], rfl, rfl⟩
  | failed e =>
    exact ⟨_, write_eq hroom _, (join_failed e).trans (by simp [Taken.written])⟩
  | view v =>
    have hview : p.showUpdate (.view v) = { (if p.current.any (·.same v) then p
        else p.write [v.draw]) with current := some v } := by
      unfold showUpdate showView
      cases p.current <;> rfl
    rw [hview, Taken.written, Taken.drawn]
    split
    · exact ⟨[], rfl, rfl⟩
    · exact ⟨[v.draw], by rw [write_eq hroom]; rfl, rfl⟩

end Play

end Gamebook
