import Gamebook.Terminal.Drawing

/-!
# What the rows of a drawing stand for

A drawing is text, and a label may well look like a numbered option.  So the
rows are told apart before they are written: `View.drawnRows` lists the rows of
a view with what each is drawn for, and written out they are the drawing
(`View.draw_eq`).  The numbered ones are the options of the menu, or the buttons
when there are no options, counted from one (`View.option_mem_drawnRows`,
`View.button_mem_drawnRows`).
-/

namespace Gamebook

/-- A row of a drawing, with what it is drawn for. -/
inductive Row where
  | plain (text : String)
  | option (number : Nat) (text : String)
  | button (number : Nat) (e : Element)

namespace Row

def text : Row → String
  | plain text => text
  | option number text => s!"  {number}. {text}"
  | button number e => s!"   [{number}] {e.text}"

/-- The number that the row is drawn with. -/
def number? : Row → Option Nat
  | plain _ => none
  | option number _ => some number
  | button number _ => some number

theorem map_text_plain (texts : List String) : (texts.map plain).map text = texts := by
  simp [Function.comp_def, text]

end Row

/-! ### Elements -/

/-- The rows that `elementRows` writes. -/
def numberedRows (choosing : Bool) : Nat → List Element → List Row
  | _, [] => []
  | number, e :: es =>
    match e.kind with
    | .label => .plain ("   " ++ e.text) :: numberedRows choosing number es
    | .button =>
      if choosing then numberedRows choosing number es
      else .button number e :: numberedRows choosing (number + 1) es
    | .other => numberedRows choosing number es

theorem elementRows_eq (choosing : Bool) (number : Nat) (es : List Element) :
    elementRows choosing number es = (numberedRows choosing number es).map Row.text := by
  induction es generalizing number with
  | nil => rfl
  | cons e es ih =>
    unfold elementRows numberedRows
    cases e.kind with
    | label => simp [ih, Row.text]
    | button => cases choosing <;> simp [ih, Row.text]
    | other => exact ih number

theorem option_mem_numberedRows (choosing : Bool) (number n : Nat) (label : String)
    (es : List Element) : .option n label ∉ numberedRows choosing number es := by
  induction es generalizing number with
  | nil => simp [numberedRows]
  | cons e es ih =>
    unfold numberedRows
    cases e.kind with
    | label => simp [ih]
    | button => cases choosing <;> simp [ih]
    | other => exact ih number

/-- Buttons are numbered in their order, unless choices are drawn instead. -/
theorem button_mem_numberedRows (choosing : Bool) (number n : Nat) (b : Element)
    (es : List Element) :
    .button n b ∈ numberedRows choosing number es ↔ choosing = false ∧ number ≤ n ∧
      (es.filter (·.kind = .button))[n - number]? = some b := by
  induction es generalizing number with
  | nil => simp [numberedRows]
  | cons e es ih =>
    unfold numberedRows
    cases hkind : e.kind with
    | label => simp [hkind, ih]
    | other => simp [hkind, ih]
    | button =>
      cases choosing with
      | true => simp [ih]
      | false =>
        have hfilter : (e :: es).filter (·.kind = .button) =
            e :: es.filter (·.kind = .button) := by
          simp [hkind]
        rw [hfilter]
        simp only [Bool.false_eq_true, if_false, List.mem_cons, Row.button.injEq, ih, true_and]
        rcases Nat.lt_trichotomy n number with hlt | rfl | hgt
        · exact iff_of_false (by omega) (by omega)
        · -- this is the button of the number
          have hpast : ¬n + 1 ≤ n := by omega
          simp [hpast, eq_comm]
        · -- past this button the rest is numbered from the next number on
          have hnext : n - number = (n - (number + 1)) + 1 := by omega
          rw [hnext, List.getElem?_cons_succ]
          constructor
          · rintro (⟨rfl, _⟩ | ⟨_, hbutton⟩)
            · omega
            · exact ⟨by omega, hbutton⟩
          · rintro ⟨_, hbutton⟩
            exact Or.inr ⟨by omega, hbutton⟩

/-! ### Views -/

namespace View

variable (v : View)

def buttons : List Element := v.elements.filter (·.kind = .button)

def optionRows : List Row := v.choices.zipIdx.map fun (choice, i) => .option (i + 1) choice

/-- The rows of a drawing, before they are written. -/
def drawnRows : List Row :=
  match v.screenId with
  | none => [.plain "(nothing to show)"]
  | some id =>
    .plain (v.heading id) :: v.backdropRow.map .plain ++
      numberedRows (!v.choices.isEmpty) 1 v.elements ++ v.lineRow.map .plain ++ v.optionRows ++
      v.timeRow.map .plain

theorem choiceRows_eq : v.choiceRows = v.optionRows.map Row.text := by
  simp [choiceRows, optionRows, Row.text]

/-- **The drawing is its rows**, each on a line of its own. -/
theorem draw_eq : v.draw = "\n".intercalate (v.drawnRows.map Row.text) ++ "\n" := by
  unfold draw drawnRows
  cases v.screenId with
  | none => rfl
  | some id =>
    simp only [rows, List.map_append, List.map_cons, Row.map_text_plain, elementRows_eq,
      choiceRows_eq]
    rfl

/-- Without a screen there is neither a menu nor an element. -/
structure Placed : Prop where
  choices : v.screenId = none → v.choices = []
  elements : v.screenId = none → v.elements = []

theorem placed_ofState (s : State) : (ofState s).Placed := by
  have hscreen : (ofState s).screenId = none → s.screen? = none := by
    intro hid
    have hid' : s.screenId = none := hid
    simp [State.screen?, hid']
  constructor
  · intro hid
    simp [ofState, hscreen hid]
  · intro hid
    simp [ofState, hscreen hid]

variable {v}

theorem option_mem_optionRows {n : Nat} {label : String} :
    .option n label ∈ v.optionRows ↔ 0 < n ∧ v.choices[n - 1]? = some label := by
  unfold optionRows
  simp only [List.mem_map, Prod.exists, Row.option.injEq, List.mem_zipIdx_iff_getElem?]
  constructor
  · rintro ⟨choice, i, hi, rfl, rfl⟩
    exact ⟨Nat.succ_pos i, hi⟩
  · rintro ⟨hpos, hchoice⟩
    exact ⟨label, n - 1, hchoice, by omega, rfl⟩

theorem button_mem_optionRows {n : Nat} {e : Element} : .button n e ∉ v.optionRows := by
  simp [optionRows]

theorem option_mem_drawnRows (h : v.Placed) {n : Nat} {label : String} :
    .option n label ∈ v.drawnRows ↔ 0 < n ∧ v.choices[n - 1]? = some label := by
  unfold drawnRows
  cases hid : v.screenId with
  | none => simp [h.choices hid]
  | some id =>
    simp [option_mem_numberedRows, option_mem_optionRows]

theorem button_mem_drawnRows (h : v.Placed) {n : Nat} {e : Element} :
    .button n e ∈ v.drawnRows ↔ v.choices = [] ∧ 0 < n ∧ v.buttons[n - 1]? = some e := by
  unfold drawnRows
  cases hid : v.screenId with
  | none => simp [buttons, h.elements hid]
  | some id =>
    simp [button_mem_numberedRows, button_mem_optionRows, buttons, Nat.succ_le_iff]

end View

end Gamebook
