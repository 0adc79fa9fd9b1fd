import Gamebook.Book.Loading
import Gamebook.Proofs.Book.RoundTrip

/-!
# The layouts of a book that was read

A book that is decoded from JSON has the screens and elements that its author wrote, and
each layout holds the members of the authored element that the element does not read
itself (`Element.laidOut_of_ofDraft`).  So it is written and read again without loss
(`book_encoding_round_trips`).
-/

namespace Gamebook

open Json (Draft Document)

/-! ### What the author wrote -/

/-- The fields of a book, in the order in which a list gives them. -/
def Book.fieldNames : List String := ["start", "screens"]

/-- The fields of a screen, in the order in which a list gives them. -/
def Screen.fieldNames : List String :=
  ["type", "background", "cover", "dialogue", "next", "action", "elements", "choices",
    "timedChoices"]

theorem Book.fieldNames_eq : Book.fieldNames = Book.parts.map Json.Part.name := rfl

theorem Screen.fieldNames_eq : Screen.fieldNames = Screen.parts.map Json.Part.name := rfl

/-- What is authored of a screen: the last member of its name among the screens of the book. -/
def Book.authored? (d : Draft) (id : String) : Option Draft :=
  (d.field? Book.fieldNames "screens").bind (Draft.member? id)

/-- What is authored of the elements of a screen. -/
def Screen.authoredElements (d : Draft) : List Draft :=
  ((d.field? Screen.fieldNames "elements").map Draft.items).getD []

/-- Whether a layout holds the members of an authored object that are not the element's own,
each as the value that the last member of its name is kept as. -/
structure Element.LaidOut (e : Element) (d : Draft) : Prop where
  object : ∃ members close, d = .object members close
  own : ∀ name ∈ Element.ownNames, e.layout.find? name = none
  other : ∀ name ∉ Element.ownNames,
    Option.Rel (fun value d => d.keep = .ok value) (e.layout.find? name) (d.member? name)

theorem Element.laidOut_of_ofDraft {d : Draft} {e : Element} (h : Element.ofDraft d = .ok e) :
    e.LaidOut d := by
  obtain ⟨members, close, -, hd, -⟩ := Json.openRecord_ok h
  exact ⟨⟨members, close, hd⟩, fun name hname => layout_own h hname,
    fun name hname => layout_other h hname⟩

theorem Screen.elements_of_ofDraft {d : Draft} {s : Screen} (h : Screen.ofDraft d = .ok s) :
    List.Forall₂ (fun e d => Element.ofDraft d = .ok e) s.elements
      (Screen.authoredElements d) := by
  have hpart : elementsPart ∈ Screen.parts := by simp [Screen.parts]
  have htold := Screen.parts_lawful.record_get hpart h
  rw [← Screen.fieldNames_eq, show elementsPart.name = "elements" from rfl] at htold
  unfold authoredElements
  cases hfield : d.field? Screen.fieldNames "elements" with
  | none =>
    rw [hfield] at htold
    rw [show s.elements = [] from htold]
    exact .nil
  | some items =>
    rw [hfield] at htold
    exact Json.listOf_ok htold

/-- The screens of a book are read one by one from those that are authored. -/
theorem Book.screen_of_ofDraft {d : Draft} {b : Book} (h : Book.ofDraft d = .ok b) (id : String) :
    Option.Rel (fun s d => Screen.ofDraft d = .ok s) (b.screen? id) (Book.authored? d id) := by
  have hpart : screensPart ∈ Book.parts := by simp [Book.parts]
  have htold := Book.parts_lawful.record_get hpart h
  unfold authored? screen?
  rw [← Book.fieldNames_eq, show screensPart.name = "screens" from rfl] at htold
  cases hfield : d.field? Book.fieldNames "screens" with
  | none =>
    rw [hfield] at htold
    rw [show b.screens = .empty from htold]
    exact .none
  | some screens =>
    rw [hfield] at htold
    exact Json.dictOf_ok htold id

theorem Book.ofDraft_of_decode {locator text : String} {b : Book}
    (hformat : BookFormat.ofLocator locator = .json) (h : Book.decode locator text = .ok b) :
    Book.ofDraft (Document.read text).draft = .ok b := by
  rw [Book.decode, hformat] at h
  dsimp only at h
  cases hbook : Book.ofJsonText text with
  | error problem =>
    rw [hbook] at h
    cases h
  | ok b' =>
    rw [hbook] at h
    obtain rfl : b' = b := Except.ok.inj h
    obtain ⟨b'', hdraft, htrailing⟩ := bind_eq_ok_iff.1 hbook
    split at htrailing
    · cases htrailing
    · cases htrailing
      exact hdraft

theorem Book.plain_of_ofDraft {d : Draft} {b : Book} (h : Book.ofDraft d = .ok b) : b.Plain := by
  intro id s hs e he
  have hscreen := Book.screen_of_ofDraft h id
  rw [hs] at hscreen
  obtain ⟨d', -, hread⟩ := exists_of_rel_some hscreen
  have hplain := (Screen.elements_of_ofDraft hread).imp fun e d hitem =>
    And.intro (Element.plain_of_ofDraft hitem) hitem
  exact ((List.forall₂_and_left _ _).1 hplain).1 e he

/-- **Books are encoded without loss.**  A book with plain layouts is read as it was written.
A book that is decoded from JSON is such a book, and its layouts hold what is authored. -/
theorem book_encoding_round_trips :
    (∀ b : Book, b.Plain → Book.ofDraft (Draft.ofJson b.toJson) = .ok b) ∧
    ∀ locator text b, BookFormat.ofLocator locator = .json → Book.decode locator text = .ok b →
      b.Plain ∧ ∀ id, Option.Rel
        (fun s d => List.Forall₂ Element.LaidOut s.elements (Screen.authoredElements d))
        (b.screen? id) (Book.authored? (Document.read text).draft id) := by
  refine ⟨fun b h => Book.ofDraft_toJson h, fun locator text b hformat h => ?_⟩
  have hread := Book.ofDraft_of_decode hformat h
  refine ⟨Book.plain_of_ofDraft hread, fun id => ?_⟩
  refine rel_imp (fun s d hscreen => ?_) (Book.screen_of_ofDraft hread id)
  exact (Screen.elements_of_ofDraft hscreen).imp fun e d he => Element.laidOut_of_ofDraft he

/-- A book of one screen with one label, of whose members the layout holds two. -/
def labelText : String :=
  "[\"a\", \x7b\"a\": \x7b\"elements\": [\x7b\"x\": 1, \"type\": \"label\", " ++
    "\"font\": [64, \x7b\"bold\": true\x7d], \"x\": \"center\"\x7d]\x7d\x7d]"

theorem label_round_trips :
    ∃ b, Book.decode "books/label.json" labelText = .ok b ∧
      (b.screen? "a").map (fun s => s.elements.map fun e => e.layout.keys) =
        some [["font", "x"]] ∧
      Book.ofDraft (Draft.ofJson b.toJson) = .ok b := by
  have hkeys : ((Book.decode "books/label.json" labelText).toOption.bind (·.screen? "a")).map
      (fun s => s.elements.map fun e => e.layout.keys) = some [["font", "x"]] := by
    decide +kernel
  cases hdecode : Book.decode "books/label.json" labelText with
  | error e => simp [hdecode, Except.toOption] at hkeys
  | ok b =>
    have hplain := (book_encoding_round_trips.2 _ _ b (by decide +kernel) hdecode).1
    refine ⟨b, rfl, ?_, book_encoding_round_trips.1 b hplain⟩
    simpa [hdecode, Except.toOption] using hkeys

end Gamebook
