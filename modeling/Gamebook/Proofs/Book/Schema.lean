import Gamebook.Book.Loading
import Gamebook.Proofs.Json.Reading
import Gamebook.Proofs.Json.Schema

/-!
# Which JSON texts are books

The schema of a book, type by type in the order of their nesting, each with the lemma that
it describes the decoder of that type (`Schema.Describes`).  With the reader following the
grammar (`Document.read_of_spells`) a text is decoded just when the value that it spells
fits (`json_decoded_iff_fits`).

Left out are values that write a record as a list or a kind as an object, which the
decoder takes in part, and objects that repeat a key.
-/

namespace Gamebook

open Json (Schema Draft NeedsNoEscape spells_element spells_member spells_string)
open Json.Schema Json.Schema.Member

/-! ### The schema -/

def Line.schema : Schema := .record [⟨"speaker", true, .text⟩, ⟨"text", true, .text⟩]

def Choice.schema : Schema := .record [⟨"text", true, .text⟩, ⟨"next", true, .text⟩]

def TimedChoices.schema : Schema :=
  .record [⟨"time", false, .natural UInt32.size⟩, ⟨"defaultIndex", false, .natural UInt64.size⟩,
    ⟨"options", false, .listOf Choice.schema⟩]

def Action.schema : Schema :=
  .tagged "type" [("navigate", [⟨"screen", true, .text⟩]), ("loadBook", [⟨"path", true, .text⟩]),
    ("advance", [])]

def Element.schema : Schema :=
  .record [⟨"type", false, .kind⟩, ⟨"text", false, .text⟩,
    ⟨"action", false, .orNull Action.schema⟩]

def Screen.schema : Schema :=
  .record [⟨"type", false, .kind⟩, ⟨"background", false, .orNull .text⟩,
    ⟨"cover", false, .orNull .text⟩, ⟨"dialogue", false, .orNull (.listOf Line.schema)⟩,
    ⟨"next", false, .orNull .text⟩, ⟨"action", false, .orNull Action.schema⟩,
    ⟨"elements", false, .listOf Element.schema⟩,
    ⟨"choices", false, .orNull (.listOf Choice.schema)⟩,
    ⟨"timedChoices", false, .orNull TimedChoices.schema⟩]

def Book.schema : Schema :=
  .record [⟨"start", true, .text⟩, ⟨"screens", false, .dictOf Screen.schema⟩]

/-! ### What it describes -/

theorem Line.schema_describes : Line.schema.Describes Line.ofDraft :=
  record_describes
    (.cons (needed_describes _ text_describes _) (.cons (needed_describes _ text_describes _) .nil))
    (by decide) _ _

theorem Choice.schema_describes : Choice.schema.Describes Choice.ofDraft :=
  record_describes
    (.cons (needed_describes _ text_describes _) (.cons (needed_describes _ text_describes _) .nil))
    (by decide) _ _

theorem TimedChoices.schema_describes : TimedChoices.schema.Describes TimedChoices.ofDraft :=
  record_describes
    (.cons (optional_describes _ (natural_describes _ _) _)
      (.cons (optional_describes _ (natural_describes _ _) _)
        (.cons (optional_describes _ (listOf_describes Choice.schema_describes) _) .nil)))
    (by decide) _ _

theorem kind_describes : Schema.kind.Describes kindName := by
  intro j _ hplain
  cases j with
  | string s => exact iff_of_true ⟨s, rfl⟩ ⟨s, rfl⟩
  | object l => exact absurd rfl (hplain l)
  | _ => exact iff_of_false nofun nofun

theorem Action.mem_of_readTag {s : String} {t : Tag} (h : readTag s = .ok t) :
    s ∈ ["navigate", "loadBook", "advance"] := by
  unfold readTag at h
  split at h
  · simp
  · simp
  · simp
  · nomatch h

theorem Action.schema_describes : Action.schema.Describes Action.ofDraft := by
  refine tagged_describes (fun c hc => ?_) (fun s t => mem_of_readTag) _
  simp only [List.mem_cons, List.not_mem_nil, or_false] at hc
  rcases hc with rfl | rfl | rfl
  · exact .of_record (by decide) rfl (.cons (needed_describes _ text_describes _) .nil) (by decide)
      fun _ => rfl
  · exact .of_record (by decide) rfl (.cons (needed_describes _ text_describes _) .nil) (by decide)
      fun _ => rfl
  · exact .of_record (by decide) rfl .nil (by decide) fun _ => rfl

theorem Element.schema_describes : Element.schema.Describes Element.ofDraft := by
  refine openRecord_describes
    (.cons (optional_describes _ (kind_describes.map ElementKind.ofName) _)
      (.cons (optional_describes _ text_describes _)
        (.cons (optional_describes _ (orNull_describes Action.schema_describes) _) .nil)))
    (by decide) (fun k j => ?_) _ _
  obtain ⟨kept, hkeep⟩ := Draft.exists_keep_ofJson j
  exact ⟨_, bind_eq_ok_iff.2 ⟨kept, hkeep, rfl⟩⟩

theorem Screen.schema_describes : Screen.schema.Describes Screen.ofDraft :=
  record_describes
    (.cons (optional_describes _ (kind_describes.map ScreenKind.ofName) _)
      (.cons (optional_describes _ (orNull_describes text_describes) _)
      (.cons (optional_describes _ (orNull_describes text_describes) _)
      (.cons (optional_describes _ (orNull_describes (listOf_describes Line.schema_describes)) _)
      (.cons (optional_describes _ (orNull_describes text_describes) _)
      (.cons (optional_describes _ (orNull_describes Action.schema_describes) _)
      (.cons (optional_describes _ (listOf_describes Element.schema_describes) _)
      (.cons (optional_describes _ (orNull_describes (listOf_describes Choice.schema_describes)) _)
      (.cons (optional_describes _ (orNull_describes TimedChoices.schema_describes) _)
        .nil)))))))))
    (by decide) _ _

theorem Book.schema_describes : Book.schema.Describes Book.ofDraft :=
  record_describes
    (.cons (needed_describes _ text_describes _)
      (.cons (optional_describes _ (dictOf_describes Screen.schema_describes) _) .nil))
    (by decide) _ _

/-! ### Texts -/

/-- A text that spells a value is decoded as the value's draft is. -/
theorem exists_book_iff {locator text : String} {j : Json}
    (hlocator : BookFormat.ofLocator locator = .json)
    (htext : Json.Spells (.element j) text.toList) (hdepth : Json.Within Json.nestingLimit j) :
    (∃ book, Book.decode locator text = .ok book) ↔
      ∃ book, Book.ofDraft (Draft.ofJson j) = .ok book := by
  have hread : Book.ofJsonText text = Book.ofDraft (Draft.ofJson j) :=
    Json.Document.decode_of_spells Book.ofDraft htext hdepth
  unfold Book.decode
  rw [hlocator, hread]
  cases Book.ofDraft (Draft.ofJson j) with
  | error problem => exact iff_of_false nofun nofun
  | ok book => exact iff_of_true ⟨book, rfl⟩ ⟨book, rfl⟩

/-- **A JSON text is a book just when it fits the schema of a book**, in whatever order its members
stand.  The text is any that spells a value: one that is nested no deeper than may be, that has no
key twice in an object, and that writes no record as a list and no kind as an object. -/
theorem json_decoded_iff_fits {locator text : String} {j : Json}
    (hlocator : BookFormat.ofLocator locator = .json)
    (htext : Json.Spells (.element j) text.toList) (hdepth : Json.Within Json.nestingLimit j)
    (hkeys : j.Distinct) (hplain : Book.schema.plain j) :
    (∃ book, Book.decode locator text = .ok book) ↔ Book.schema.fits j :=
  (exists_book_iff hlocator htext hdepth).trans (Book.schema_describes j hkeys hplain)

/-- A document with a start, and one with nothing in its place. -/
def hallDocument : Json := .object [("notes", .null), ("start", .string "hall")]

def startlessDocument : Json := .object [("start", .null)]

/-- A member of another name may stand before the start, but null not in its place. -/
theorem json_decoded_hall :
    (∃ book, Book.decode "hall.json" "\x7b\"notes\":null,\"start\":\"hall\"\x7d" = .ok book) ∧
      ¬∃ book, Book.decode "hall.json" "\x7b\"start\":null\x7d" = .ok book := by
  have hstart : NeedsNoEscape "start".toList := by simp [NeedsNoEscape]
  have hhall : Json.Spells (.element hallDocument)
      "\x7b\"notes\":null,\"start\":\"hall\"\x7d".toList :=
    spells_element (.object (.moreMembers (spells_member (by simp [NeedsNoEscape]) .null)
      (.lastMember (spells_member hstart (spells_string (by simp [NeedsNoEscape]))))))
  have hstartless : Json.Spells (.element startlessDocument) "\x7b\"start\":null\x7d".toList :=
    spells_element (.object (.lastMember (spells_member hstart .null)))
  have hlocator : BookFormat.ofLocator "hall.json" = .json := by decide +kernel
  constructor
  · refine (json_decoded_iff_fits hlocator hhall (.object ?_) (.object (by decide) ?_) ?_).2 ?_
    · exact List.forall_mem_cons.2 ⟨.null, List.forall_mem_singleton.2 (.string _)⟩
    · exact List.forall_mem_cons.2 ⟨.null, List.forall_mem_singleton.2 (.string _)⟩
    · simp [Book.schema, hallDocument, record, dictOf, text, Member.Plain]
    · simp [Book.schema, hallDocument, record, dictOf, text, Member.Fit]
  · rw [json_decoded_iff_fits hlocator hstartless (.object ?_) (.object (by decide) ?_) ?_]
    · simp [Book.schema, startlessDocument, record, dictOf, text, Member.Fit]
    · exact List.forall_mem_singleton.2 .null
    · exact List.forall_mem_singleton.2 .null
    · simp [Book.schema, startlessDocument, record, dictOf, text, Member.Plain]

end Gamebook
