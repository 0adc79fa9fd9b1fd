import Gamebook.Proofs.Book.RoundTrip
import Gamebook.Proofs.Json.Padded
import Gamebook.Proofs.Json.Reading
import Gamebook.Proofs.Session.History

/-!
# Payloads, written and read

An action has its tag among its members, and an event has its tag around them.  Both are read as
they were written, in whatever order the members stand (`Action.ofDraft_padded`,
`EventKind.ofDraft_padded`); but what is ignored among the members is refused beside the tag of an
event (`EventKind.ofDraft_of_second`).  An event is read by the parts that its kind has
(`EventKind.Tag.parts`).

That an event is recorded with the type of its kind needs no look at the calls: giving events the
types of their kinds is a change that no call notices (`Session.retyped_shift`).
-/

namespace Gamebook

open Json (Draft Lawful Padded)

/-! ### Events -/

namespace EventKind

/-- Whether the numbers of an event fit their fields. -/
def InRange : EventKind → Prop
  | bookLoaded _ _ screenCount _ => screenCount < UInt64.size
  | screenEntered _ => True
  | dialogueAdvanced _ index => index < UInt64.size
  | choicesPresented _ count => count < UInt64.size
  | countdownStarted _ seconds defaultIndex => seconds < UInt32.size ∧ defaultIndex < UInt64.size
  | countdownTicked _ remaining => remaining < UInt32.size
  | countdownExpired _ defaultIndex => defaultIndex < UInt64.size
  | choiceMade _ index _ _ => index < UInt64.size

namespace Fields

@[simp] def locatorPart : Json.Part Fields :=
  ⟨"locator", true, Draft.text, locator, fun v e => { e with locator := v }⟩

@[simp] def startPart : Json.Part Fields :=
  ⟨"start", true, Draft.text, start, fun v e => { e with start := v }⟩

@[simp] def screenCountPart : Json.Part Fields :=
  ⟨"screen_count", true, Draft.word64, screenCount, fun v e => { e with screenCount := v }⟩

@[simp] def versionHashPart : Json.Part Fields :=
  ⟨"version_hash", true, Draft.text, versionHash, fun v e => { e with versionHash := v }⟩

@[simp] def screenPart : Json.Part Fields :=
  ⟨"screen_id", true, Draft.text, screen, fun v e => { e with screen := v }⟩

@[simp] def indexPart : Json.Part Fields :=
  ⟨"index", true, Draft.word64, index, fun v e => { e with index := v }⟩

@[simp] def countPart : Json.Part Fields :=
  ⟨"count", true, Draft.word64, count, fun v e => { e with count := v }⟩

@[simp] def secondsPart : Json.Part Fields :=
  ⟨"seconds", true, Draft.word32, seconds, fun v e => { e with seconds := v }⟩

@[simp] def defaultIndexPart : Json.Part Fields :=
  ⟨"default_index", true, Draft.word64, defaultIndex, fun v e => { e with defaultIndex := v }⟩

@[simp] def remainingPart : Json.Part Fields :=
  ⟨"remaining", true, Draft.word32, remaining, fun v e => { e with remaining := v }⟩

@[simp] def nextPart : Json.Part Fields :=
  ⟨"next", true, Draft.text, next, fun v e => { e with next := v }⟩

@[simp] def timedPart : Json.Part Fields :=
  ⟨"timed", true, Draft.boolean, timed, fun v e => { e with timed := v }⟩

end Fields

open Fields in
/-- The parts that a kind of event has. -/
def Tag.parts : Tag → List (Json.Part Fields)
  | bookLoaded => [locatorPart, startPart, screenCountPart, versionHashPart]
  | screenEntered => [screenPart]
  | dialogueAdvanced => [screenPart, indexPart]
  | choicesPresented => [screenPart, countPart]
  | countdownStarted => [screenPart, secondsPart, defaultIndexPart]
  | countdownTicked => [screenPart, remainingPart]
  | countdownExpired => [screenPart, defaultIndexPart]
  | choiceMade => [screenPart, indexPart, nextPart, timedPart]

theorem Tag.fields_eq (tag : Tag) : tag.fields = tag.parts.map Json.Part.field := by
  cases tag <;> rfl

theorem Tag.parts_lawful (tag : Tag) : Lawful tag.parts := by
  cases tag <;> constructor <;> simp [parts]

/-- An event as the fields that its kind has. -/
def held : EventKind → Fields
  | bookLoaded locator start screenCount versionHash =>
    { Fields.blank with locator, start, screenCount, versionHash }
  | screenEntered screen => { Fields.blank with screen }
  | dialogueAdvanced screen index => { Fields.blank with screen, index }
  | choicesPresented screen count => { Fields.blank with screen, count }
  | countdownStarted screen seconds defaultIndex =>
    { Fields.blank with screen, seconds, defaultIndex }
  | countdownTicked screen remaining => { Fields.blank with screen, remaining }
  | countdownExpired screen defaultIndex => { Fields.blank with screen, defaultIndex }
  | choiceMade screen index next timed => { Fields.blank with screen, index, next, timed }

theorem build_of_parts {e : EventKind} {r : Fields}
    (h : ∀ p ∈ e.tag.parts, p.get r = p.get e.held) : e.tag.build r = e := by
  cases e <;> simpa [tag, Tag.parts, held, Tag.build] using h

/-- What an event is written as writes all its parts. -/
theorem content_reads {e : EventKind} (he : e.InRange) : ∀ p ∈ e.tag.parts,
    ∃ value, (p.name, value) ∈ e.content ∧ p.read (Draft.ofJson value) = .ok (p.get e.held) := by
  cases e with
  | bookLoaded _ _ screenCount _ => simp [tag, Tag.parts, content, held, Json.word64_ofJson he]
  | screenEntered screen => simp [tag, Tag.parts, content, held]
  | dialogueAdvanced screen index => simp [tag, Tag.parts, content, held, Json.word64_ofJson he]
  | choicesPresented screen count => simp [tag, Tag.parts, content, held, Json.word64_ofJson he]
  | countdownStarted screen seconds defaultIndex =>
    simp [tag, Tag.parts, content, held, Json.word32_ofJson he.1, Json.word64_ofJson he.2]
  | countdownTicked screen remaining => simp [tag, Tag.parts, content, held, Json.word32_ofJson he]
  | countdownExpired screen defaultIndex =>
    simp [tag, Tag.parts, content, held, Json.word64_ofJson he]
  | choiceMade screen index next timed =>
    simp [tag, Tag.parts, content, held, Json.word64_ofJson he]

theorem content_nodup (e : EventKind) : (e.content.map Prod.fst).Nodup := by
  cases e <;> simp [content]

/-! ### Reading -/

theorem toJson_eq (e : EventKind) :
    e.toJson = .object [(e.tag.name, .ofMembers e.content)] := rfl

theorem Tag.ofName_name (tag : Tag) : ofName tag.name = .ok tag := by
  cases tag <;> rfl

theorem Tag.name_ne_type (tag : Tag) : tag.name ≠ "type" := by
  cases tag <;> decide

/-- **An event is read as it was written**, also with the members of its content in another order
and others among them. -/
theorem ofDraft_padded {e : EventKind} (he : e.InRange) {content' : Json}
    (hcontent : Padded (.ofMembers e.content) content') :
    ofDraft (Draft.ofJson (.object [(e.tag.name, content')])) = .ok e := by
  have hreads : ∀ p ∈ e.tag.parts, ∃ value, (p.name, value) ∈ (Dict.ofList e.content).entries ∧
      p.read (Draft.ofJson value) = .ok (p.get e.held) := by
    intro p hp
    obtain ⟨value, hvalue, hread⟩ := content_reads he p hp
    exact ⟨value, (Dict.entries_ofList_perm e.content_nodup).mem_iff.2 hvalue, hread⟩
  obtain ⟨r, hr, hparts⟩ := e.tag.parts_lawful.openRecord_padded (Dict.nodup_keys _) hreads
    hcontent e.tag.name Fields.blank
  have hrecord : (Draft.ofJson content').record e.tag.name e.tag.fields .blank = .ok r := by
    rw [Tag.fields_eq]
    cases hcontent
    exact hr
  have hevent : (do
      let fields ← (Draft.ofJson content').record e.tag.name e.tag.fields .blank
      return e.tag.build fields) = Except.ok (ε := Json.Problem) e := by
    rw [hrecord, ok_bind, build_of_parts hparts]
    rfl
  refine bind_eq_ok_iff.2 ⟨e.tag.name, rfl, ?_⟩
  refine bind_eq_ok_iff.2 ⟨e.tag, Tag.ofName_name e.tag, ?_⟩
  exact bind_eq_ok_iff.2 ⟨e, hevent, rfl⟩

/-- **A second member beside the content is refused**, whatever the two are. -/
theorem ofDraft_of_second {members : List (String × Json)} (h : 1 < members.length) :
    ∃ problem, ofDraft (Draft.ofJson (.object members)) = .error problem := by
  cases members with
  | nil => simp at h
  | cons m rest =>
    cases rest with
    | nil => simp at h
    | cons n rest =>
      cases hread : ofDraft (Draft.ofJson (.object (m :: n :: rest))) with
      | error problem => exact ⟨problem, rfl⟩
      | ok e =>
        obtain ⟨_, _, hname⟩ := bind_eq_ok_iff.1 hread
        obtain ⟨_, _, hcontent⟩ := bind_eq_ok_iff.1 hname
        obtain ⟨_, _, hfail⟩ := bind_eq_ok_iff.1 hcontent
        cases hfail

theorem ofDraft_action {a : Action} {j : Json} (hj : Padded a.toJson j) :
    ∃ problem, ofDraft (Draft.ofJson j) = .error problem := by
  have hread := Action.ofDraft_padded hj
  obtain ⟨written, hwritten⟩ := a.exists_toJson
  rw [hwritten] at hj
  cases hj with
  | @object _ extra members hperm hnames =>
    obtain ⟨_, htagged, _⟩ := bind_eq_ok_iff.1 hread
    have htype := Json.Schema.mem_of_tagged htagged
    rcases members with _ | ⟨⟨name, value⟩, _ | ⟨n, rest⟩⟩
    · cases htype
    · obtain rfl : "type" = name := by simpa using htype
      exact ⟨_, rfl⟩
    · exact ofDraft_of_second (by simp)

end EventKind

theorem Action.ofDraft_event (e : EventKind) (content : Json) :
    ∃ problem, Action.ofDraft (Draft.ofJson (.object [(e.tag.name, content)])) = .error problem := by
  have htype : "type" ∉ [(e.tag.name, content)].map Prod.fst := by
    simpa using (EventKind.Tag.name_ne_type e.tag).symm
  cases hread : Action.ofDraft (Draft.ofJson (.object [(e.tag.name, content)])) with
  | error problem => exact ⟨problem, rfl⟩
  | ok a =>
    obtain ⟨_, htagged, _⟩ := bind_eq_ok_iff.1 hread
    exact absurd (Json.Schema.mem_of_tagged htagged) htype

/-! ### The type of an event -/

/-- The name of a variant in small letters, with a low line before each word but the first. -/
def snakeCase (name : String) : String :=
  String.ofList ((name.toList.flatMap fun c => if c.isUpper then ['_', c.toLower] else [c]).drop 1)

/-- The type that belongs to a variant. -/
def EventKind.typeOfVariant (variant : String) : String := "narrative." ++ snakeCase variant

theorem EventKind.typeName_eq (e : EventKind) : e.typeName = typeOfVariant e.tag.name := by
  rw [← String.toList_inj, typeOfVariant, snakeCase, String.toList_append, String.toList_ofList]
  cases e <;> simp [typeName, tag, Tag.name]

/-- The event with the type that its kind has. -/
def Event.retyped (e : Event) : Event := { e with type := e.kind.typeName }

namespace Session

def retyped (s : Session) : Session := { s with pending := s.pending.map Event.retyped }

theorem retyped_shift (w : Outside) : Shift 0 w w retyped where
  fetch := rfl
  state _ _ := rfl
  beginCall _ := rfl
  record kind s := by simp [record, retyped, Event.retyped]
  preloaded _ _ := rfl
  fetched _ _ := rfl

theorem type_of_recorded {w : Outside} {s : Session} {c : Call} {e : Event}
    (he : e ∈ s.recorded w c) : e.type = e.kind.typeName := by
  have hretyped : ((ofState s.state).perform w c).1.pending.map Event.retyped =
      ((ofState s.state).perform w c).1.pending := by
    have hperform := (retyped_shift w).perform c (ofState s.state)
    have hstart : (ofState s.state).retyped = ofState s.state := rfl
    rw [hstart] at hperform
    exact (congrArg (fun r => r.1.pending) hperform).symm
  rw [recorded_eq, ← hretyped, List.map_map] at he
  obtain ⟨e', _, rfl⟩ := List.mem_map.1 he
  rfl

end Session

/-! ### Payloads -/

/-- Whether an action, and no event, is read from a value and from every text that spells it. -/
structure Action.ReadFrom (a : Action) (j : Json) : Prop where
  value : ofDraft (Draft.ofJson j) = .ok a
  text : ∀ text, Json.Spells (.element j) text.toList → Json.Within Json.nestingLimit j →
    ofJsonText text = .ok a
  apart : ∃ problem, EventKind.ofDraft (Draft.ofJson j) = .error problem

/-- Whether an event, and no action, is read from a value and from every text that spells it. -/
structure EventKind.ReadFrom (e : EventKind) (j : Json) : Prop where
  value : ofDraft (Draft.ofJson j) = .ok e
  text : ∀ text, Json.Spells (.element j) text.toList → Json.Within Json.nestingLimit j →
    ofJsonText text = .ok e
  apart : ∃ problem, Action.ofDraft (Draft.ofJson j) = .error problem

theorem Action.readFrom_of_padded {a : Action} {j : Json} (hj : Padded a.toJson j) :
    a.ReadFrom j where
  value := ofDraft_padded hj
  text _ htext hdepth := (Json.Document.decode_of_spells _ htext hdepth).trans (ofDraft_padded hj)
  apart := EventKind.ofDraft_action hj

theorem EventKind.readFrom_of_padded {e : EventKind} (he : e.InRange) {content : Json}
    (hcontent : Padded (.ofMembers e.content) content) :
    e.ReadFrom (.object [(e.tag.name, content)]) where
  value := ofDraft_padded he hcontent
  text _ htext hdepth :=
    (Json.Document.decode_of_spells _ htext hdepth).trans (ofDraft_padded he hcontent)
  apart := Action.ofDraft_event e content

/-- **Payloads are read as they were written, and are told apart.**  Actions and events, with
whatever texts and numbers their fields can have, are read from what they are written as, and also
where the members of an action, or of the content of an event, stand in another order with others
among them.  Beside the content of an event there may be nothing.  And every event is recorded with
the type that belongs to the variant it is written as. -/
theorem payloads_round_trip :
    (∀ a : Action, a.ReadFrom a.toJson ∧ ∀ j, Padded a.toJson j → a.ReadFrom j) ∧
    (∀ e : EventKind, e.InRange → e.toJson = .object [(e.tag.name, .ofMembers e.content)] ∧
      e.ReadFrom e.toJson ∧
      ∀ content, Padded (.ofMembers e.content) content →
        e.ReadFrom (.object [(e.tag.name, content)])) ∧
    (∀ members : List (String × Json), 1 < members.length →
      ∃ problem, EventKind.ofDraft (Draft.ofJson (.object members)) = .error problem) ∧
    ∀ (w : Outside) (s : Session) (c : Call), ∀ e ∈ s.recorded w c, ∃ variant content,
      e.kind.toJson = .object [(variant, content)] ∧ e.type = EventKind.typeOfVariant variant := by
  refine ⟨fun a => ⟨?_, fun j => Action.readFrom_of_padded⟩, fun e he => ⟨e.toJson_eq, ?_, ?_⟩,
    fun members => EventKind.ofDraft_of_second, fun w s c e he => ?_⟩
  · obtain ⟨members, hmembers⟩ := a.exists_toJson
    apply Action.readFrom_of_padded
    rw [hmembers]
    exact .refl members
  · exact EventKind.readFrom_of_padded he (.refl _)
  · exact fun content => EventKind.readFrom_of_padded he
  · refine ⟨e.kind.tag.name, .ofMembers e.kind.content, e.kind.toJson_eq, ?_⟩
    rw [Session.type_of_recorded he, EventKind.typeName_eq]

/-- A choice is read with its members the other way round and a note before them. -/
theorem choice_reads_with_note :
    let e := EventKind.choiceMade "inn" 1 "hall" true
    e.InRange ∧
      e.ReadFrom (.object [("ChoiceMade", .object [("note", .null), ("timed", .bool true),
        ("next", .string "hall"), ("index", .int 1), ("screen_id", .string "inn")])]) := by
  intro e
  have he : e.InRange := show 1 < UInt64.size by decide
  have hsorted := Dict.entries_ofList_perm e.content_nodup
  have hnote : ∀ m ∈ [("note", Json.null)], m.1 ∉ (Dict.ofList e.content).entries.map Prod.fst := by
    intro m hm hname
    rw [(hsorted.map Prod.fst).mem_iff, List.mem_singleton.1 hm] at hname
    simp [e, EventKind.content] at hname
  have hpadded : Padded (.ofMembers e.content)
      (.object (e.content ++ [("note", Json.null)]).reverse) :=
    .object ((List.reverse_perm _).trans (hsorted.symm.append_right _)) hnote
  exact ⟨he, (payloads_round_trip.2.1 e he).2.2 _ hpadded⟩

end Gamebook
