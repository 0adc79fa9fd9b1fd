import Gamebook.Book.Codec
import Gamebook.Proofs.Json.Padded
import Gamebook.Proofs.Json.Values

/-!
# Books read as they are written

A book with plain layouts is read as it was written (`Book.ofDraft_toJson`).  Records are
told by their parts, each with its own name, reading and place (`Book.parts`,
`Screen.parts` and so on), and a part is written by what it is read from.  An element has
one thing more, its layout, which takes up whatever members the parts leave
(`Element.layout_own`, `Element.layout_other`).
-/

namespace Gamebook

open Json (Draft Lawful Told)

namespace Json

@[simp] theorem last?_entry (key name : String) (value : Json) :
    Dict.last? key (entry name value) = if name = key then some value else none := by
  simp [entry]

@[simp] theorem last?_entry? (key name : String) (value : Option Json) :
    Dict.last? key ( entry? name value) = if name = key then value else none := by
  unfold entry?
  cases value <;> simp

end Json

/-! ### The parts of records -/

def Line.parts : List (Json.Part Line) :=
  [⟨"speaker", true, Draft.text, Line.speaker, fun v l => { l with speaker := v }⟩,
    ⟨"text", true, Draft.text, Line.text, fun v l => { l with text := v }⟩]

def Choice.parts : List (Json.Part Choice) :=
  [⟨"text", true, Draft.text, Choice.text, fun v c => { c with text := v }⟩,
    ⟨"next", true, Draft.text, Choice.next, fun v c => { c with next := v }⟩]

def TimedChoices.parts : List (Json.Part TimedChoices) :=
  [⟨"time", false, fun d => Nat.toUInt32 <$> d.word32, TimedChoices.time,
      fun v t => { t with time := v }⟩,
    ⟨"defaultIndex", false, fun d => Nat.toUInt64 <$> d.word64, TimedChoices.defaultIndex,
      fun v t => { t with defaultIndex := v }⟩,
    ⟨"options", false, Draft.listOf Choice.ofDraft, TimedChoices.options,
      fun v t => { t with options := v }⟩]

/-- The parts of an element apart from its layout. -/
def Element.parts : List (Json.Part Element) :=
  [⟨"type", false, ElementKind.ofDraft, Element.kind, fun v e => { e with kind := v }⟩,
    ⟨"text", false, Draft.text, Element.text, fun v e => { e with text := v }⟩,
    ⟨"action", false, Draft.optional Action.ofDraft, Element.action,
      fun v e => { e with action := v }⟩]

def Screen.elementsPart : Json.Part Screen :=
  ⟨"elements", false, Draft.listOf Element.ofDraft, Screen.elements,
    fun v s => { s with elements := v }⟩

def Screen.parts : List (Json.Part Screen) :=
  [⟨"type", false, ScreenKind.ofDraft, Screen.kind, fun v s => { s with kind := v }⟩,
    ⟨"background", false, Draft.optional Draft.text, Screen.background,
      fun v s => { s with background := v }⟩,
    ⟨"cover", false, Draft.optional Draft.text, Screen.cover, fun v s => { s with cover := v }⟩,
    ⟨"dialogue", false, Draft.optional (Draft.listOf Line.ofDraft), Screen.dialogue,
      fun v s => { s with dialogue := v }⟩,
    ⟨"next", false, Draft.optional Draft.text, Screen.next, fun v s => { s with next := v }⟩,
    ⟨"action", false, Draft.optional Action.ofDraft, Screen.action,
      fun v s => { s with action := v }⟩,
    elementsPart,
    ⟨"choices", false, Draft.optional (Draft.listOf Choice.ofDraft), Screen.choices,
      fun v s => { s with choices := v }⟩,
    ⟨"timedChoices", false, Draft.optional TimedChoices.ofDraft, Screen.timedChoices,
      fun v s => { s with timedChoices := v }⟩]

def Book.screensPart : Json.Part Book :=
  ⟨"screens", false, Draft.dictOf Screen.ofDraft, Book.screens, fun v b => { b with screens := v }⟩

def Book.parts : List (Json.Part Book) :=
  [⟨"start", true, Draft.text, Book.start, fun v b => { b with start := v }⟩, screensPart]

theorem Line.parts_lawful : Lawful Line.parts := by
  constructor <;> simp [Line.parts]

theorem Choice.parts_lawful : Lawful Choice.parts := by
  constructor <;> simp [Choice.parts]

theorem TimedChoices.parts_lawful : Lawful TimedChoices.parts := by
  constructor <;> simp [TimedChoices.parts]

theorem Element.parts_lawful : Lawful Element.parts := by
  constructor <;> simp [Element.parts]

theorem Screen.parts_lawful : Lawful Screen.parts := by
  constructor <;> simp [Screen.parts, Screen.elementsPart]

theorem Book.parts_lawful : Lawful Book.parts := by
  constructor <;> simp [Book.parts, Book.screensPart]

/-! ### Written and read again -/

theorem Line.ofDraft_toJson (l : Line) : Line.ofDraft (Draft.ofJson l.toJson) = .ok l := by
  obtain ⟨speaker, text⟩ := l
  refine Line.parts_lawful.record_writes "DialogueLine" ?_ ?_
  · simp [Line.parts, Dict.find?_ofList, Json.Part.Writes]
  · rintro ⟨⟩ h
    simpa [Line.parts] using h

theorem Choice.ofDraft_toJson (c : Choice) : Choice.ofDraft (Draft.ofJson c.toJson) = .ok c := by
  obtain ⟨text, next⟩ := c
  refine Choice.parts_lawful.record_writes "Choice" ?_ ?_
  · simp [Choice.parts, Dict.find?_ofList, Json.Part.Writes]
  · rintro ⟨⟩ h
    simpa [Choice.parts] using h

theorem TimedChoices.ofDraft_eq :
    TimedChoices.ofDraft =
      Draft.record "TimedChoiceSpec" (TimedChoices.parts.map Json.Part.field) .blank := by
  have htime (d : Draft) : (d.word32 >>= fun v =>
      pure fun t : TimedChoices => { t with time := v.toUInt32 }) =
      (Nat.toUInt32 <$> d.word32 >>= fun v => pure fun t => { t with time := v }) := by
    rw [map_eq_pure_bind, bind_assoc]
    rfl
  have hindex (d : Draft) : (d.word64 >>= fun v =>
      pure fun t : TimedChoices => { t with defaultIndex := v.toUInt64 }) =
      (Nat.toUInt64 <$> d.word64 >>= fun v => pure fun t => { t with defaultIndex := v }) := by
    rw [map_eq_pure_bind, bind_assoc]
    rfl
  unfold TimedChoices.ofDraft
  simp only [Json.Field.optional, Json.Field.needed, htime, hindex]
  rfl

theorem TimedChoices.ofDraft_toJson (t : TimedChoices) :
    TimedChoices.ofDraft (Draft.ofJson t.toJson) = .ok t := by
  obtain ⟨time, defaultIndex, options⟩ := t
  have htime : Nat.toUInt32 <$> Draft.word32 (Draft.ofJson (.int time.toNat)) = .ok time := by
    rw [Json.word32_ofJson time.toNat_lt]
    exact congrArg Except.ok UInt32.ofNat_toNat
  have hindex :
      Nat.toUInt64 <$> Draft.word64 (Draft.ofJson (.int defaultIndex.toNat)) =
        .ok defaultIndex := by
    rw [Json.word64_ofJson defaultIndex.toNat_lt]
    exact congrArg Except.ok UInt64.ofNat_toNat
  rw [TimedChoices.ofDraft_eq]
  refine TimedChoices.parts_lawful.record_writes "TimedChoiceSpec" ?_ ?_
  · simp [TimedChoices.parts, Dict.find?_ofList, Json.Part.Writes, htime, hindex,
      Json.listOf_ofJson fun c _ => Choice.ofDraft_toJson c]
  · rintro ⟨⟩ h
    simpa [TimedChoices.parts] using h

theorem ElementKind.ofDraft_name (k : ElementKind) :
    ElementKind.ofDraft (Draft.ofJson (.string k.name)) = .ok k := by
  cases k <;> rfl

theorem ScreenKind.ofDraft_name (k : ScreenKind) :
    ScreenKind.ofDraft (Draft.ofJson (.string k.name)) = .ok k := by
  cases k <;> rfl

/-! ### Actions -/

namespace Action

theorem toJson_navigate (screen : String) : (navigate screen).toJson =
    .object [("screen", .string screen), ("type", .string "navigate")] := by
  have hlt : "screen" < "type" := by decide
  simp only [toJson, Json.ofMembers, Dict.ofList, Dict.insert, Dict.put, Dict.empty, List.foldl,
    hlt, if_true]

theorem toJson_loadBook (path : String) : (loadBook path).toJson =
    .object [("path", .string path), ("type", .string "loadBook")] := by
  have hlt : "path" < "type" := by decide
  simp only [toJson, Json.ofMembers, Dict.ofList, Dict.insert, Dict.put, Dict.empty, List.foldl,
    hlt, if_true]

/-- A text that is all of a record. -/
def soleText (name : String) : Json.Part String := ⟨name, true, Draft.text, id, fun v _ => v⟩

theorem record_soleText {name text : String} {rest : List (String × Json)}
    (h : Json.Padded (.object [(name, .string text)]) (.object rest)) (owner : String) :
    (Json.Schema.beside rest).record owner [(soleText name).field] "" = .ok text := by
  have hlawful : Lawful [soleText name] := by constructor <;> simp [soleText]
  have hreads : ∀ p ∈ [soleText name], ∃ value, (p.name, value) ∈ [(name, Json.string text)] ∧
      p.read (Draft.ofJson value) = .ok (p.get text) := by
    simp [soleText]
  obtain ⟨r, hr, hparts⟩ := hlawful.openRecord_padded (by simp) hreads h owner ""
  have heq : r = text := hparts _ List.mem_cons_self
  rw [Json.Schema.record_beside rest owner owner ""]
  exact hr.trans (congrArg Except.ok heq)

/-- **An action is read as it was written**, also with its members in another order and others
among them. -/
theorem ofDraft_padded {a : Action} {j : Json} (hj : Json.Padded a.toJson j) :
    ofDraft (Draft.ofJson j) = .ok a := by
  unfold ofDraft
  cases a with
  | navigate screen =>
    rw [toJson_navigate] at hj
    obtain ⟨rest, hrest, htagged⟩ := Json.tagged_padded (Draft.variantName readTag)
      [("screen", .string screen)] [] (by simp) hj "Action"
    have hcontent := record_soleText hrest "struct variant Action::Navigate"
    refine bind_eq_ok_iff.2 ⟨(.navigate, Json.Schema.beside rest), htagged, ?_⟩
    exact bind_eq_ok_iff.2 ⟨screen, hcontent, rfl⟩
  | loadBook path =>
    rw [toJson_loadBook] at hj
    obtain ⟨rest, hrest, htagged⟩ := Json.tagged_padded (Draft.variantName readTag)
      [("path", .string path)] [] (by simp) hj "Action"
    have hcontent := record_soleText hrest "struct variant Action::LoadBook"
    refine bind_eq_ok_iff.2 ⟨(.loadBook, Json.Schema.beside rest), htagged, ?_⟩
    exact bind_eq_ok_iff.2 ⟨path, hcontent, rfl⟩
  | advance =>
    obtain ⟨rest, hrest, htagged⟩ := Json.tagged_padded (Draft.variantName readTag) [] []
      (by simp) hj "Action"
    have hnone : Lawful ([] : List (Json.Part Unit)) := by constructor <;> simp
    obtain ⟨r, hr, _⟩ := hnone.openRecord_padded (r := ()) (by simp) nofun hrest "" ()
    have hcontent : (Json.Schema.beside rest).record "" [] () = .ok r :=
      (Json.Schema.record_beside rest "" "" ()).trans hr
    refine bind_eq_ok_iff.2 ⟨(.advance, Json.Schema.beside rest), htagged, ?_⟩
    exact bind_eq_ok_iff.2 ⟨r, hcontent, rfl⟩

theorem exists_toJson (a : Action) : ∃ members, a.toJson = .object members := by
  cases a <;> exact ⟨_, rfl⟩

theorem ofDraft_toJson (a : Action) : ofDraft (Draft.ofJson a.toJson) = .ok a := by
  obtain ⟨members, hmembers⟩ := a.exists_toJson
  apply ofDraft_padded
  rw [hmembers]
  exact .refl members

end Action

theorem Action.toJson_ne_null (a : Action) : a.toJson ≠ .null := by
  cases a <;> exact nofun

/-! ### Elements -/

/-- The members that an element reads itself, and its layout does not hold. -/
def Element.ownNames : List String := ["type", "text", "action"]

theorem Element.ownNames_eq : Element.ownNames = Element.parts.map Json.Part.name := rfl

theorem Element.mem_ownNames {name : String} :
    name ∈ Element.ownNames ↔ ∃ p ∈ Element.parts, p.name = name := by
  rw [Element.ownNames_eq, List.mem_map]

/-- Whether a layout holds no member that the element reads itself, and only values whose
objects list their members in the order of their keys, as all values do that are read. -/
structure Element.Plain (e : Element) : Prop where
  own : ∀ name ∈ Element.ownNames, e.layout.find? name = none
  normal : ∀ entry ∈ e.layout.entries, entry.2.Normal

/-- The treatment of the members that an element does not read itself. -/
def Element.keepInLayout : Json.Extra Element := fun name d => do
  let value ← d.keep
  return fun e => { e with layout := e.layout.insert name value }

namespace Element

theorem keepInLayout_ok {k : String} {d : Draft} {c : Element → Element}
    (h : keepInLayout k d = .ok c) :
    ∃ value, d.keep = .ok value ∧
      c = fun e => { e with layout := e.layout.insert k value } := by
  obtain ⟨value, hvalue, hpure⟩ := bind_eq_ok_iff.1 h
  cases hpure
  exact ⟨value, hvalue, rfl⟩

theorem set_layout : ∀ p ∈ parts, ∀ v e, (p.set v e).layout = e.layout := by
  simp [parts]

theorem get_withLayout :
    ∀ p ∈ parts, ∀ layout e, p.get { e with layout := layout } = p.get e := by
  simp [parts]

/-- How a member changes the layout: not at all, or by what is kept under its name. -/
theorem change_layout {k : String} {d : Draft} {c : Element → Element}
    (h : Json.change (parts.map Json.Part.field) keepInLayout k d = .ok c) :
    (k ∈ ownNames ∧ ∀ e, (c e).layout = e.layout) ∨
      k ∉ ownNames ∧ ∃ value, d.keep = .ok value ∧ ∀ e, (c e).layout = e.layout.insert k value := by
  by_cases hk : k ∈ ownNames
  · refine Or.inl ⟨hk, ?_⟩
    obtain ⟨p, hp, rfl⟩ := mem_ownNames.1 hk
    rw [parts_lawful.change_of_mem hp] at h
    obtain ⟨v, -, hpure⟩ := bind_eq_ok_iff.1 h
    cases hpure
    exact set_layout p hp v
  · refine Or.inr ⟨hk, ?_⟩
    rw [Lawful.change_of_forall_ne fun p hp hname => hk (mem_ownNames.2 ⟨p, hp, hname⟩)] at h
    obtain ⟨value, hvalue, rfl⟩ := keepInLayout_ok h
    exact ⟨value, hvalue, fun e => rfl⟩

/-- A member that the element reads itself is not in the layout. -/
theorem layout_own {d : Draft} {e : Element} (h : ofDraft d = .ok e) {name : String}
    (hname : name ∈ ownNames) : e.layout.find? name = none := by
  obtain ⟨members, close, seen, rfl, hfill⟩ := Json.openRecord_ok h
  refine Json.fillMembers_keeps (fun e => e.layout.find? name) (fun k d c hc a => ?_) hfill
  rcases change_layout hc with ⟨-, hkeep⟩ | ⟨hk, value, -, hinsert⟩
  · exact congrArg (Dict.find? · name) (hkeep a)
  · have hne : name ≠ k := fun heq => hk (heq ▸ hname)
    simp only [hinsert, Dict.find?_insert, if_neg hne]

/-- Any other member is in the layout as it is kept, the last one if there are several. -/
theorem layout_other {d : Draft} {e : Element} (h : ofDraft d = .ok e) {name : String}
    (hname : name ∉ ownNames) :
    Option.Rel (fun value d => d.keep = .ok value) (e.layout.find? name) (d.member? name) := by
  obtain ⟨members, close, seen, rfl, hfill⟩ := Json.openRecord_ok h
  have htold : Told (fun d value? => ∃ value, d.keep = .ok value ∧ value? = some value) none
      (e.layout.find? name) (Json.lastMember? name members) := by
    refine Json.fillMembers_get (fun e => e.layout.find? name) (fun d c hc a => ?_)
      (fun k hk d c hc a => ?_) hfill
    · rcases change_layout hc with ⟨hmem, -⟩ | ⟨-, value, hvalue, hinsert⟩
      · exact absurd hmem hname
      · exact ⟨value, hvalue, by simp only [hinsert, Dict.find?_insert, if_true]⟩
    · rcases change_layout hc with ⟨-, hkeep⟩ | ⟨-, value, -, hinsert⟩
      · exact congrArg (Dict.find? · name) (hkeep a)
      · simp only [hinsert, Dict.find?_insert, if_neg (Ne.symm hk)]
  rw [Draft.member?]
  cases hlast : Json.lastMember? name members with
  | none =>
    rw [hlast] at htold
    rw [show e.layout.find? name = none from htold]
    exact .none
  | some d =>
    rw [hlast] at htold
    obtain ⟨value, hkeep, hvalue⟩ := htold
    rw [hvalue]
    exact .some hkeep

theorem plain_of_ofDraft {d : Draft} {e : Element} (h : ofDraft d = .ok e) : e.Plain := by
  refine ⟨fun name hname => layout_own h hname, fun entry hentry => ?_⟩
  have hfind := Dict.find?_of_mem hentry
  have hname : entry.1 ∉ ownNames := by
    intro hmem
    rw [layout_own h hmem] at hfind
    cases hfind
  have hrel := layout_other h hname
  rw [hfind] at hrel
  obtain ⟨d', -, hkeep⟩ := exists_of_rel_some hrel
  exact Draft.normal_of_keep hkeep

/-- The members that an element is written as. -/
def written (e : Element) : Dict Json :=
  .ofList <| Json.entry "type" (.string e.kind.name) ++ Json.entry "text" (.string e.text) ++
    Json.entry? "action" (e.action.map Action.toJson) ++ e.layout.entries

theorem find?_written (e : Element) (name : String) :
    e.written.find? name = (e.layout.find? name).or
      (((if "action" = name then e.action.map Action.toJson else none).or
        (if "text" = name then some (.string e.text) else none)).or
        (if "type" = name then some (.string e.kind.name) else none)) := by
  simp only [written, Dict.find?_ofList, Dict.last?_append, Dict.last?_entries, Json.last?_entry,
    Json.last?_entry?, Option.or_assoc]

theorem written_parts {e : Element} (h : e.Plain) :
    ∀ p ∈ parts, p.Writes blank e (e.written.find? p.name) := by
  have hown : ∀ p ∈ parts, e.layout.find? p.name = none := fun p hp =>
    h.own p.name (mem_ownNames.2 ⟨p, hp, rfl⟩)
  simp only [parts, List.forall_mem_cons] at hown
  obtain ⟨htype, htext, haction, -⟩ := hown
  simp only [parts, List.forall_mem_cons, find?_written, htype, htext, haction]
  simp only [String.reduceEq, ↓reduceIte, Option.or_self, Option.or_some, Option.getD_none,
    Option.or_none, Option.none_or, List.not_mem_nil, IsEmpty.forall_iff, implies_true, and_true]
  refine ⟨ElementKind.ofDraft_name e.kind, Json.text_ofJson e.text, ?_⟩
  exact Json.writes_optional rfl fun a _ => ⟨a.toJson_ne_null, Action.ofDraft_toJson a⟩

theorem find?_written_of_notMem (e : Element) {name : String} (hname : name ∉ ownNames) :
    e.written.find? name = e.layout.find? name := by
  simp only [ownNames, List.mem_cons, List.not_mem_nil, or_false, not_or] at hname
  obtain ⟨htype, htext, haction⟩ := hname
  rw [find?_written, if_neg (Ne.symm haction), if_neg (Ne.symm htext), if_neg (Ne.symm htype)]
  simp only [Option.or_none]

/-- The layout is read as it was written. -/
theorem layout_of_written {e e' : Element} (h : e.Plain)
    (hread : ofDraft (Draft.ofJson e.toJson) = .ok e') : e'.layout = e.layout := by
  refine Dict.ext_find? fun name => ?_
  by_cases hname : name ∈ ownNames
  · rw [layout_own hread hname, h.own name hname]
  · have hrel := layout_other hread hname
    rw [show e.toJson = .ofDict e.written from rfl, Json.member?_ofDict,
      find?_written_of_notMem e hname] at hrel
    cases hfind : e.layout.find? name with
    | none =>
      rw [hfind] at hrel
      exact eq_none_of_rel hrel
    | some j =>
      rw [hfind] at hrel
      obtain ⟨value, hvalue, hkeep⟩ := exists_of_some_rel hrel
      have hnormal : j.Normal := h.normal (name, j) (Dict.mem_of_find? hfind)
      rw [Draft.keep_ofJson hnormal] at hkeep
      rw [hvalue, Except.ok.inj hkeep]

/-- An element with a plain layout is read as it was written. -/
theorem ofDraft_toJson {e : Element} (h : e.Plain) :
    ofDraft (Draft.ofJson e.toJson) = .ok e := by
  have hextra : ∀ k j, (∀ p ∈ parts, p.name ≠ k) → e.written.find? k = some j →
      ∃ c, keepInLayout k (Draft.ofJson j) = .ok c := by
    intro k j hk hj
    have hname : k ∉ ownNames := fun hmem =>
      let ⟨p, hp, hpk⟩ := mem_ownNames.1 hmem
      hk p hp hpk
    rw [find?_written_of_notMem e hname] at hj
    have hnormal : j.Normal := h.normal (k, j) (Dict.mem_of_find? hj)
    exact ⟨_, by rw [keepInLayout, Draft.keep_ofJson hnormal]; rfl⟩
  have hkeeps : ∀ p ∈ parts, ∀ k d c, keepInLayout k d = .ok c → ∀ a, p.get (c a) = p.get a := by
    intro p hp k d c hc a
    obtain ⟨value, -, rfl⟩ := keepInLayout_ok hc
    exact get_withLayout p hp _ a
  obtain ⟨e', he', hparts⟩ :=
    parts_lawful.openRecord_writes "Element" (written_parts h) hkeeps hextra
  have hread : ofDraft (Draft.ofJson e.toJson) = .ok e' := he'
  have hlayout := layout_of_written h hread
  rw [hread]
  obtain ⟨kind, text, action, layout⟩ := e
  obtain ⟨kind', text', action', layout'⟩ := e'
  simpa [parts, and_assoc] using And.intro hparts hlayout

end Element

theorem Screen.ofDraft_toJson {s : Screen} (h : ∀ e ∈ s.elements, e.Plain) :
    Screen.ofDraft (Draft.ofJson s.toJson) = .ok s := by
  refine Screen.parts_lawful.record_writes "Screen" ?_ ?_
  · simp only [Screen.parts, Screen.elementsPart, List.forall_mem_cons, Dict.find?_ofList,
      Dict.last?_append, Json.last?_entry, Json.last?_entry?]
    simp only [String.reduceEq, ↓reduceIte, Option.or_some, Option.getD_none, Option.or_none,
      Option.none_or, Option.or_self, List.isEmpty_iff, List.not_mem_nil, IsEmpty.forall_iff,
      implies_true, and_true]
    refine ⟨ScreenKind.ofDraft_name s.kind, ?background, ?cover, ?dialogue, ?next, ?action,
      ?elements, ?choices, ?timedChoices⟩
    case background => exact Json.writes_optional rfl fun a _ => ⟨nofun, rfl⟩
    case cover => exact Json.writes_optional rfl fun a _ => ⟨nofun, rfl⟩
    case dialogue =>
      exact Json.writes_optional rfl fun ls _ =>
        ⟨nofun, Json.listOf_ofJson fun l _ => Line.ofDraft_toJson l⟩
    case next => exact Json.writes_optional rfl fun a _ => ⟨nofun, rfl⟩
    case action =>
      exact Json.writes_optional rfl fun a _ => ⟨a.toJson_ne_null, Action.ofDraft_toJson a⟩
    case elements =>
      by_cases hnil : s.elements = []
      · rw [if_pos hnil]
        exact ⟨rfl, hnil⟩
      · rw [if_neg hnil]
        exact Json.listOf_ofJson fun e he => Element.ofDraft_toJson (h e he)
    case choices =>
      exact Json.writes_optional rfl fun cs _ =>
        ⟨nofun, Json.listOf_ofJson fun c _ => Choice.ofDraft_toJson c⟩
    case timedChoices =>
      exact Json.writes_optional rfl fun t _ => ⟨nofun, TimedChoices.ofDraft_toJson t⟩
  · rintro ⟨⟩ hr
    obtain ⟨kind, background, cover, dialogue, next, action, elements, choices, timedChoices⟩ := s
    simpa [Screen.parts, Screen.elementsPart] using hr

/-- Whether the layouts of a book are plain. -/
def Book.Plain (b : Book) : Prop :=
  ∀ id s, b.screen? id = some s → ∀ e ∈ s.elements, e.Plain

theorem Book.ofDraft_toJson {b : Book} (h : b.Plain) :
    Book.ofDraft (Draft.ofJson b.toJson) = .ok b := by
  obtain ⟨start, screens⟩ := b
  refine Book.parts_lawful.record_writes "Book" ?_ ?_
  · have hscreens : Draft.dictOf Screen.ofDraft
        (Draft.ofJson (.ofDict (screens.map Screen.toJson))) = .ok screens :=
      Json.dictOf_ofJson fun entry hentry =>
        Screen.ofDraft_toJson (h entry.1 entry.2 (Dict.find?_of_mem hentry))
    simp [Book.parts, Book.screensPart, Dict.find?_ofList, Json.Part.Writes, hscreens]
  · rintro ⟨⟩ h
    simpa [Book.parts, Book.screensPart] using h

end Gamebook
