import Gamebook.Json.Decode
import Gamebook.Proofs.Json.Normal

/-!
# Records, read and written

What a record is read as can be told field by field: a field has the value that its last
member, or its item, is read as, and keeps its default if there is none
(`Json.Lawful.record_get`).  An object that writes every field of a record is read as a
record with the same fields (`Json.Lawful.openRecord_writes`).
-/

namespace Gamebook.Json

variable {σ α : Type}

/-! ### Members -/

/-- The last member that has the name. -/
def lastMember? (name : String) : List (Lexeme String × Draft) → Option Draft
  | [] => none
  | (.good k, d) :: rest => (lastMember? name rest).or (if k = name then some d else none)
  | (.broken _ _, _) :: rest => lastMember? name rest

namespace Draft

/-- The last member of an object that has the name. -/
def member? (name : String) : Draft → Option Draft
  | object members _ => lastMember? name members
  | _ => none

def items : Draft → List Draft
  | list items _ => items
  | _ => []

/-- What stands for a field of a record: a member of an object, or the item in its place. -/
def field? (names : List String) (name : String) : Draft → Option Draft
  | list items _ => items[names.idxOf name]?
  | d => d.member? name

end Draft

theorem lastMember?_ofMembers (name : String) (members : List (String × Json)) :
    lastMember? name (Draft.ofJson.ofMembers members) =
      (Dict.last? name members).map Draft.ofJson := by
  induction members with
  | nil => rfl
  | cons m members ih =>
    rw [Draft.ofJson.ofMembers, lastMember?, ih, Dict.last?_cons]
    cases Dict.last? name members with
    | some j => rfl
    | none => by_cases hname : m.1 = name <;> simp [hname]

theorem member?_ofDict (name : String) (d : Dict Json) :
    (Draft.ofJson (ofDict d)).member? name = (d.find? name).map Draft.ofJson := by
  rw [ofDict, Draft.ofJson, Draft.member?, lastMember?_ofMembers, Dict.last?_entries]

/-! ### Readings that succeed -/

theorem mismatch_ne_ok {d : Draft} {expected : Expected} {a : α} :
    d.mismatch expected ≠ .ok a := by
  intro h
  obtain ⟨_, -, hfail⟩ := bind_eq_ok_iff.1 h
  cases hfail

/-- Only an object is read where a record must be one, and all its members are taken in. -/
theorem openRecord_ok {name : String} {fields : List (Field σ)} {extra : Extra σ} {blank r : σ}
    {d : Draft} (h : d.openRecord name fields extra blank = .ok r) :
    ∃ members close seen, d = .object members close ∧
      fillMembers fields extra [] blank members = .ok (seen, r) := by
  cases d with
  | object members close =>
    obtain ⟨⟨seen, r'⟩, hfill, hrest⟩ := bind_eq_ok_iff.1 h
    obtain ⟨-, -, hrest⟩ := bind_eq_ok_iff.1 hrest
    obtain ⟨-, -, hpure⟩ := bind_eq_ok_iff.1 hrest
    cases hpure
    exact ⟨members, close, seen, rfl, hfill⟩
  | keyless first => cases h
  | _ => exact absurd h mismatch_ne_ok

theorem fillItems_cons {owner : String} {total count : Nat} {close : Close} {field : Field σ}
    {fields : List (Field σ)} {acc r : σ} {items surplus : List Draft}
    (h : fillItems owner total close count (field :: fields) acc items = .ok (r, surplus)) :
    (items = [] ∧ fillItems owner total close (count + 1) fields acc [] = .ok (r, surplus)) ∨
      ∃ d rest c, items = d :: rest ∧ field.fill d = .ok c ∧
        fillItems owner total close (count + 1) fields (c acc) rest = .ok (r, surplus) := by
  cases items with
  | nil =>
    rw [fillItems] at h
    obtain ⟨-, -, h⟩ := bind_eq_ok_iff.1 h
    split at h
    · cases h
    · exact Or.inl ⟨rfl, h⟩
  | cons d rest =>
    rw [fillItems] at h
    obtain ⟨c, hc, h⟩ := bind_eq_ok_iff.1 h
    exact Or.inr ⟨d, rest, c, rfl, hc, h⟩

theorem record_ok {name : String} {fields : List (Field σ)} {blank r : σ} {d : Draft}
    (h : d.record name fields blank = .ok r) :
    (∃ items close surplus, d = .list items close ∧
      fillItems ("struct " ++ name) fields.length close 0 fields blank items =
        .ok (r, surplus)) ∨
    (d.openRecord name fields .ignored blank = .ok r ∧
      ∀ names n, d.field? names n = d.member? n) := by
  cases d with
  | list items close =>
    obtain ⟨⟨r', surplus⟩, hfill, hrest⟩ := bind_eq_ok_iff.1 h
    refine Or.inl ⟨items, close, surplus, rfl, ?_⟩
    by_cases hsurplus : surplus.isEmpty = true
    · simp only [hsurplus, if_true] at hrest
      obtain ⟨-, -, hpure⟩ := bind_eq_ok_iff.1 hrest
      cases hpure
      exact hfill
    · simp only [hsurplus] at hrest
      cases hrest
  | _ => exact Or.inr ⟨h, fun _ _ => rfl⟩

theorem ignored_eq_id {k : String} {d : Draft} {c : σ → σ} (h : Extra.ignored k d = .ok c) :
    c = id := by
  obtain ⟨-, -, hpure⟩ := bind_eq_ok_iff.1 h
  cases hpure
  rfl

theorem ignored_ofJson (k : String) (j : Json) :
    (Extra.ignored k (Draft.ofJson j) : Except Problem (σ → σ)) = .ok id := by
  rw [Extra.ignored, Draft.skip_ofJson]
  rfl

/-! ### What members change -/

/-- How a member of the name changes a record. -/
def change (fields : List (Field σ)) (extra : Extra σ) (name : String) (d : Draft) :
    Except Problem (σ → σ) :=
  match fields.find? (·.name == name) with
  | none => extra name d
  | some field => field.fill d

/-- What is to be told of a value that a draft may stand for. -/
def Told (reads : Draft → α → Prop) (before after : α) : Option Draft → Prop
  | none => after = before
  | some d => reads d after

section Filling

variable {fields : List (Field σ)} {extra : Extra σ}

theorem fillMembers_cons {seen seen' : List String} {acc r : σ} {key : Lexeme String}
    {d : Draft} {rest : List (Lexeme String × Draft)}
    (h : fillMembers fields extra seen acc ((key, d) :: rest) = .ok (seen', r)) :
    ∃ k c seen₁, key = .good k ∧ (∀ n ∈ seen₁, n = k ∨ n ∈ seen) ∧
      change fields extra k d = .ok c ∧
        fillMembers fields extra seen₁ (c acc) rest = .ok (seen', r) := by
  rw [fillMembers] at h
  obtain ⟨k, hk, h⟩ := bind_eq_ok_iff.1 h
  have hkey := Lexeme.kept_eq_ok_iff.1 hk
  unfold change
  cases hfield : fields.find? (·.name == k) with
  | none =>
    simp only [hfield] at h
    obtain ⟨c, hc, hrest⟩ := bind_eq_ok_iff.1 h
    exact ⟨k, c, seen, hkey, fun _ hn => Or.inr hn, by rw [hfield]; exact hc, hrest⟩
  | some field =>
    simp only [hfield] at h
    split at h
    · cases h
    · obtain ⟨c, hc, hrest⟩ := bind_eq_ok_iff.1 h
      exact ⟨k, c, k :: seen, hkey, fun _ hn => List.mem_cons.1 hn, by rw [hfield]; exact hc,
        hrest⟩

theorem fillMembers_keeps (get : σ → α)
    (hkeeps : ∀ k d c, change fields extra k d = .ok c → ∀ a, get (c a) = get a)
    {members : List (Lexeme String × Draft)} {seen seen' : List String} {acc r : σ}
    (h : fillMembers fields extra seen acc members = .ok (seen', r)) : get r = get acc := by
  induction members generalizing seen acc with
  | nil =>
    cases h
    rfl
  | cons m rest ih =>
    obtain ⟨k, c, seen₁, -, -, hc, hrest⟩ := fillMembers_cons h
    rw [ih hrest, hkeeps k m.2 c hc]

/-- A part of a record is told by the last member of the name that alone changes it. -/
theorem fillMembers_get (get : σ → α) {reads : Draft → α → Prop} {name : String}
    (hown : ∀ d c, change fields extra name d = .ok c → ∀ a, reads d (get (c a)))
    (hother : ∀ k, k ≠ name → ∀ d c, change fields extra k d = .ok c → ∀ a, get (c a) = get a)
    {members : List (Lexeme String × Draft)} {seen seen' : List String} {acc r : σ}
    (h : fillMembers fields extra seen acc members = .ok (seen', r)) :
    Told reads (get acc) (get r) (lastMember? name members) := by
  induction members generalizing seen acc with
  | nil =>
    cases h
    rfl
  | cons m rest ih =>
    obtain ⟨k, c, seen₁, hkey, -, hc, hrest⟩ := fillMembers_cons h
    obtain ⟨key, d⟩ := m
    obtain rfl : key = .good k := hkey
    have htail := ih hrest
    rw [lastMember?]
    cases hlast : lastMember? name rest with
    | some d' =>
      rw [hlast] at htail
      exact htail
    | none =>
      rw [hlast] at htail
      have hr : get r = get (c acc) := htail
      by_cases hk : k = name
      · subst hk
        simpa [Told, hr] using hown d c hc acc
      · simpa [Told, hk, hr] using hother k hk d c hc acc

theorem fillMembers_fresh {k : String} {seen : List String} (hk : k ∉ seen) {d : Draft}
    {c : σ → σ} (hc : change fields extra k d = .ok c) (acc : σ)
    (rest : List (Lexeme String × Draft)) :
    ∃ seen₁, fillMembers fields extra seen acc ((.good k, d) :: rest) =
        fillMembers fields extra seen₁ (c acc) rest ∧
      (∀ n ∈ seen₁, n = k ∨ n ∈ seen) ∧ (∀ n ∈ seen, n ∈ seen₁) ∧
      ((∃ field ∈ fields, field.name = k) → k ∈ seen₁) := by
  rw [fillMembers]
  unfold change at hc
  cases hfield : fields.find? (·.name == k) with
  | none =>
    simp only [hfield] at hc
    refine ⟨seen, by simp only [Lexeme.kept, ok_bind, hfield, hc], fun _ hn => Or.inr hn,
      fun _ hn => hn, ?_⟩
    rintro ⟨field, hmem, hname⟩
    exact absurd (beq_iff_eq.2 hname) (List.find?_eq_none.1 hfield field hmem)
  | some field =>
    simp only [hfield] at hc
    exact ⟨k :: seen, by simp only [Lexeme.kept, ok_bind, hfield, hc, hk, if_false],
      fun _ hn => List.mem_cons.1 hn, fun _ hn => List.mem_cons_of_mem _ hn,
      fun _ => List.mem_cons_self⟩

theorem fillMembers_ofMembers {members : List (String × Json)}
    (hnodup : (members.map Prod.fst).Nodup) {seen : List String}
    (hunseen : ∀ m ∈ members, m.1 ∉ seen)
    (hchange : ∀ m ∈ members, ∃ c, change fields extra m.1 (Draft.ofJson m.2) = .ok c) (acc : σ) :
    ∃ seen' r, fillMembers fields extra seen acc (Draft.ofJson.ofMembers members) =
        .ok (seen', r) ∧
      (∀ n ∈ seen, n ∈ seen') ∧
      ∀ m ∈ members, (∃ field ∈ fields, field.name = m.1) → m.1 ∈ seen' := by
  induction members generalizing seen acc with
  | nil => exact ⟨seen, acc, rfl, fun _ hn => hn, by simp⟩
  | cons m rest ih =>
    obtain ⟨hfresh, hnodup⟩ := List.nodup_cons.1 hnodup
    obtain ⟨hunmet, hunseen⟩ := List.forall_mem_cons.1 hunseen
    obtain ⟨⟨c, hc⟩, hchange⟩ := List.forall_mem_cons.1 hchange
    obtain ⟨seen₁, hfirst, hback, hforth, hown⟩ :=
      fillMembers_fresh hunmet hc acc (Draft.ofJson.ofMembers rest)
    have hunseen₁ : ∀ n ∈ rest, n.1 ∉ seen₁ := by
      intro n hn hmem
      rcases hback _ hmem with heq | hmem
      · exact hfresh (heq ▸ List.mem_map_of_mem hn)
      · exact hunseen n hn hmem
    obtain ⟨seen', r, hfill, hkept, hmet⟩ := ih hnodup hunseen₁ hchange (c acc)
    exact ⟨seen', r, hfirst.trans hfill, fun n hn => hkept n (hforth n hn),
      List.forall_mem_cons.2 ⟨fun hfield => hkept _ (hown hfield), hmet⟩⟩

/-- Members are taken in only if each of them can be, and none is met that is not there. -/
theorem fillMembers_ok {members : List (String × Json)} {seen seen' : List String} {acc r : σ}
    (h : fillMembers fields extra seen acc (Draft.ofJson.ofMembers members) = .ok (seen', r)) :
    (∀ m ∈ members, ∃ c, change fields extra m.1 (Draft.ofJson m.2) = .ok c) ∧
      ∀ n ∈ seen', n ∈ seen ∨ n ∈ members.map Prod.fst := by
  induction members generalizing seen acc with
  | nil =>
    cases h
    exact ⟨by simp, fun _ hn => Or.inl hn⟩
  | cons m rest ih =>
    obtain ⟨k, c, seen₁, hkey, hback, hc, hrest⟩ := fillMembers_cons h
    obtain rfl : m.1 = k := Lexeme.good.inj hkey
    obtain ⟨hchange, hmet⟩ := ih hrest
    refine ⟨List.forall_mem_cons.2 ⟨⟨c, hc⟩, hchange⟩, fun n hn => ?_⟩
    rw [List.map_cons, List.mem_cons]
    rcases hmet n hn with hseen | hmem
    · rcases hback n hseen with heq | hold
      · exact Or.inr (Or.inl heq)
      · exact Or.inl hold
    · exact Or.inr (Or.inr hmem)

theorem demandFields_eq_ok_iff {seen : List String} :
    demandFields fields seen = .ok () ↔
      ∀ field ∈ fields, field.required = true → field.name ∈ seen := by
  unfold demandFields
  cases hmissing : fields.find? fun field => field.required && field.name ∉ seen with
  | none =>
    have hnone := List.find?_eq_none.1 hmissing
    exact ⟨fun _ field hfield hrequired => by simpa [hrequired] using hnone field hfield,
      fun _ => rfl⟩
  | some field =>
    have hprop := List.find?_some hmissing
    simp only [Bool.and_eq_true, decide_eq_true_eq] at hprop
    exact iff_of_false nofun fun hall =>
      hprop.2 (hall field (List.mem_of_find?_eq_some hmissing) hprop.1)

/-- **Members whose names differ fill a record** just when each of them can be taken in and none
that is required is missing. -/
theorem fill_ofMembers_iff {members : List (String × Json)}
    (hnodup : (members.map Prod.fst).Nodup) (blank : σ) :
    (∃ seen r, fillMembers fields extra [] blank (Draft.ofJson.ofMembers members) =
        .ok (seen, r) ∧ demandFields fields seen = .ok ()) ↔
      (∀ m ∈ members, ∃ c, change fields extra m.1 (Draft.ofJson m.2) = .ok c) ∧
        ∀ field ∈ fields, field.required = true → field.name ∈ members.map Prod.fst := by
  constructor
  · rintro ⟨seen, r, hfill, hdemand⟩
    obtain ⟨hchange, hmet⟩ := fillMembers_ok hfill
    refine ⟨hchange, fun field hfield hrequired => ?_⟩
    exact (hmet _ (demandFields_eq_ok_iff.1 hdemand field hfield hrequired)).resolve_left
      List.not_mem_nil
  · rintro ⟨hchange, hrequired⟩
    obtain ⟨seen, r, hfill, -, hmet⟩ := fillMembers_ofMembers hnodup
      (fun _ _ => List.not_mem_nil) hchange blank
    refine ⟨seen, r, hfill, demandFields_eq_ok_iff.2 fun field hfield hneeded => ?_⟩
    obtain ⟨m, hm, hname⟩ := List.mem_map.1 (hrequired field hfield hneeded)
    exact hname ▸ hmet m hm ⟨field, hfield, hname.symm⟩

theorem openRecord_ofMembers_iff {members : List (String × Json)}
    (hnodup : (members.map Prod.fst).Nodup) (name : String) (blank : σ) :
    (∃ r, Draft.openRecord name fields extra blank (Draft.ofJson (.object members)) = .ok r) ↔
      (∀ m ∈ members, ∃ c, change fields extra m.1 (Draft.ofJson m.2) = .ok c) ∧
        ∀ field ∈ fields, field.required = true → field.name ∈ members.map Prod.fst := by
  rw [← fill_ofMembers_iff hnodup blank, Draft.ofJson, Draft.openRecord]
  constructor
  · rintro ⟨r, h⟩
    obtain ⟨⟨seen, r'⟩, hfill, hrest⟩ := bind_eq_ok_iff.1 h
    obtain ⟨-, -, hrest⟩ := bind_eq_ok_iff.1 hrest
    obtain ⟨_, hdemand, -⟩ := bind_eq_ok_iff.1 hrest
    exact ⟨seen, r', hfill, hdemand⟩
  · rintro ⟨seen, r, hfill, hdemand⟩
    refine ⟨r, ?_⟩
    rw [hfill]
    simp only [bind, Except.bind, demand, Close.objectFlaw?, hdemand]
    rfl

end Filling

/-! ### Records by their parts -/

/-- A part of a record: how it is read, and where it stands in the record. -/
structure Part (σ : Type) where
  name : String
  required : Bool
  {Value : Type}
  read : Draft → Except Problem Value
  get : σ → Value
  set : Value → σ → σ

def Part.field (p : Part σ) : Field σ :=
  ⟨p.name, p.required, fun d => do
    let a ← p.read d
    return p.set a⟩

@[simp] theorem Part.field_name (p : Part σ) : p.field.name = p.name := rfl

@[simp] theorem Part.field_required (p : Part σ) : p.field.required = p.required := rfl

theorem Part.fill_of_read (p : Part σ) {d : Draft} {v : p.Value} (h : p.read d = .ok v) :
    p.field.fill d = .ok (p.set v) := by
  simp only [Part.field, h]
  rfl

/-- Parts of different names that do not touch each other. -/
structure Lawful (parts : List (Part σ)) : Prop where
  nodup : (parts.map Part.name).Nodup
  get_set : ∀ p ∈ parts, ∀ v a, p.get (p.set v a) = v
  get_set_other : ∀ p ∈ parts, ∀ q ∈ parts, p.name ≠ q.name → ∀ v a, p.get (q.set v a) = p.get a

/-- Whether a part of a record is what is written of it, or the default if nothing is. -/
def Part.Writes (p : Part σ) (blank r : σ) : Option Json → Prop
  | none => p.required = false ∧ p.get r = p.get blank
  | some j => p.read (Draft.ofJson j) = .ok (p.get r)

namespace Lawful

variable {parts : List (Part σ)} {p : Part σ} {extra : Extra σ} {d : Draft} {blank r : σ}

theorem eq_of_name (h : Lawful parts) {q : Part σ} (hp : p ∈ parts) (hq : q ∈ parts)
    (hname : p.name = q.name) : p = q :=
  List.inj_on_of_nodup_map h.nodup hp hq hname

theorem change_of_mem (h : Lawful parts) (hp : p ∈ parts) :
    change (parts.map Part.field) extra p.name d = p.field.fill d := by
  unfold change
  cases hfind : (parts.map Part.field).find? (·.name == p.name) with
  | none =>
    have hnot := List.find?_eq_none.1 hfind p.field (List.mem_map_of_mem hp)
    exact absurd (beq_self_eq_true _) hnot
  | some field =>
    obtain ⟨q, hq, rfl⟩ := List.mem_map.1 (List.mem_of_find?_eq_some hfind)
    have hname : q.name = p.name := by simpa using List.find?_some hfind
    rw [h.eq_of_name hq hp hname]

theorem change_of_forall_ne {k : String} (hk : ∀ p ∈ parts, p.name ≠ k) :
    change (parts.map Part.field) extra k d = extra k d := by
  unfold change
  have hfind : (parts.map Part.field).find? (·.name == k) = none := by
    refine List.find?_eq_none.2 fun field hfield => ?_
    obtain ⟨q, hq, rfl⟩ := List.mem_map.1 hfield
    simpa using hk q hq
  rw [hfind]

theorem read_of_fill (h : Lawful parts) (hp : p ∈ parts) {c : σ → σ}
    (hc : p.field.fill d = .ok c) (a : σ) : p.read d = .ok (p.get (c a)) := by
  obtain ⟨v, hv, hpure⟩ := bind_eq_ok_iff.1 hc
  cases hpure
  rw [hv, h.get_set p hp]

theorem get_of_fill (h : Lawful parts) (hp : p ∈ parts) {q : Part σ} (hq : q ∈ parts)
    (hname : p.name ≠ q.name) {c : σ → σ} (hc : q.field.fill d = .ok c) (a : σ) :
    p.get (c a) = p.get a := by
  obtain ⟨v, -, hpure⟩ := bind_eq_ok_iff.1 hc
  cases hpure
  exact h.get_set_other p hp q hq hname v a

/-- A part of a record that is written as an object is told by its last member. -/
theorem openRecord_get (h : Lawful parts) (hp : p ∈ parts)
    (hextra : ∀ k d c, extra k d = .ok c → ∀ a, p.get (c a) = p.get a) {name : String}
    (hr : Draft.openRecord name (parts.map Part.field) extra blank d = .ok r) :
    Told (fun d v => p.read d = .ok v) (p.get blank) (p.get r) (d.member? p.name) := by
  obtain ⟨members, close, seen, rfl, hfill⟩ := openRecord_ok hr
  refine fillMembers_get p.get (fun d c hc a => ?_) (fun k hk d c hc a => ?_) hfill
  · rw [h.change_of_mem hp] at hc
    exact h.read_of_fill hp hc a
  · by_cases hpart : ∃ q ∈ parts, q.name = k
    · obtain ⟨q, hq, rfl⟩ := hpart
      rw [h.change_of_mem hq] at hc
      exact h.get_of_fill hp hq (Ne.symm hk) hc a
    · rw [change_of_forall_ne fun q hq hname => hpart ⟨q, hq, hname⟩] at hc
      exact hextra k d c hc a

section Items

variable {owner : String} {total : Nat} {close : Close} {left : List (Part σ)}

theorem fillItems_get_of_notMem (h : Lawful parts) (hp : p ∈ parts) (hleft : left ⊆ parts)
    (hnot : p.name ∉ left.map Part.name) {count : Nat} {acc : σ} {items surplus : List Draft}
    (hr : fillItems owner total close count (left.map Part.field) acc items = .ok (r, surplus)) :
    p.get r = p.get acc := by
  induction left generalizing count acc items with
  | nil =>
    cases hr
    rfl
  | cons q left ih =>
    obtain ⟨hq, hleft⟩ := List.cons_subset.1 hleft
    rw [List.map_cons, List.mem_cons, not_or] at hnot
    obtain ⟨hname, hnot⟩ := hnot
    rcases fillItems_cons hr with ⟨rfl, hrest⟩ | ⟨d, rest, c, rfl, hc, hrest⟩
    · exact ih hleft hnot hrest
    · rw [ih hleft hnot hrest, h.get_of_fill hp hq hname hc]

/-- A part of a record that is written as a list is told by the item in its place. -/
theorem fillItems_get (h : Lawful parts) (hp : p ∈ parts) (hleft : left ⊆ parts)
    (hnodup : (left.map Part.name).Nodup) (hmem : p.name ∈ left.map Part.name) {count : Nat}
    {acc : σ} {items surplus : List Draft}
    (hr : fillItems owner total close count (left.map Part.field) acc items = .ok (r, surplus)) :
    Told (fun d v => p.read d = .ok v) (p.get acc) (p.get r)
      items[(left.map Part.name).idxOf p.name]? := by
  induction left generalizing count acc items with
  | nil => simp at hmem
  | cons q left ih =>
    obtain ⟨hq, hrestparts⟩ := List.cons_subset.1 hleft
    obtain ⟨hfresh, hnodup⟩ := List.nodup_cons.1 hnodup
    rw [List.map_cons]
    by_cases hname : p.name = q.name
    · obtain rfl : p = q := h.eq_of_name hp hq hname
      rw [List.idxOf_cons_self]
      rcases fillItems_cons hr with ⟨rfl, hrest⟩ | ⟨d, rest, c, rfl, hc, hrest⟩
      · exact h.fillItems_get_of_notMem hp hrestparts hfresh hrest
      · show p.read d = .ok (p.get r)
        rw [h.fillItems_get_of_notMem hp hrestparts hfresh hrest]
        exact h.read_of_fill hp hc acc
    · have hmem := (List.mem_cons.1 hmem).resolve_left hname
      rw [List.idxOf_cons_ne _ (Ne.symm hname)]
      rcases fillItems_cons hr with ⟨rfl, hrest⟩ | ⟨d, rest, c, rfl, hc, hrest⟩
      · simpa using ih hrestparts hnodup hmem hrest
      · rw [List.getElem?_cons_succ, ← h.get_of_fill hp hq hname hc acc]
        exact ih hrestparts hnodup hmem hrest

end Items

/-- A part of a record is told by what stands for its field. -/
theorem record_get (h : Lawful parts) (hp : p ∈ parts) {name : String}
    (hr : Draft.record name (parts.map Part.field) blank d = .ok r) :
    Told (fun d v => p.read d = .ok v) (p.get blank) (p.get r)
      (d.field? (parts.map Part.name) p.name) := by
  rcases record_ok hr with ⟨items, close, surplus, rfl, hfill⟩ | ⟨hopen, hfield⟩
  · exact h.fillItems_get hp (List.Subset.refl _) h.nodup (List.mem_map_of_mem hp) hfill
  · rw [hfield]
    exact h.openRecord_get hp (fun k d c hc a => by rw [ignored_eq_id hc, id]) hopen

/-- **Members that write every part of a record** are read as a record with the same parts. -/
theorem openRecord_ofMembers (h : Lawful parts) {members : List (String × Json)}
    (hnodup : (members.map Prod.fst).Nodup) (name : String)
    (hwrites : ∀ p ∈ parts, p.Writes blank r (Dict.last? p.name members))
    (hkeeps : ∀ p ∈ parts, ∀ k d c, extra k d = .ok c → ∀ a, p.get (c a) = p.get a)
    (hextra : ∀ m ∈ members, (∀ p ∈ parts, p.name ≠ m.1) →
      ∃ c, extra m.1 (Draft.ofJson m.2) = .ok c) :
    ∃ r', Draft.openRecord name (parts.map Part.field) extra blank
        (Draft.ofJson (.object members)) = .ok r' ∧ ∀ p ∈ parts, p.get r' = p.get r := by
  have hchange : ∀ m ∈ members,
      ∃ c, change (parts.map Part.field) extra m.1 (Draft.ofJson m.2) = .ok c := by
    intro m hm
    by_cases hpart : ∃ p ∈ parts, p.name = m.1
    · obtain ⟨p, hp, hname⟩ := hpart
      have hread := hwrites p hp
      rw [hname, Dict.last?_of_mem hnodup hm] at hread
      exact ⟨p.set (p.get r), by rw [← hname, h.change_of_mem hp, p.fill_of_read hread]⟩
    · have hne : ∀ p ∈ parts, p.name ≠ m.1 := fun p hp hname => hpart ⟨p, hp, hname⟩
      rw [change_of_forall_ne hne]
      exact hextra m hm hne
  have hrequired : ∀ field ∈ parts.map Part.field, field.required = true →
      field.name ∈ members.map Prod.fst := by
    intro field hfield hrequired
    obtain ⟨p, hp, rfl⟩ := List.mem_map.1 hfield
    have hwrite := hwrites p hp
    cases hlast : Dict.last? p.name members with
    | none =>
      rw [hlast] at hwrite
      exact absurd hrequired (by simp [hwrite.1])
    | some j => exact List.mem_map_of_mem (Dict.mem_of_last? hlast)
  obtain ⟨r', hr'⟩ := (openRecord_ofMembers_iff hnodup name blank).2 ⟨hchange, hrequired⟩
  refine ⟨r', hr', fun p hp => ?_⟩
  have htold := h.openRecord_get hp (hkeeps p hp) hr'
  have hwrite := hwrites p hp
  rw [Draft.ofJson, Draft.member?, lastMember?_ofMembers] at htold
  cases hlast : Dict.last? p.name members with
  | none =>
    rw [hlast] at htold hwrite
    exact htold.trans hwrite.2.symm
  | some j =>
    rw [hlast] at htold hwrite
    exact Except.ok.inj (htold.symm.trans hwrite)

theorem openRecord_writes (h : Lawful parts) {d : Dict Json} (name : String)
    (hwrites : ∀ p ∈ parts, p.Writes blank r (d.find? p.name))
    (hkeeps : ∀ p ∈ parts, ∀ k d c, extra k d = .ok c → ∀ a, p.get (c a) = p.get a)
    (hextra : ∀ k j, (∀ p ∈ parts, p.name ≠ k) → d.find? k = some j →
      ∃ c, extra k (Draft.ofJson j) = .ok c) :
    ∃ r', Draft.openRecord name (parts.map Part.field) extra blank (Draft.ofJson (ofDict d)) =
        .ok r' ∧ ∀ p ∈ parts, p.get r' = p.get r := by
  refine h.openRecord_ofMembers d.nodup_keys name (fun p hp => ?_) hkeeps fun m hm hne => ?_
  · rw [Dict.last?_entries]
    exact hwrites p hp
  · exact hextra m.1 m.2 hne (Dict.find?_of_mem hm)

/-- An object that writes every part of a record is read as the record. -/
theorem record_writes (h : Lawful parts) {d : Dict Json} (name : String)
    (hwrites : ∀ p ∈ parts, p.Writes blank r (d.find? p.name))
    (hext : ∀ r', (∀ p ∈ parts, p.get r' = p.get r) → r' = r) :
    Draft.record name (parts.map Part.field) blank (Draft.ofJson (ofDict d)) = .ok r := by
  obtain ⟨r', hr', hparts⟩ := h.openRecord_writes name hwrites
    (fun p _ k d c hc a => by rw [ignored_eq_id hc, id])
    (fun k j _ _ => ⟨id, ignored_ofJson k j⟩)
  rw [← hext r' hparts]
  exact hr'

end Lawful

end Gamebook.Json
