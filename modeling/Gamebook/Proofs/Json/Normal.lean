import Gamebook.Json.Draft
import Gamebook.Proofs.Dict
import Mathlib.Data.List.Forall2

/-!
# Values that drafts stand for

A value is normal if each of its objects lists its members in the order of their keys.
These are the values that drafts are kept as (`Json.normal_of_keep`), and the draft of
such a value is kept as the value itself (`Json.keep_ofJson`).
-/

namespace Gamebook

/-! ### Readings that succeed -/

section Reading

variable {ε α β : Type}

@[simp] theorem ok_bind (a : α) (f : α → Except ε β) : Except.ok a >>= f = f a := rfl

theorem bind_eq_ok_iff {x : Except ε α} {f : α → Except ε β} {b : β} :
    x >>= f = .ok b ↔ ∃ a, x = .ok a ∧ f a = .ok b := by
  cases x with
  | error e =>
    constructor
    · intro h
      cases h
    · rintro ⟨a, h, -⟩
      cases h
  | ok a =>
    constructor
    · exact fun h => ⟨a, rfl, h⟩
    · rintro ⟨a', h, hf⟩
      cases h
      exact hf

theorem exists_bind_pure_iff {x : Except ε α} {f : α → β} :
    (∃ b, (x >>= fun a => pure (f a)) = .ok b) ↔ ∃ a, x = .ok a := by
  constructor
  · rintro ⟨b, hb⟩
    obtain ⟨a, ha, -⟩ := bind_eq_ok_iff.1 hb
    exact ⟨a, ha⟩
  · rintro ⟨a, ha⟩
    exact ⟨f a, bind_eq_ok_iff.2 ⟨a, ha, rfl⟩⟩

theorem mapM_eq_ok_iff {f : α → Except ε β} {as : List α} {bs : List β} :
    as.mapM f = .ok bs ↔ List.Forall₂ (fun a b => f a = .ok b) as bs := by
  induction as generalizing bs with
  | nil =>
    rw [List.mapM_nil, List.forall₂_nil_left_iff]
    exact ⟨fun h => (Except.ok.inj h).symm, fun h => h ▸ rfl⟩
  | cons a as ih =>
    simp only [List.mapM_cons, bind_eq_ok_iff, ih, List.forall₂_cons_left_iff]
    constructor
    · rintro ⟨b, hb, bs', hbs, hpure⟩
      cases hpure
      exact ⟨b, bs', hb, hbs, rfl⟩
    · rintro ⟨b, bs', hb, hbs, rfl⟩
      exact ⟨b, hb, bs', hbs, rfl⟩

theorem exists_mapM_eq_ok_iff {f : α → Except ε β} {as : List α} :
    (∃ bs, as.mapM f = .ok bs) ↔ ∀ a ∈ as, ∃ b, f a = .ok b := by
  induction as with
  | nil => exact iff_of_true ⟨[], rfl⟩ (by simp)
  | cons a as ih =>
    rw [List.forall_mem_cons, ← ih]
    simp only [List.mapM_cons, bind_eq_ok_iff]
    constructor
    · rintro ⟨_, b, hb, bs, hbs, -⟩
      exact ⟨⟨b, hb⟩, bs, hbs⟩
    · rintro ⟨⟨b, hb⟩, bs, hbs⟩
      exact ⟨b :: bs, b, hb, bs, hbs, rfl⟩

end Reading

namespace Json

theorem Lexeme.kept_eq_ok_iff {α : Type} {l : Lexeme α} {a : α} :
    l.kept = .ok a ↔ l = .good a := by
  cases l <;> simp [Lexeme.kept]

/-! ### Normal values -/

inductive Normal : Json → Prop
  | null : Normal .null
  | bool (b : Bool) : Normal (.bool b)
  | int (n : Int) : Normal (.int n)
  | float (x : Float) : Normal (.float x)
  | string (s : String) : Normal (.string s)
  | array {items : List Json} (h : ∀ j ∈ items, j.Normal) : Normal (.array items)
  | object {members : List (String × Json)} (sorted : members.Pairwise fun a b => a.1 < b.1)
      (h : ∀ m ∈ members, m.2.Normal) : Normal (.object members)

theorem normal_ofMembers {members : List (String × Json)} (h : ∀ m ∈ members, m.2.Normal) :
    (ofMembers members).Normal :=
  .object (Dict.sorted _) fun m hm => h m (Dict.mem_of_mem_ofList hm)

namespace Draft

theorem ofItems_eq_map (items : List Json) : ofJson.ofItems items = items.map ofJson := by
  induction items with
  | nil => rfl
  | cons j items ih => rw [ofJson.ofItems, ih, List.map_cons]

theorem ofMembers_eq_map (members : List (String × Json)) :
    ofJson.ofMembers members = members.map fun m => (.good m.1, ofJson m.2) := by
  induction members with
  | nil => rfl
  | cons m members ih => rw [ofJson.ofMembers, ih, List.map_cons]

theorem keepItems_eq_mapM (items : List Draft) : keep.keepItems items = items.mapM keep := by
  induction items with
  | nil => rfl
  | cons d items ih => rw [keep.keepItems, ih, List.mapM_cons]

/-- Keeps a member that has a good key. -/
def keepMember (m : Lexeme String × Draft) : Except Problem (String × Json) := do
  let k ← m.1.kept
  let j ← m.2.keep
  return (k, j)

theorem keepMembers_eq_mapM (members : List (Lexeme String × Draft)) :
    keep.keepMembers members = members.mapM keepMember := by
  induction members with
  | nil => rfl
  | cons m members ih =>
    rw [keep.keepMembers, ih, List.mapM_cons, keepMember]
    simp only [bind_assoc, pure_bind]

/-! ### Drafts of values -/

mutual

/-- There is nothing to object to in the draft of a value. -/
theorem skip_ofJson : ∀ j : Json, (ofJson j).skip = .ok ()
  | .null | .bool _ | .int _ | .float _ | .string _ => rfl
  | .array items => by rw [ofJson, skip, skip_ofItems items]; rfl
  | .object members => by rw [ofJson, skip, skip_ofMembers members]; rfl

theorem skip_ofItems : ∀ items : List Json, skip.skipItems (ofJson.ofItems items) = .ok ()
  | [] => rfl
  | j :: rest => by rw [ofJson.ofItems, skip.skipItems, skip_ofJson j, skip_ofItems rest]; rfl

theorem skip_ofMembers :
    ∀ members : List (String × Json), skip.skipMembers (ofJson.ofMembers members) = .ok ()
  | [] => rfl
  | (k, j) :: rest => by
    rw [ofJson.ofMembers, skip.skipMembers, skip_ofJson j, skip_ofMembers rest]
    rfl

end

mutual

/-- The draft of a value is kept, as whatever value. -/
theorem exists_keep_ofJson : ∀ j : Json, ∃ kept, (ofJson j).keep = .ok kept
  | .null | .bool _ | .int _ | .float _ | .string _ => ⟨_, rfl⟩
  | .array items => by
    obtain ⟨kept, h⟩ := exists_keep_ofItems items
    exact ⟨.array kept, by rw [ofJson, keep, h]; rfl⟩
  | .object members => by
    obtain ⟨kept, h⟩ := exists_keep_ofMembers members
    exact ⟨.ofMembers kept, by rw [ofJson, keep, h]; rfl⟩

theorem exists_keep_ofItems :
    ∀ items : List Json, ∃ kept, keep.keepItems (ofJson.ofItems items) = .ok kept
  | [] => ⟨[], rfl⟩
  | j :: rest => by
    obtain ⟨first, hfirst⟩ := exists_keep_ofJson j
    obtain ⟨others, hothers⟩ := exists_keep_ofItems rest
    exact ⟨first :: others, by rw [ofJson.ofItems, keep.keepItems, hfirst, hothers]; rfl⟩

theorem exists_keep_ofMembers :
    ∀ members : List (String × Json),
      ∃ kept, keep.keepMembers (ofJson.ofMembers members) = .ok kept
  | [] => ⟨[], rfl⟩
  | (k, j) :: rest => by
    obtain ⟨first, hfirst⟩ := exists_keep_ofJson j
    obtain ⟨others, hothers⟩ := exists_keep_ofMembers rest
    exact ⟨(k, first) :: others, by
      rw [ofJson.ofMembers, keep.keepMembers, hfirst, hothers]; rfl⟩

end

/-- A normal value is kept as it is. -/
theorem keep_ofJson {j : Json} (h : j.Normal) : (ofJson j).keep = .ok j := by
  induction h with
  | null | bool | int | float | string => rfl
  | @array items _ ih =>
    have hitems : keep.keepItems (ofJson.ofItems items) = .ok items := by
      rw [keepItems_eq_mapM, ofItems_eq_map, mapM_eq_ok_iff, List.forall₂_map_left_iff]
      exact List.forall₂_same.2 ih
    rw [ofJson, keep, hitems]
    rfl
  | @object members sorted _ ih =>
    have hmembers : keep.keepMembers (ofJson.ofMembers members) = .ok members := by
      rw [keepMembers_eq_mapM, ofMembers_eq_map, mapM_eq_ok_iff, List.forall₂_map_left_iff]
      refine List.forall₂_same.2 fun m hm => ?_
      simp only [keepMember, Lexeme.kept, ih m hm]
      rfl
    rw [ofJson, keep, hmembers]
    have hentries : (Dict.ofList members).entries = members :=
      congrArg Dict.entries (Dict.ofList_entries ⟨members, sorted⟩)
    show Except.ok (Json.object (Dict.ofList members).entries) = _
    rw [hentries]

mutual

/-- What is kept of a draft is normal. -/
theorem normal_of_keep : ∀ {d : Draft} {j : Json}, d.keep = .ok j → j.Normal
  | .null, j, h => by cases h; exact .null
  | .bool b, j, h => by cases h; exact .bool b
  | .number n, j, h => by
    obtain ⟨n, -, hj⟩ := bind_eq_ok_iff.1 h
    cases hj
    cases n with
    | int n => exact .int n
    | float x => exact .float x
  | .string s, j, h => by
    obtain ⟨s, -, hj⟩ := bind_eq_ok_iff.1 h
    cases hj
    exact .string s
  | .list items close, j, h => by
    obtain ⟨js, hitems, hrest⟩ := bind_eq_ok_iff.1 h
    obtain ⟨-, -, hj⟩ := bind_eq_ok_iff.1 hrest
    cases hj
    exact .array (normal_of_keepItems hitems)
  | .object members close, j, h => by
    obtain ⟨js, hmembers, hrest⟩ := bind_eq_ok_iff.1 h
    obtain ⟨-, -, hj⟩ := bind_eq_ok_iff.1 hrest
    cases hj
    exact normal_ofMembers (normal_of_keepMembers hmembers)

theorem normal_of_keepItems : ∀ {items : List Draft} {js : List Json},
    keep.keepItems items = .ok js → ∀ j ∈ js, j.Normal
  | [], js, h => by cases h; simp
  | d :: rest, js, h => by
    obtain ⟨j, hj, htail⟩ := bind_eq_ok_iff.1 h
    obtain ⟨js, hjs, hpure⟩ := bind_eq_ok_iff.1 htail
    cases hpure
    exact List.forall_mem_cons.2 ⟨normal_of_keep hj, normal_of_keepItems hjs⟩

theorem normal_of_keepMembers : ∀ {members : List (Lexeme String × Draft)}
    {ms : List (String × Json)}, keep.keepMembers members = .ok ms → ∀ m ∈ ms, m.2.Normal
  | [], ms, h => by cases h; simp
  | (key, d) :: rest, ms, h => by
    obtain ⟨k, -, hafter⟩ := bind_eq_ok_iff.1 h
    obtain ⟨j, hj, htail⟩ := bind_eq_ok_iff.1 hafter
    obtain ⟨ms, hms, hpure⟩ := bind_eq_ok_iff.1 htail
    cases hpure
    exact List.forall_mem_cons.2 ⟨normal_of_keep hj, normal_of_keepMembers hms⟩

end

end Draft

end Json

end Gamebook
