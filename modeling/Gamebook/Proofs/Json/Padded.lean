import Gamebook.Proofs.Json.Schema

/-!
# Objects in another order and with more in them

An object is padded if its members stand in some other order and members of other names stand
among them (`Padded`).  A record that ignores the names it does not know is read as if they were
not there (`fillMembers_filter`) and is the same in every order (`Lawful.openRecord_padded`).  A
tag is found wherever it stands, and what stands beside it is padded as the whole was
(`tagged_padded`).
-/

namespace Gamebook.Json

variable {σ τ : Type}

/-- Whether an object has the members of another, in whatever order, and besides only members of
other names. -/
inductive Padded : Json → Json → Prop
  | object {written extra members : List (String × Json)} (hperm : members.Perm (written ++ extra))
      (hnames : ∀ m ∈ extra, m.1 ∉ written.map Prod.fst) :
      Padded (.object written) (.object members)

theorem Padded.refl (written : List (String × Json)) :
    Padded (.object written) (.object written) := by
  have hperm : written.Perm (written ++ []) := by rw [List.append_nil]
  exact .object hperm nofun

/-! ### Records -/

/-- Whether a member has the name of a field. -/
def isField (fields : List (Field σ)) (m : String × Json) : Bool := fields.any (·.name == m.1)

theorem fillMembers_filter (fields : List (Field σ)) (members : List (String × Json))
    (seen : List String) (acc : σ) :
    fillMembers fields .ignored seen acc (Draft.ofJson.ofMembers members) =
      fillMembers fields .ignored seen acc
        (Draft.ofJson.ofMembers (members.filter (isField fields))) := by
  induction members generalizing seen acc with
  | nil => rfl
  | cons m members ih =>
    by_cases hfield : isField fields m = true
    · rw [List.filter_cons_of_pos hfield]
      simp only [Draft.ofJson.ofMembers, fillMembers, ih]
    · have hnone : fields.find? (·.name == m.1) = none := by
        simpa [isField] using hfield
      rw [List.filter_cons_of_neg hfield, ← ih]
      simp only [Draft.ofJson.ofMembers, fillMembers, Lexeme.kept, ok_bind, hnone, ignored_ofJson,
        id]

section Parts

variable {parts : List (Part σ)} {r : σ} {written : List (String × Json)} {j : Json}

/-- **A padded record is read as the record.** -/
theorem Lawful.openRecord_padded (h : Lawful parts) (hnodup : (written.map Prod.fst).Nodup)
    (hreads : ∀ p ∈ parts, ∃ value, (p.name, value) ∈ written ∧
      p.read (Draft.ofJson value) = .ok (p.get r))
    (hj : Padded (.object written) j) (name : String) (blank : σ) :
    ∃ r', Draft.openRecord name (parts.map Part.field) .ignored blank (Draft.ofJson j) = .ok r' ∧
      ∀ p ∈ parts, p.get r' = p.get r := by
  cases hj with
  | @object _ extra members hperm hnames =>
    have hopen : Draft.openRecord name (parts.map Part.field) .ignored blank
          (Draft.ofJson (.object members)) =
        Draft.openRecord name (parts.map Part.field) .ignored blank
          (Draft.ofJson (.object (members.filter (isField (parts.map Part.field))))) := by
      rw [Draft.ofJson, Draft.ofJson, Draft.openRecord, Draft.openRecord, fillMembers_filter]
    have hextra : extra.filter (isField (parts.map Part.field)) = [] := by
      rw [List.filter_eq_nil_iff]
      intro m hm hfield
      obtain ⟨p, hp, hname⟩ : ∃ p ∈ parts, p.name = m.1 := by simpa [isField] using hfield
      obtain ⟨value, hvalue, _⟩ := hreads p hp
      exact hnames m hm (hname ▸ List.mem_map_of_mem hvalue)
    have hfiltered := hperm.filter (isField (parts.map Part.field))
    rw [List.filter_append, hextra, List.append_nil] at hfiltered
    have hdistinct : ((members.filter (isField (parts.map Part.field))).map Prod.fst).Nodup :=
      (hfiltered.map Prod.fst).nodup_iff.2 (hnodup.sublist (List.filter_sublist.map Prod.fst))
    rw [hopen]
    refine h.openRecord_ofMembers hdistinct name (fun p hp => ?_)
      (fun p _ k d c hc a => by rw [ignored_eq_id hc, id]) fun m _ _ => ⟨id, ignored_ofJson m.1 m.2⟩
    obtain ⟨value, hvalue, hread⟩ := hreads p hp
    have hmem : (p.name, value) ∈ members.filter (isField (parts.map Part.field)) := by
      rw [hfiltered.mem_iff, List.mem_filter]
      refine ⟨hvalue, ?_⟩
      simpa [isField] using ⟨p, hp, rfl⟩
    rw [Dict.last?_of_mem hdistinct hmem]
    exact hread

end Parts

/-! ### Tags -/

section Tags

variable {tag : String} {value j : Json}

/-- **The tag of a padded variant is found**, and what stands beside it is padded. -/
theorem tagged_padded (readTag : Draft → Except Problem τ) (first last : List (String × Json))
    (hnodup : ((first ++ (tag, value) :: last).map Prod.fst).Nodup)
    (hj : Padded (.object (first ++ (tag, value) :: last)) j) (name : String) :
    ∃ rest, Padded (.object (first ++ last)) (.object rest) ∧
      Draft.tagged name tag readTag (Draft.ofJson j) = (do
        let t ← readTag (Draft.ofJson value)
        return (t, Schema.beside rest)) := by
  cases hj with
  | @object _ extra members hperm hnames =>
    have hmem : (tag, value) ∈ members := hperm.mem_iff.2 (by simp)
    obtain ⟨before, after, rfl⟩ := List.append_of_mem hmem
    have hrest : (before ++ after).Perm (first ++ last ++ extra) := by
      rw [List.append_assoc, List.cons_append] at hperm
      have hcons := (List.perm_middle.symm.trans hperm).trans List.perm_middle
      rw [← List.append_assoc] at hcons
      exact hcons.cons_inv
    have htag : tag ∉ (before ++ after).map Prod.fst := by
      obtain ⟨hfirst, hlast⟩ := Schema.notMem_around hnodup
      rw [(hrest.map Prod.fst).mem_iff, List.map_append, List.map_append]
      simp only [List.mem_append, not_or]
      refine ⟨⟨hfirst, hlast⟩, fun hextra => ?_⟩
      obtain ⟨m, hm, hname⟩ := List.mem_map.1 hextra
      exact hnames m hm (by simp [hname])
    rw [List.map_append, List.mem_append, not_or] at htag
    refine ⟨before ++ after, .object hrest fun m hm hname => hnames m hm ?_,
      Schema.tagged_of_mem htag name⟩
    rw [List.map_append, List.mem_append] at hname
    simp only [List.map_append, List.map_cons, List.mem_append, List.mem_cons]
    exact hname.imp_right Or.inr

end Tags

end Gamebook.Json
