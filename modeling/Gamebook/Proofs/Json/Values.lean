import Gamebook.Proofs.Json.Record

/-!
# Values, lists and dictionaries, read and written

Simple values, lists and dictionaries are read as they are written.  Conversely a list that
was read goes item by item (`Json.listOf_ok`), and a dictionary key by key
(`Json.dictOf_ok`).
-/

namespace Gamebook

theorem exists_of_rel_some {α β : Type} {r : α → β → Prop} {a : α} {o : Option β}
    (h : Option.Rel r (some a) o) : ∃ b, o = some b ∧ r a b := by
  cases h with
  | some hr => exact ⟨_, rfl, hr⟩

theorem exists_of_some_rel {α β : Type} {r : α → β → Prop} {b : β} {o : Option α}
    (h : Option.Rel r o (some b)) : ∃ a, o = some a ∧ r a b := by
  cases h with
  | some hr => exact ⟨_, rfl, hr⟩

theorem eq_none_of_rel {α β : Type} {r : α → β → Prop} {o : Option α}
    (h : Option.Rel r o none) : o = none := by
  cases h
  rfl

theorem rel_imp {α β : Type} {r r' : α → β → Prop} {o : Option α} {o' : Option β}
    (himp : ∀ a b, r a b → r' a b) (h : Option.Rel r o o') : Option.Rel r' o o' := by
  cases h with
  | none => exact .none
  | some hr => exact .some (himp _ _ hr)

namespace Json

variable {α σ : Type} {f : Draft → Except Problem α} {write : α → Json}

@[simp] theorem text_ofJson (s : String) : Draft.text (Draft.ofJson (.string s)) = .ok s := rfl

theorem natural_ofJson {n bound : Nat} (h : n < bound) (expected : Expected) :
    Draft.natural bound expected (Draft.ofJson (.int n)) = .ok n := by
  have hrange : (0 : Int) ≤ n ∧ (n : Int) < bound := by omega
  simp only [Draft.ofJson, Draft.natural, Lexeme.kept, ok_bind, hrange, and_self, if_true]
  rfl

@[simp] theorem boolean_ofJson (b : Bool) :
    Draft.boolean (Draft.ofJson (.bool b)) = .ok b := rfl

theorem word32_ofJson {n : Nat} (h : n < UInt32.size) :
    Draft.word32 (Draft.ofJson (.int n)) = .ok n := natural_ofJson h .word32

theorem word64_ofJson {n : Nat} (h : n < UInt64.size) :
    Draft.word64 (Draft.ofJson (.int n)) = .ok n := natural_ofJson h .word64

theorem optional_ofJson {j : Json} {a : α} (hj : j ≠ .null) (h : f (Draft.ofJson j) = .ok a) :
    Draft.optional f (Draft.ofJson j) = .ok (some a) := by
  cases j with
  | null => exact absurd rfl hj
  | _ => exact congrArg (fun x => x >>= fun a => .ok (some a)) h

theorem listOf_ofJson {as : List α} (h : ∀ a ∈ as, f (Draft.ofJson (write a)) = .ok a) :
    Draft.listOf f (Draft.ofJson (.array (as.map write))) = .ok as := by
  have hitems : (as.map fun a => Draft.ofJson (write a)).mapM f = .ok as := by
    rw [mapM_eq_ok_iff, List.forall₂_map_left_iff]
    exact List.forall₂_same.2 h
  rw [Draft.ofJson, Draft.ofItems_eq_map, List.map_map, Draft.listOf]
  exact congrArg (fun x => x >>= fun as => .ok as) hitems

theorem dictOf_ofJson {d : Dict α}
    (h : ∀ entry ∈ d.entries, f (Draft.ofJson (write entry.2)) = .ok entry.2) :
    Draft.dictOf f (Draft.ofJson (ofDict (d.map write))) = .ok d := by
  rw [ofDict, Draft.ofJson, Draft.ofMembers_eq_map, Dict.map, List.map_map, Draft.dictOf]
  have hentries : ((d.entries.map fun entry =>
      ((.good entry.1, Draft.ofJson (write entry.2)) : Lexeme String × Draft)).mapM fun m => do
        let k ← m.1.kept
        let a ← f m.2
        return (k, a)) = .ok d.entries := by
    rw [mapM_eq_ok_iff, List.forall₂_map_left_iff]
    refine List.forall₂_same.2 fun entry hentry => ?_
    simp only [Lexeme.kept, ok_bind, h entry hentry]
    rfl
  refine (congrArg (fun x => x >>= fun entries => .ok (Dict.ofList entries)) hentries).trans ?_
  rw [ok_bind, Dict.ofList_entries]

/-- A part that may be absent is what is written of it. -/
theorem writes_optional {name : String} {get : σ → Option α} {set : Option α → σ → σ}
    {blank r : σ} (hblank : get blank = none)
    (h : ∀ a ∈ get r, write a ≠ .null ∧ f (Draft.ofJson (write a)) = .ok a) :
    Part.Writes ⟨name, false, Draft.optional f, get, set⟩ blank r ((get r).map write) := by
  cases hget : get r with
  | none => exact ⟨rfl, hget.trans hblank.symm⟩
  | some a =>
    obtain ⟨hnull, hread⟩ := h a hget
    exact (optional_ofJson hnull hread).trans (congrArg Except.ok hget.symm)

/-! ### Lists and dictionaries that were read -/

theorem listOf_ok {d : Draft} {as : List α} (h : Draft.listOf f d = .ok as) :
    List.Forall₂ (fun a d => f d = .ok a) as d.items := by
  cases d with
  | list items close =>
    obtain ⟨as', hitems, hrest⟩ := bind_eq_ok_iff.1 h
    obtain ⟨-, -, hpure⟩ := bind_eq_ok_iff.1 hrest
    cases hpure
    exact (mapM_eq_ok_iff.1 hitems).flip
  | _ => exact absurd h mismatch_ne_ok

theorem last?_of_forall₂ {members : List (Lexeme String × Draft)} {entries : List (String × α)}
    (h : List.Forall₂ (fun m entry => m.1 = .good entry.1 ∧ f m.2 = .ok entry.2) members entries)
    (key : String) :
    Option.Rel (fun a d => f d = .ok a) (Dict.last? key entries) (lastMember? key members) := by
  induction h with
  | nil => exact .none
  | @cons m entry members entries hm _ ih =>
    obtain ⟨name, d⟩ := m
    obtain ⟨rfl, hread⟩ := hm
    rw [Dict.last?_cons, lastMember?]
    generalize Dict.last? key entries = entry? at ih ⊢
    generalize lastMember? key members = member? at ih ⊢
    cases ih with
    | some hlast => exact .some hlast
    | none =>
      by_cases hkey : entry.1 = key
      · simpa [hkey] using hread
      · simp [hkey]

/-- An entry of a dictionary is read from the last member of its name. -/
theorem dictOf_ok {d : Draft} {dict : Dict α} (h : Draft.dictOf f d = .ok dict) (key : String) :
    Option.Rel (fun a d => f d = .ok a) (dict.find? key) (d.member? key) := by
  cases d with
  | object members close =>
    obtain ⟨entries, hmembers, hrest⟩ := bind_eq_ok_iff.1 h
    obtain ⟨-, -, hpure⟩ := bind_eq_ok_iff.1 hrest
    cases hpure
    rw [Dict.find?_ofList]
    refine last?_of_forall₂ ((mapM_eq_ok_iff.1 hmembers).imp fun m entry hm => ?_) key
    obtain ⟨k, hk, hm⟩ := bind_eq_ok_iff.1 hm
    obtain ⟨a, ha, hpure⟩ := bind_eq_ok_iff.1 hm
    cases hpure
    exact ⟨Lexeme.kept_eq_ok_iff.1 hk, ha⟩
  | keyless first => cases h
  | _ => exact absurd h mismatch_ne_ok

end Json

end Gamebook
