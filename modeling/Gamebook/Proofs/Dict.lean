import Gamebook.Dict
import Mathlib.Data.List.Sort

/-!
# What a dictionary is known by

The entries of a dictionary are what can be looked up in it
(`Dict.find?_eq_some_iff`), and look-ups tell dictionaries apart
(`Dict.ext_find?`).  A dictionary made of a list holds the last entry of each key
(`Dict.find?_ofList`), and made of its own entries it is itself (`Dict.ofList_entries`).
-/

namespace Gamebook

namespace Dict

variable {α : Type} {d e : Dict α} {key : String} {value : α}

theorem mem_of_find? (h : d.find? key = some value) : (key, value) ∈ d.entries := by
  obtain ⟨first, last, hentries, _⟩ := List.lookup_eq_some_iff.1 h
  rw [hentries]
  exact List.mem_append_right _ List.mem_cons_self

/-- No other entry of the key stands before an entry, so it is the one that is found. -/
theorem find?_of_mem (h : (key, value) ∈ d.entries) : d.find? key = some value := by
  obtain ⟨first, last, hentries⟩ := List.append_of_mem h
  refine List.lookup_eq_some_iff.2 ⟨first, last, hentries, fun entry hentry => ?_⟩
  have hsorted := d.sorted
  rw [hentries] at hsorted
  have hlt : entry.1 < key :=
    (List.pairwise_append.1 hsorted).2.2 entry hentry (key, value) List.mem_cons_self
  simp only [bne_iff_ne, ne_eq]
  rintro rfl
  exact String.lt_irrefl _ hlt

theorem find?_eq_some_iff : d.find? key = some value ↔ (key, value) ∈ d.entries :=
  ⟨mem_of_find?, find?_of_mem⟩

theorem contains_eq_false_iff : d.contains key = false ↔ d.find? key = none := by
  unfold contains
  cases d.find? key with
  | none => simp
  | some value => simp

theorem nodup_keys (d : Dict α) : (d.entries.map Prod.fst).Nodup :=
  List.pairwise_map.2 (d.sorted.imp fun {a b} hlt (heq : a.1 = b.1) =>
    String.lt_irrefl _ (heq ▸ hlt))

/-- **Look-ups tell dictionaries apart.** -/
theorem ext_find? (h : ∀ key, d.find? key = e.find? key) : d = e := by
  have hmem (entry : String × α) : entry ∈ d.entries ↔ entry ∈ e.entries := by
    rw [← Prod.mk.eta (p := entry), ← find?_eq_some_iff, ← find?_eq_some_iff, h]
  have : Std.Irrefl fun a b : String × α => a.1 < b.1 := ⟨fun a => String.lt_irrefl a.1⟩
  have : Std.Antisymm fun a b : String × α => a.1 < b.1 :=
    ⟨fun a b hab hba => absurd hba (String.lt_asymm hab)⟩
  have hentries : d.entries = e.entries := d.sorted.eq_of_mem_iff e.sorted hmem
  cases d
  cases e
  simpa only [mk.injEq] using hentries

/-! ### Dictionaries of lists -/

/-- The last entry of a key. -/
def last? (key : String) : List (String × α) → Option α
  | [] => none
  | (k, value) :: rest => (last? key rest).or (if k = key then some value else none)

@[simp] theorem last?_nil : last? key ([] : List (String × α)) = none := rfl

@[simp] theorem last?_cons (k : String) (rest : List (String × α)) :
    last? key ((k, value) :: rest) =
      (last? key rest).or (if k = key then some value else none) := rfl

@[simp] theorem last?_append (first last : List (String × α)) :
    last? key (first ++ last) = (last? key last).or (last? key first) := by
  induction first with
  | nil => simp
  | cons entry first ih => rw [List.cons_append, last?_cons, ih, last?_cons, Option.or_assoc]

theorem mem_of_last? {l : List (String × α)} (h : last? key l = some value) :
    (key, value) ∈ l := by
  induction l with
  | nil => simp at h
  | cons entry l ih =>
    rw [last?_cons, Option.or_eq_some_iff] at h
    rcases h with hrest | ⟨-, hhere⟩
    · exact List.mem_cons_of_mem _ (ih hrest)
    · obtain ⟨rfl, rfl⟩ := by simpa using hhere
      exact List.mem_cons_self

theorem last?_ne_none_of_mem {l : List (String × α)} (h : (key, value) ∈ l) :
    last? key l ≠ none := by
  induction l with
  | nil => simp at h
  | cons entry l ih =>
    rw [last?_cons, ne_eq, Option.or_eq_none_iff, not_and]
    rcases List.mem_cons.1 h with rfl | hrest
    · simp
    · exact fun hnone => absurd hnone (ih hrest)

theorem last?_of_mem {l : List (String × α)} (hnodup : (l.map Prod.fst).Nodup)
    (h : (key, value) ∈ l) : last? key l = some value := by
  obtain ⟨found, hfound⟩ := Option.ne_none_iff_exists'.1 (last?_ne_none_of_mem h)
  have heq : (key, value) = (key, found) :=
    List.inj_on_of_nodup_map hnodup h (mem_of_last? hfound) rfl
  rw [hfound, (Prod.mk.inj heq).2]

theorem find?_foldl_insert (d : Dict α) (l : List (String × α)) :
    (l.foldl (fun d entry => d.insert entry.1 entry.2) d).find? key =
      (last? key l).or (d.find? key) := by
  induction l generalizing d with
  | nil => simp
  | cons entry l ih =>
    rw [List.foldl_cons, ih, find?_insert, last?_cons, Option.or_assoc]
    by_cases hkey : key = entry.1
    · simp [hkey]
    · simp [hkey, Ne.symm hkey]

theorem find?_ofList (l : List (String × α)) : (ofList l).find? key = last? key l := by
  rw [ofList, find?_foldl_insert, find?_empty, Option.or_none]

theorem last?_entries (d : Dict α) : last? key d.entries = d.find? key := by
  cases hlast : last? key d.entries with
  | some value => exact (find?_of_mem (mem_of_last? hlast)).symm
  | none =>
    cases hfind : d.find? key with
    | none => rfl
    | some value => exact absurd hlast (last?_ne_none_of_mem (mem_of_find? hfind))

theorem ofList_entries (d : Dict α) : ofList d.entries = d :=
  ext_find? fun key => by rw [find?_ofList, last?_entries]

theorem mem_of_mem_ofList {l : List (String × α)} {entry : String × α}
    (h : entry ∈ (ofList l).entries) : entry ∈ l :=
  mem_of_last? (by rw [← find?_ofList]; exact find?_of_mem h)

/-- Where keys differ, a dictionary holds all the entries it is made of. -/
theorem entries_ofList_perm {l : List (String × α)} (hnodup : (l.map Prod.fst).Nodup) :
    (ofList l).entries.Perm l := by
  refine (List.perm_ext_iff_of_nodup (nodup_keys _).of_map hnodup.of_map).2 fun entry => ?_
  refine ⟨mem_of_mem_ofList, fun hentry => mem_of_find? ?_⟩
  rw [find?_ofList, last?_of_mem hnodup hentry]

end Dict

end Gamebook
