/-!
Dictionaries from text to values, listed in the order of their keys.

Each key stands once and the keys ascend by code point, which is also the order of their UTF-8
bytes. Main statement: `Dict.find?_insert`, the last write of a key wins.
-/
namespace Gamebook

structure Dict (α : Type) where
  entries : List (String × α)
  sorted : entries.Pairwise (fun a b => a.1 < b.1)
deriving DecidableEq

namespace Dict

variable {α β : Type}

def empty : Dict α := ⟨[], .nil⟩

instance : Inhabited (Dict α) := ⟨empty⟩

/-- Puts an entry before the first greater key, in place of an equal one. -/
def put (key : String) (value : α) : List (String × α) → List (String × α)
  | [] => [(key, value)]
  | (k, v) :: rest =>
    if key < k then (key, value) :: (k, v) :: rest
    else if key = k then (key, value) :: rest
    else (k, v) :: put key value rest

theorem mem_put {key : String} {value : α} {l : List (String × α)} {e : String × α}
    (he : e ∈ put key value l) : e = (key, value) ∨ e ∈ l := by
  induction l with
  | nil => simpa [put] using he
  | cons a rest ih =>
    obtain ⟨k, v⟩ := a
    simp only [put] at he
    split at he
    · simpa using he
    · split at he
      · rcases List.mem_cons.1 he with h | h
        · exact .inl h
        · exact .inr (List.mem_cons_of_mem _ h)
      · rcases List.mem_cons.1 he with h | h
        · exact .inr (h ▸ List.mem_cons_self)
        · exact (ih h).imp id (List.mem_cons_of_mem _)

theorem sorted_put (key : String) (value : α) {l : List (String × α)}
    (hl : l.Pairwise (fun a b => a.1 < b.1)) :
    (put key value l).Pairwise (fun a b => a.1 < b.1) := by
  induction l with
  | nil => simp [put]
  | cons a rest ih =>
    obtain ⟨k, v⟩ := a
    obtain ⟨hhead, htail⟩ := List.pairwise_cons.1 hl
    simp only [put]
    split
    · rename_i h
      refine List.pairwise_cons.2 ⟨fun e he => ?_, hl⟩
      rcases List.mem_cons.1 he with rfl | he
      · exact h
      · exact String.lt_trans h (hhead e he)
    · split
      · rename_i h
        exact List.pairwise_cons.2 ⟨fun e he => h ▸ hhead e he, htail⟩
      · rename_i h hne
        refine List.pairwise_cons.2 ⟨fun e he => ?_, ih htail⟩
        rcases mem_put he with rfl | he
        · exact Std.lt_of_le_of_ne (String.not_lt.1 h) (Ne.symm hne)
        · exact hhead e he

def insert (d : Dict α) (key : String) (value : α) : Dict α :=
  ⟨put key value d.entries, sorted_put key value d.sorted⟩

/-- Later entries of the list replace earlier ones of the same key. -/
def ofList (l : List (String × α)) : Dict α :=
  l.foldl (fun d e => d.insert e.1 e.2) empty

def find? (d : Dict α) (key : String) : Option α :=
  d.entries.lookup key

def contains (d : Dict α) (key : String) : Bool :=
  (d.find? key).isSome

def keys (d : Dict α) : List String := d.entries.map (·.1)

def size (d : Dict α) : Nat := d.entries.length

def map (f : α → β) (d : Dict α) : Dict β :=
  ⟨d.entries.map fun e => (e.1, f e.2), List.pairwise_map.2 d.sorted⟩

theorem lookup_cons (k key : String) (value : α) (l : List (String × α)) :
    ((key, value) :: l).lookup k = if k = key then some value else l.lookup k := by
  rw [List.lookup_cons]
  by_cases h : k = key
  · rw [if_pos h, beq_iff_eq.2 h]
  · rw [if_neg h, beq_eq_false_iff_ne.2 h]

theorem lookup_put (key k : String) (value : α) (l : List (String × α)) :
    (put key value l).lookup k = if k = key then some value else l.lookup k := by
  induction l with
  | nil => rw [put, lookup_cons]
  | cons a rest ih =>
    obtain ⟨k', v'⟩ := a
    simp only [put]
    split
    · rw [lookup_cons]
    · split
      · rename_i hk
        subst hk
        rw [lookup_cons, lookup_cons]
        split <;> rfl
      · rename_i hne
        rw [lookup_cons, lookup_cons, ih]
        by_cases hk' : k = k'
        · subst hk'
          rw [if_pos rfl, if_neg (Ne.symm hne), if_pos rfl]
        · rw [if_neg hk', if_neg hk']

theorem find?_insert (d : Dict α) (key k : String) (value : α) :
    (d.insert key value).find? k = if k = key then some value else d.find? k :=
  lookup_put key k value d.entries

@[simp] theorem find?_empty (k : String) : (empty : Dict α).find? k = none := rfl

end Dict

end Gamebook
