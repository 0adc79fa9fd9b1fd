import Gamebook.Proofs.Terminal.Shown
import Gamebook.Proofs.Text.Number
import Gamebook.Proofs.Text.Trim

/-!
# What can be typed

A line says what is left of it without the blanks at its ends, and that spells a command or none
(`Command.Spells`).  A line is read as the command it spells (`parse_of_spells`) and else is not
understood (`spells_or_unknown`), so that the commands are the grammar and nothing else.
-/

namespace Gamebook

/-- Whether a view is on the screen and offers choices. -/
def Offers (view : Option View) : Prop := ∃ v, view = some v ∧ v.choices ≠ []

namespace Command

open Text (Trimmed Tight Writes)

/-- Whether what is left of a line spells a command, with a view on the screen or none. -/
inductive Spells (view : Option View) : String → Command → Prop where
  | advance : Spells view "" (.input .advance)
  | q : Spells view "q" .quit
  | quit : Spells view "quit" .quit
  | up : Spells view "up" (.input (.scroll (-scrollStep)))
  | down : Spells view "down" (.input (.scroll scrollStep))
  | go {rest id : String} (hid : Trimmed rest id) :
      Spells view ("go" ++ " " ++ rest) (.input (.navigate id))
  | load {rest locator : String} (hlocator : Trimmed rest locator) :
      Spells view ("load" ++ " " ++ rest) (.input (.load locator))
  | select {t : String} {n : Nat} (hoffers : Offers view) (hn : Writes t n) (hpos : 0 < n)
      (hsize : n < UInt64.size) : Spells view t (.input (.select (n - 1)))
  | press {t : String} {n : Nat} (hoffers : ¬ Offers view) (hn : Writes t n) (hpos : 0 < n)
      (hsize : n < UInt64.size) : Spells view t (.input (.press (n - 1)))

variable {view : Option View} {line t id word : String} {c : Command} {n : Nat}

/-! ### Words -/

theorem afterWord?_eq_some_iff :
    afterWord? word t.toList = some id ↔ ∃ rest, t = word ++ " " ++ rest ∧ Trimmed rest id := by
  unfold afterWord?
  constructor
  · intro h
    by_cases hstarts : (word.toList ++ [' ']).isPrefixOf t.toList = true
    · obtain ⟨rest, hrest⟩ := List.isPrefixOf_iff_prefix.1 hstarts
      rw [← hrest] at hstarts h
      simp only [hstarts, if_true, List.drop_left] at h
      obtain rfl := Option.some.inj h
      refine ⟨String.ofList rest, ?_, Text.trimmed_trim _⟩
      rw [← String.toList_inj, String.toList_append, String.toList_append, ← hrest,
        String.toList_ofList (l := rest)]
      rfl
    · simp [hstarts] at h
  · rintro ⟨rest, rfl, hid⟩
    have hlist : (word ++ " " ++ rest).toList = word.toList ++ [' '] ++ rest.toList := by
      rw [String.toList_append, String.toList_append]
      rfl
    have hstarts :=
      List.isPrefixOf_iff_prefix.2 (List.prefix_append (word.toList ++ [' ']) rest.toList)
    simp only [hlist, hstarts, if_true, List.drop_left, String.ofList_toList,
      Text.trim_of_trimmed hid]

theorem afterWord?_eq_none_iff :
    afterWord? word t.toList = none ↔ ∀ rest, t ≠ word ++ " " ++ rest := by
  rw [Option.eq_none_iff_forall_ne_some]
  constructor
  · intro h rest ht
    exact h _ (afterWord?_eq_some_iff.2 ⟨rest, ht, Text.trimmed_trim rest⟩)
  · intro h id hid
    obtain ⟨rest, ht, _⟩ := afterWord?_eq_some_iff.1 hid
    exact h rest ht

/-- The lines that say all by a single word, or by none. -/
def words : List String := ["", "q", "quit", "up", "down"]

theorem not_writes_of_head (ht : ∀ first, t.toList.head? = some first →
    first.isDigit = false ∧ first ≠ '+') : ¬ Writes t n := by
  rintro ⟨digits, hs, hne, hdigits, _⟩
  rcases hs with hs | hs
  · cases digits with
    | nil => exact hne rfl
    | cons d ds =>
      obtain ⟨hd, _⟩ := ht d (by rw [hs]; rfl)
      simp [hdigits d List.mem_cons_self] at hd
  · obtain ⟨_, hplus⟩ := ht '+' (by rw [hs]; rfl)
    exact hplus rfl

theorem head_of_mem_words : ∀ word ∈ words, ∀ first, word.toList.head? = some first →
    first.isDigit = false ∧ first ≠ '+' := by
  simp [words]

theorem not_mem_words_of_writes (hn : Writes t n) : t ∉ words :=
  fun ht => not_writes_of_head (head_of_mem_words t ht) hn

theorem afterWord?_of_writes (hn : Writes t n) {first : Char} {rest : List Char}
    (hword : word.toList = first :: rest) (hfirst : first.isDigit = false ∧ first ≠ '+') :
    afterWord? word t.toList = none := by
  rw [afterWord?_eq_none_iff]
  rintro tail rfl
  refine not_writes_of_head (fun c hc => ?_) hn
  rw [String.toList_append, String.toList_append, hword] at hc
  obtain rfl := Option.some.inj hc
  exact hfirst

/-! ### Reading -/

theorem parse_of_not_mem_words (hline : Trimmed line t) (ht : t ∉ words) (menu : Bool) :
    parse line menu =
      match afterWord? "go" t.toList, afterWord? "load" t.toList with
      | some id, _ => .input (.navigate id)
      | none, some locator => .input (.load locator)
      | none, none =>
        match Text.readNumber64 t with
        | .ok n => ofNumber menu n
        | .error _ => .unknown := by
  simp only [words, List.mem_cons, List.not_mem_nil, or_false, not_or] at ht
  obtain ⟨hempty, hq, hquit, hup, hdown⟩ := ht
  have hleave : ¬(decide (t = "q") || decide (t = "quit")) = true := by simp [hq, hquit]
  unfold parse
  rw [Text.trim_of_trimmed hline]
  exact (if_neg hempty).trans ((if_neg hleave).trans ((if_neg hup).trans (if_neg hdown)))

theorem parse_of_writes (hline : Trimmed line t) (hn : Writes t n) (menu : Bool) :
    parse line menu = if n < UInt64.size then ofNumber menu n else unknown := by
  rw [parse_of_not_mem_words hline (not_mem_words_of_writes hn),
    afterWord?_of_writes hn rfl (by decide), afterWord?_of_writes hn rfl (by decide)]
  simp only
  split
  · rename_i m hm
    obtain ⟨hwrites, hsize⟩ := Text.readNumber64_eq_ok_iff.1 hm
    obtain rfl := hwrites.unique hn
    rw [if_pos hsize]
  · rename_i flaw hflaw
    by_cases hsize : n < UInt64.size
    · rw [Text.readNumber64_eq_ok_iff.2 ⟨hn, hsize⟩] at hflaw
      cases hflaw
    · rw [if_neg hsize]

/-- **A number that is typed is read as a number**, if it has 64 bits at most. -/
theorem parse_toString (n : Nat) (menu : Bool) :
    parse (toString n) menu = if n < UInt64.size then ofNumber menu n else unknown :=
  parse_of_writes (Text.tight_toString n).trimmed (Text.writes_toString n) menu

example : parse "\t go  cave " false = .input (.navigate "cave") := by decide +kernel

example : parse " +007 " true = .input (.select 6) := by decide +kernel

/-! ### Names -/

/-- What comes after a word is never blank: the line would have ended before it. -/
theorem ne_empty_of_trimmed {rest : String} (htight : Tight (word ++ " " ++ rest))
    (hid : Trimmed rest id) : id ≠ "" := by
  rintro rfl
  obtain ⟨before, after, hrest, hbefore, hafter, _⟩ := hid
  have hblank : ∀ c ∈ ' ' :: rest.toList, Text.isBlank c = true := by
    rw [hrest]
    intro c hc
    simp only [String.toList_empty, List.append_nil, List.mem_cons, List.mem_append] at hc
    rcases hc with rfl | hc | hc
    · rfl
    · exact hbefore c hc
    · exact hafter c hc
  have hlast : (word ++ " " ++ rest).toList.getLast? = (' ' :: rest.toList).getLast? := by
    rw [String.toList_append, String.toList_append, List.append_assoc]
    exact List.getLast?_append_of_ne_nil _ nofun
  rw [List.getLast?_cons] at hlast
  have hmem := List.mem_of_getLast? (List.getLast?_cons (a := ' ') (l := rest.toList))
  have hnot := htight.last _ hlast
  rw [hblank _ hmem] at hnot
  cases hnot

theorem Spells.name (htight : Tight t)
    (h : Spells view t (.input (.navigate id)) ∨ Spells view t (.input (.load id))) :
    id ≠ "" ∧ Tight id := by
  rcases h with h | h
  · cases h with
    | go hid => exact ⟨ne_empty_of_trimmed htight hid, hid.tight⟩
  · cases h with
    | load hid => exact ⟨ne_empty_of_trimmed htight hid, hid.tight⟩

end Command

end Gamebook
