import Gamebook.Text.Basic
import Mathlib.Data.List.Basic

/-!
# Text without the blanks around it

Trimming takes away what is blank at both ends of a text and nothing else (`trim_eq_iff`):
the text is what is left, between two stretches of blanks, and has none at its own ends.
-/

namespace Gamebook.Text

/-- Whether a text has no blank at either end. -/
structure Tight (s : String) : Prop where
  head : ∀ c, s.toList.head? = some c → isBlank c = false
  last : ∀ c, s.toList.getLast? = some c → isBlank c = false

/-- Whether a text is what is left of a line without the blanks at its ends. -/
def Trimmed (line t : String) : Prop :=
  ∃ before after, line.toList = before ++ t.toList ++ after ∧
    (∀ c ∈ before, isBlank c = true) ∧ (∀ c ∈ after, isBlank c = true) ∧ Tight t

variable {line t : String} {cs : List Char}

theorem dropWhile_of_head (h : ∀ c, cs.head? = some c → isBlank c = false) :
    cs.dropWhile isBlank = cs := by
  cases cs with
  | nil => rfl
  | cons c rest => rw [List.dropWhile_cons_of_neg (by simp [h c rfl])]

theorem isBlank_head_dropWhile {c : Char} (h : (cs.dropWhile isBlank).head? = some c) :
    isBlank c = false := by
  have hnot := List.head?_dropWhile_not isBlank cs
  rw [h] at hnot
  exact hnot

theorem trim_of_trimmed (h : Trimmed line t) : trim line = t := by
  obtain ⟨before, after, hline, hbefore, hafter, hhead, hlast⟩ := h
  have hback (c : Char) (hc : t.toList.reverse.head? = some c) : isBlank c = false :=
    hlast c (by rwa [List.head?_reverse] at hc)
  rw [← String.toList_inj, trim, String.toList_ofList, trimList, hline, List.append_assoc,
    List.dropWhile_append_of_pos hbefore]
  cases ht : t.toList with
  | nil =>
    have hall : (after ++ []).dropWhile isBlank = [].dropWhile isBlank :=
      List.dropWhile_append_of_pos hafter
    rw [List.append_nil] at hall
    rw [List.nil_append, hall]
    rfl
  | cons c rest =>
    rw [ht] at hhead hback
    have hnot : isBlank c = false := hhead c rfl
    rw [List.cons_append, List.dropWhile_cons_of_neg (by simp [hnot]), ← List.cons_append,
      List.reverse_append,
      List.dropWhile_append_of_pos fun c hc => hafter c (List.mem_reverse.1 hc),
      dropWhile_of_head hback, List.reverse_reverse]

theorem trimmed_trim (line : String) : Trimmed line (trim line) := by
  have hfront := List.takeWhile_append_dropWhile (p := isBlank) (l := line.toList)
  have hhead : ∀ c, (line.toList.dropWhile isBlank).head? = some c → isBlank c = false :=
    fun c => isBlank_head_dropWhile
  have htrim : (trim line).toList =
      ((line.toList.dropWhile isBlank).reverse.dropWhile isBlank).reverse := by
    rw [trim, String.toList_ofList, trimList]
  generalize line.toList.dropWhile isBlank = rest at hfront hhead htrim
  have hback := List.takeWhile_append_dropWhile (p := isBlank) (l := rest.reverse)
  have hrest : rest = (rest.reverse.dropWhile isBlank).reverse ++
      (rest.reverse.takeWhile isBlank).reverse := by
    rw [← List.reverse_append, hback, List.reverse_reverse]
  refine ⟨line.toList.takeWhile isBlank, (rest.reverse.takeWhile isBlank).reverse, ?_, ?_, ?_,
    ?_, ?_⟩
  · rw [htrim, List.append_assoc, ← hrest, hfront]
  · intro c hc
    exact List.all_eq_true.1 List.all_takeWhile c hc
  · intro c hc
    exact List.all_eq_true.1 List.all_takeWhile c (List.mem_reverse.1 hc)
  · intro c hc
    -- what is left begins as the text does where its blanks in front are gone
    rw [htrim] at hc
    apply hhead c
    rw [hrest, List.head?_append, hc]
    rfl
  · intro c hc
    rw [htrim, List.getLast?_reverse] at hc
    exact isBlank_head_dropWhile hc

/-- **Trimming takes away the blanks at the ends of a text**, all of them and nothing else. -/
theorem trim_eq_iff : trim line = t ↔ Trimmed line t := by
  constructor
  · rintro rfl
    exact trimmed_trim line
  · exact trim_of_trimmed

theorem Tight.trimmed (h : Tight t) : Trimmed t t :=
  ⟨[], [], by simp, nofun, nofun, h⟩

theorem Trimmed.tight (h : Trimmed line t) : Tight t := by
  obtain ⟨_, _, _, _, _, htight⟩ := h
  exact htight

end Gamebook.Text
