import Gamebook.Proofs.Text.Trim
import Gamebook.Text.Basic

/-!
# Reading a number that was written in decimal

What is read as a number is digits, one plus sign allowed before them (`Writes`), as
long as the number has 64 bits at most (`readNumber64_eq_ok_iff`).  A number that is
written in decimal is one of these (`writes_toString`), with no blank to be trimmed off it
(`tight_toString`).
-/

namespace Gamebook.Text

/-! ### Digits -/

theorem isDigit_of_mem_toString {n : Nat} {c : Char} (hc : c ∈ (toString n).toList) :
    c.isDigit = true := by
  rw [Nat.toString_eq_ofList_toDigits, String.toList_ofList] at hc
  exact Nat.isDigit_of_mem_toDigits (by decide) (by decide) hc

theorem toList_toString_ne_nil (n : Nat) : (toString n).toList ≠ [] := by
  rw [Nat.toString_eq_ofList_toDigits, String.toList_ofList]
  exact Nat.toDigits_ne_nil

theorem isBlank_of_isDigit {c : Char} (h : c.isDigit = true) : isBlank c = false := by
  obtain ⟨hlow, hhigh⟩ := Char.isDigit_iff_toNat.1 h
  change 48 ≤ c.toNat at hlow
  change c.toNat ≤ 57 at hhigh
  simp [isBlank]
  omega

theorem tight_toString (n : Nat) : Tight (toString n) := by
  have hblank (c : Char) (hc : c ∈ (toString n).toList) : isBlank c = false :=
    isBlank_of_isDigit (isDigit_of_mem_toString hc)
  constructor
  · intro c hc
    exact hblank c (List.mem_of_mem_head? hc)
  · intro c hc
    exact hblank c (List.mem_of_getLast? hc)

/-! ### Reading -/

theorem ofDigitChars_cons (c : Char) (cs : List Char) (n : Nat) :
    Nat.ofDigitChars 10 (c :: cs) n = Nat.ofDigitChars 10 cs (n * 10 + digitValue c) := by
  rw [Nat.ofDigitChars_cons, Nat.mul_comm]
  rfl

theorem le_ofDigitChars (cs : List Char) (n : Nat) : n ≤ Nat.ofDigitChars 10 cs n := by
  induction cs generalizing n with
  | nil => exact Nat.le_refl n
  | cons c cs ih =>
    rw [ofDigitChars_cons]
    have hrest := ih (n * 10 + digitValue c)
    omega

/-- Digits are read as the number they write, as long as it is below the bound. -/
theorem readDigits_of_isDigit {bound : Nat} {cs : List Char} (hcs : ∀ c ∈ cs, c.isDigit = true)
    {n : Nat} (hn : n < bound) :
    readDigits bound n cs =
      if Nat.ofDigitChars 10 cs n < bound then .ok (Nat.ofDigitChars 10 cs n)
      else .error .tooLarge := by
  induction cs generalizing n with
  | nil => simp [readDigits, hn]
  | cons c cs ih =>
    obtain ⟨hc, hcs⟩ := List.forall_mem_cons.1 hcs
    rw [ofDigitChars_cons]
    unfold readDigits
    simp only [hc, Bool.not_true, Bool.false_eq_true, if_false]
    by_cases hm : n * 10 + digitValue c < bound
    · rw [if_pos hm]
      exact ih hcs hm
    · -- the number only grows with the digits that follow
      have hle := le_ofDigitChars cs (n * 10 + digitValue c)
      rw [if_neg hm, if_neg (by omega)]

theorem dropPlus_of_isDigit {cs : List Char} (h : ∀ c ∈ cs, c.isDigit = true) :
    dropPlus cs = cs := by
  unfold dropPlus
  split
  · have hplus := h '+' List.mem_cons_self
    nomatch hplus
  · rfl

theorem ofDigitChars_toString (n : Nat) : Nat.ofDigitChars 10 (toString n).toList 0 = n := by
  rw [Nat.toString_eq_ofList_toDigits, String.toList_ofList, Nat.ofDigitChars_ten_toDigits]

/-! ### What is read -/

/-- Whether a text writes a number: digits, zeros in front allowed, after one plus sign or none. -/
def Writes (s : String) (n : Nat) : Prop :=
  ∃ digits, (s.toList = digits ∨ s.toList = '+' :: digits) ∧ digits ≠ [] ∧
    (∀ c ∈ digits, c.isDigit = true) ∧ Nat.ofDigitChars 10 digits 0 = n

variable {s : String} {n : Nat}

theorem writes_toString (n : Nat) : Writes (toString n) n :=
  ⟨(toString n).toList, Or.inl rfl, toList_toString_ne_nil n, fun _ => isDigit_of_mem_toString,
    ofDigitChars_toString n⟩

theorem dropPlus_of_writes {digits : List Char} (hs : s.toList = digits ∨ s.toList = '+' :: digits)
    (hdigits : ∀ c ∈ digits, c.isDigit = true) : dropPlus s.toList = digits := by
  rcases hs with hs | hs
  · rw [hs, dropPlus_of_isDigit hdigits]
  · rw [hs]
    rfl

/-- A text writes one number at most: a digit is no plus sign. -/
theorem Writes.unique {m : Nat} (hm : Writes s m) (hn : Writes s n) : m = n := by
  obtain ⟨ds, hds, _, hdigits, rfl⟩ := hm
  obtain ⟨es, hes, _, hdigits', rfl⟩ := hn
  rw [← dropPlus_of_writes hds hdigits, ← dropPlus_of_writes hes hdigits']

theorem isDigit_of_readDigits {bound m : Nat} {cs : List Char} (h : readDigits bound n cs = .ok m) :
    ∀ c ∈ cs, c.isDigit = true := by
  induction cs generalizing n with
  | nil => nofun
  | cons d ds ih =>
    unfold readDigits at h
    by_cases hd : d.isDigit = true
    · simp only [hd, Bool.not_true, Bool.false_eq_true, if_false] at h
      split at h
      · exact List.forall_mem_cons.2 ⟨hd, ih h⟩
      · cases h
    · simp [hd] at h

theorem eq_dropPlus (cs : List Char) : cs = dropPlus cs ∨ cs = '+' :: dropPlus cs := by
  unfold dropPlus
  split
  · exact Or.inr rfl
  · exact Or.inl rfl

theorem readNumber64_of_ne_nil (hs : dropPlus s.toList ≠ []) :
    readNumber64 s = readDigits UInt64.size 0 (dropPlus s.toList) := by
  unfold readNumber64
  cases hcs : s.toList with
  | nil =>
    rw [hcs] at hs
    exact absurd rfl hs
  | cons c cs =>
    rw [hcs] at hs
    simp only

/-- **A text is read as a number just if it writes one** of 64 bits. -/
theorem readNumber64_eq_ok_iff : readNumber64 s = .ok n ↔ Writes s n ∧ n < UInt64.size := by
  constructor
  · intro h
    have hne : dropPlus s.toList ≠ [] := by
      intro hnil
      unfold readNumber64 at h
      cases hcs : s.toList with
      | nil => simp [hcs] at h
      | cons c cs =>
        rw [hcs] at hnil
        simp [hcs, hnil] at h
    rw [readNumber64_of_ne_nil hne] at h
    have hdigits := isDigit_of_readDigits h
    rw [readDigits_of_isDigit hdigits (by decide)] at h
    split at h
    · rename_i hsize
      obtain rfl := Except.ok.inj h
      exact ⟨⟨dropPlus s.toList, eq_dropPlus _, hne, hdigits, rfl⟩, hsize⟩
    · cases h
  · rintro ⟨⟨digits, hs, hne, hdigits, rfl⟩, hsize⟩
    have hdrop := dropPlus_of_writes hs hdigits
    rw [readNumber64_of_ne_nil (by rwa [hdrop]), hdrop,
      readDigits_of_isDigit hdigits (by decide), if_pos hsize]

end Gamebook.Text
