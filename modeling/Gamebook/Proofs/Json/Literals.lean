import Gamebook.Proofs.Json.Grammar
import Mathlib.Data.List.DropRight

/-!
# Strings and numbers are read as they are spelt

A string is cut into pieces up to its closing quote, and the pieces join to what it spells
(`readLiteral_of_spells`).  A number is read part by part, each up to a character that
cannot go on with it (`readNumber_of_spells`); what follows a number `Ends` it.

That an integer has neither fraction nor exponent and fits 64 bits is a fact about the value
of a number alone (`Numeral.means_iff`): its digits are all taken in just when they fit.
-/

namespace Gamebook.Json

/-! ### Blanks -/

theorem skipBlanks_append {blanks : List Char} (h : Blanks blanks) (cs : List Char) :
    skipBlanks (blanks ++ cs) = skipBlanks cs :=
  List.dropWhile_append_of_pos h

theorem skipBlanks_of_not_blank {c : Char} (h : isBlank c = false) (cs : List Char) :
    skipBlanks (c :: cs) = c :: cs :=
  List.dropWhile_cons_of_neg (by simp [h])

theorem skipBlanks_blanks_append {blanks : List Char} (h : Blanks blanks) {c : Char}
    (hc : isBlank c = false) (cs : List Char) : skipBlanks (blanks ++ c :: cs) = c :: cs :=
  (skipBlanks_append h _).trans (skipBlanks_of_not_blank hc cs)

theorem skipBlanks_skipBlanks (cs : List Char) : skipBlanks (skipBlanks cs) = skipBlanks cs :=
  List.dropWhile_idempotent isBlank cs

/-- A text that cannot go on with a number. -/
def Ends (rest : List Char) : Prop :=
  ∀ c ∈ rest.head?, isBlank c = true ∨ c = ',' ∨ c = ']' ∨ c = '}'

theorem Ends.of_blanks {blanks rest : List Char} (h : Blanks blanks) (hrest : Ends rest) :
    Ends (blanks ++ rest) := by
  cases blanks with
  | nil => exact hrest
  | cons b blanks =>
    intro c hc
    obtain rfl : b = c := Option.some.inj hc
    exact Or.inl (h b List.mem_cons_self)

/-! ### Strings -/

theorem cut_plain {c : Char} (hlow : 0x20 ≤ c.toNat) (hquote : c ≠ '"') (hslash : c ≠ '\\')
    (acc : List Piece) (cs : List Char) : cut acc (c :: cs) = cut (.char c :: acc) cs := by
  simp [cut, hslash, Nat.not_lt.2 hlow]

theorem cut_escape {c e : Char} (he : simpleEscape? e = some c) (acc : List Piece)
    (cs : List Char) : cut acc ('\\' :: e :: cs) = cut (.char c :: acc) cs := by
  have hunit : e ≠ 'u' := by
    rintro rfl
    nomatch he
  simp [cut, hunit, he]

theorem cut_unit {a b c d : Char} {n : Nat} (hn : Text.hexNumber? [a, b, c, d] = some n)
    (acc : List Piece) (cs : List Char) :
    cut acc ('\\' :: 'u' :: a :: b :: c :: d :: cs) = cut (.unit n :: acc) cs := by
  simp [cut, hn]

theorem isTrailing_of_isLeading {n : Nat} (h : isLeading n = true) : isTrailing n = false := by
  simp [isLeading] at h
  simp [isTrailing]
  omega

/-- What spells a text is cut into pieces that are joined to it. -/
theorem exists_pieces {s cs : List Char} (h : SpellsText s cs) (rest : List Char)
    (acc : List Piece) :
    ∃ pieces, cut acc (cs ++ '"' :: rest) = (acc.reverse ++ pieces, .closed, rest) ∧
      ∀ done, join .closed done pieces = .ok (done.reverse ++ s) := by
  induction h generalizing acc with
  | nil => exact ⟨[], by simp [cut], fun done => by simp [join, LiteralEnd.flaw?]⟩
  | @plain c s cs hlow hquote hslash _ ih =>
    obtain ⟨pieces, hcut, hjoin⟩ := ih (.char c :: acc)
    exact ⟨.char c :: pieces, by simp [cut_plain hlow hquote hslash, hcut],
      fun done => by simp [join, hjoin]⟩
  | @escape c e s cs he _ ih =>
    obtain ⟨pieces, hcut, hjoin⟩ := ih (.char c :: acc)
    exact ⟨.char c :: pieces, by simp [cut_escape he, hcut], fun done => by simp [join, hjoin]⟩
  | @unit _ _ _ _ n s cs hn hleading htrailing _ ih =>
    obtain ⟨pieces, hcut, hjoin⟩ := ih (.unit n :: acc)
    exact ⟨.unit n :: pieces, by simp [cut_unit hn, hcut],
      fun done => by rw [join.eq_def]; simp [hleading, htrailing, hjoin]⟩
  | @pair _ _ _ _ _ _ _ _ m n s cs hm hleading hn htrailing _ ih =>
    -- the pair is two pieces, which only the joining takes together
    obtain ⟨pieces, hcut, hjoin⟩ := ih (.unit n :: .unit m :: acc)
    exact ⟨.unit m :: .unit n :: pieces, by simp [cut_unit hm, cut_unit hn, hcut],
      fun done => by
        simp [join, hleading, isTrailing_of_isLeading hleading, htrailing, hjoin]⟩

/-- **A string is read** as what it spells. -/
theorem readLiteral_of_spells {s cs : List Char} (h : SpellsText s cs) (rest : List Char) :
    readLiteral (cs ++ '"' :: rest) = (.good (String.ofList s), rest) := by
  obtain ⟨pieces, hcut, hjoin⟩ := exists_pieces h rest []
  unfold readLiteral
  simp only [hcut, List.reverse_nil, List.nil_append, hjoin]

/-! ### Numbers -/

namespace Numeral

/-- The number that the digits make of the one before them. -/
def following (n : Nat) (digits : List Nat) : Nat := digits.foldl (fun n d => n * 10 + d) n

theorem le_following (n : Nat) (digits : List Nat) : n ≤ following n digits := by
  induction digits generalizing n with
  | nil => exact Nat.le_refl n
  | cons d digits ih =>
    have hrest : n * 10 + d ≤ following n (d :: digits) := ih (n * 10 + d)
    omega

theorem accumulate_of_le {n : Nat} {digits : List Nat} (h : following n digits ≤ largest) :
    accumulate n digits = (following n digits, 0) := by
  induction digits generalizing n with
  | nil => rfl
  | cons d digits ih =>
    have hfirst : n * 10 + d ≤ largest := (le_following (n * 10 + d) digits).trans h
    rw [accumulate, if_pos hfirst, ih h]
    rfl

theorem accumulate_of_lt {n : Nat} {digits : List Nat} (hn : n ≤ largest)
    (h : largest < following n digits) : (accumulate n digits).2 ≠ 0 := by
  induction digits generalizing n with
  | nil => exact absurd hn (Nat.not_le.2 h)
  | cons d digits ih =>
    rw [accumulate]
    split
    · exact ih ‹_› h
    · exact Nat.succ_ne_zero _

theorem value_of_whole {n : Numeral} (hfraction : n.fraction = []) (hexponent : n.exponent = none)
    (h : decimalValue n.whole ≤ largest) :
    n.value = some (
      if n.negative = false then .int (decimalValue n.whole)
      else if decimalValue n.whole = 0 ∨ 0x8000000000000000 < decimalValue n.whole then
        .float (-(decimalValue n.whole).toUInt64.toFloat)
      else .int (-decimalValue n.whole)) := by
  unfold value
  rw [accumulate_of_le (n := 0) h, hfraction, hexponent]
  cases n.negative with
  | false => rfl
  | true =>
    by_cases hrange : decimalValue n.whole = 0 ∨ 0x8000000000000000 < decimalValue n.whole
    · rw [if_neg (by simp), if_pos hrange]
      exact if_pos hrange
    · rw [if_neg (by simp), if_neg hrange]
      exact if_neg hrange

/-- Only a number with neither fraction nor exponent that fits 64 bits is an integer. -/
theorem whole_of_value {n : Numeral} {i : Int} (h : n.value = some (.int i)) :
    n.fraction = [] ∧ n.exponent = none ∧ decimalValue n.whole ≤ largest := by
  have hscaled : ∀ o : Option Float,
      o.map (fun x => Number.float (signed n.negative x)) ≠ some (.int i) := by
    intro o
    cases o <;> simp
  unfold value at h
  simp only at h
  split at h
  · rename_i hfraction hexponent
    refine ⟨hfraction, hexponent, Nat.le_of_not_lt fun hlarge => ?_⟩
    have hdropped := accumulate_of_lt (n := 0) (Nat.zero_le _) hlarge
    rw [if_pos hdropped] at h
    exact absurd h (hscaled _)
  · exfalso
    split at h
    · exact hscaled _ h
    · split at h
      · split at h
        · nomatch h
        · nomatch h
      · exact hscaled _ h

/-- **What a number stands for is its value.** -/
theorem means_iff {n : Numeral} {v : Number} : n.Means v ↔ n.value = some v := by
  constructor
  · rintro (⟨hsign, hfraction, hexponent, h⟩ | ⟨hsign, hfraction, hexponent, hpos, h⟩ | h)
    · have hfits : decimalValue n.whole ≤ largest := Nat.le_sub_one_of_lt h
      rw [value_of_whole hfraction hexponent hfits, if_pos hsign]
    · have hfits : decimalValue n.whole ≤ largest := h.trans (by decide)
      rw [value_of_whole hfraction hexponent hfits, if_neg (by simp [hsign]), if_neg (by omega)]
    · exact h
  · intro h
    cases v with
    | float x => exact .float h
    | int i =>
      obtain ⟨hfraction, hexponent, hfits⟩ := whole_of_value h
      rw [value_of_whole hfraction hexponent hfits] at h
      have hi := Option.some.inj h
      split at hi
      · rename_i hsign
        exact hi ▸ .natural hsign hfraction hexponent (Nat.lt_add_one_of_le hfits)
      · rename_i hsign
        split at hi
        · nomatch hi
        · rename_i hrange
          exact hi ▸ .negative (by simpa using hsign) hfraction hexponent (by omega) (by omega)

end Numeral

theorem isDigit_of_isBlank {c : Char} (h : isBlank c = true) : c.isDigit = false := by
  simp only [isBlank, Bool.or_eq_true, decide_eq_true_eq] at h
  rcases h with ((rfl | rfl) | rfl) | rfl <;> rfl

theorem ne_of_isDigit {c : Char} (h : c.isDigit = true) :
    isBlank c = false ∧ c ≠ 'n' ∧ c ≠ 't' ∧ c ≠ 'f' ∧ c ≠ '"' ∧ c ≠ '[' ∧ c ≠ '{' ∧ c ≠ '-' := by
  refine ⟨Bool.eq_false_iff.2 fun hblank => ?_, ?_, ?_, ?_, ?_, ?_, ?_, ?_⟩
  · nomatch h.symm.trans (isDigit_of_isBlank hblank)
  all_goals
    rintro rfl
    nomatch h

theorem splitDigits_append {digits : List Nat} {cs rest : List Char} (h : SpellsDigits digits cs)
    (hrest : ∀ c ∈ rest.head?, c.isDigit = false) : splitDigits (cs ++ rest) = (digits, rest) := by
  have hstop : rest.takeWhile Char.isDigit = [] ∧ rest.dropWhile Char.isDigit = rest := by
    cases rest with
    | nil => exact ⟨rfl, rfl⟩
    | cons c rest => simp [hrest c rfl]
  unfold splitDigits
  rw [List.takeWhile_append_of_pos h.isDigit, List.dropWhile_append_of_pos h.isDigit, hstop.1,
    hstop.2, List.append_nil, h.digits_eq]

theorem SpellsDigits.digits_ne_nil {digits : List Nat} {cs : List Char}
    (h : SpellsDigits digits cs) : digits ≠ [] := by
  rw [h.digits_eq, ne_eq, List.map_eq_nil_iff]
  exact h.ne_nil

theorem Ends.not_digit {rest : List Char} (h : Ends rest) :
    ∀ c ∈ rest.head?, c.isDigit = false := by
  intro c hc
  rcases h c hc with hblank | rfl | rfl | rfl
  · exact isDigit_of_isBlank hblank
  · rfl
  · rfl
  · rfl

theorem Ends.head_ne {rest : List Char} (h : Ends rest) {c : Char} (hc : isBlank c = false)
    (hmark : c ≠ ',' ∧ c ≠ ']' ∧ c ≠ '}') : ∀ r, rest ≠ c :: r := by
  rintro r rfl
  rcases h c rfl with hb | rfl | rfl | rfl
  · simp [hc] at hb
  · exact hmark.1 rfl
  · exact hmark.2.1 rfl
  · exact hmark.2.2 rfl

section Numbers

variable {n : Numeral} {v : Number} {cs rest : List Char}

theorem finishNumber_of_value (hv : n.value = some v) (rest : List Char) :
    finishNumber n rest = (.good v, rest) := by
  unfold finishNumber
  rw [hv]

theorem SpellsDigits.exists_cons {digits : List Nat} (h : SpellsDigits digits cs) :
    ∃ c cs', cs = c :: cs' ∧ c.isDigit = true := by
  obtain ⟨c, cs', rfl⟩ := List.exists_cons_of_ne_nil h.ne_nil
  exact ⟨c, cs', rfl, h.isDigit c List.mem_cons_self⟩

theorem readExponent_of_spells {negative : Bool} {digits : List Nat} {sign : List Char}
    (hsign : SpellsSign negative sign) (h : SpellsDigits digits cs)
    (hv : { n with exponent := some (negative, digits) }.value = some v) (hrest : Ends rest) :
    readExponent n (sign ++ (cs ++ rest)) = (.good v, rest) := by
  have hdigits : splitDigits (cs ++ rest) = (digits, rest) := splitDigits_append h hrest.not_digit
  have hfinish := finishNumber_of_value hv rest
  obtain ⟨d, ds, rfl⟩ := List.exists_cons_of_ne_nil h.digits_ne_nil
  cases hsign with
  | none =>
    obtain ⟨c, cs', rfl, hc⟩ := h.exists_cons
    have hplus : c ≠ '+' := by rintro rfl; nomatch hc
    have hminus : c ≠ '-' := by rintro rfl; nomatch hc
    rw [List.cons_append] at hdigits ⊢
    simp [readExponent, hplus, hminus, hdigits, hfinish]
  | plus =>
    simp [readExponent, hdigits, hfinish]
  | minus =>
    simp [readExponent, hdigits, hfinish]

theorem readAfterFraction_of_spells {exponent : Option (Bool × List Nat)}
    (h : SpellsExponent exponent cs) (hv : { n with exponent }.value = some v)
    (hnone : n.exponent = none) (hrest : Ends rest) :
    readAfterFraction n (cs ++ rest) = (.good v, rest) := by
  cases h with
  | none =>
    have hplain : readAfterFraction n rest = finishNumber n rest := by
      unfold readAfterFraction
      split
      · exact absurd rfl (hrest.head_ne rfl (by decide) _)
      · exact absurd rfl (hrest.head_ne rfl (by decide) _)
      · rfl
    rw [List.nil_append, hplain]
    have hn : { n with exponent := none } = n := by rw [← hnone]
    rw [hn] at hv
    exact finishNumber_of_value hv rest
  | some hmark hsign h =>
    have hread := readExponent_of_spells hsign h hv hrest
    rw [List.cons_append, List.append_assoc]
    rcases hmark with rfl | rfl <;> exact hread

/-- No digit and no point goes on with the digits before an exponent. -/
theorem SpellsExponent.head_append {exponent : Option (Bool × List Nat)}
    (h : SpellsExponent exponent cs) (hrest : Ends rest) :
    ∀ c ∈ (cs ++ rest).head?, c.isDigit = false ∧ c ≠ '.' := by
  intro c hc
  cases h with
  | none =>
    refine ⟨hrest.not_digit c hc, ?_⟩
    rintro rfl
    obtain ⟨r, hr⟩ := List.head?_eq_some_iff.1 hc
    exact hrest.head_ne rfl (by decide) r hr
  | some hmark =>
    rcases hmark with rfl | rfl
    · obtain rfl : 'e' = c := Option.some.inj hc
      exact ⟨rfl, by decide⟩
    · obtain rfl : 'E' = c := Option.some.inj hc
      exact ⟨rfl, by decide⟩

theorem readAfterWhole_of_spells {fraction exponent : List Char}
    (hfraction : SpellsFraction n.fraction fraction)
    (hexponent : SpellsExponent n.exponent exponent) (hv : n.value = some v) (hrest : Ends rest) :
    readAfterWhole { n with fraction := [], exponent := none } (fraction ++ (exponent ++ rest)) =
      (.good v, rest) := by
  obtain ⟨negative, whole, digits, e⟩ := n
  have hread := readAfterFraction_of_spells (n := ⟨negative, whole, digits, none⟩) hexponent hv rfl
    hrest
  have hhead := hexponent.head_append hrest
  cases hfraction with
  | none =>
    rw [List.nil_append]
    unfold readAfterWhole
    split
    · rename_i hpoint
      exact absurd rfl (hhead '.' (by rw [hpoint]; rfl)).2
    · exact hread
  | some h =>
    have hdigits := splitDigits_append h fun c hc => (hhead c hc).1
    obtain ⟨d, ds, rfl⟩ := List.exists_cons_of_ne_nil h.digits_ne_nil
    simp [readAfterWhole, hdigits, hread]

/-- No digit goes on with the digits before a fraction. -/
theorem SpellsFraction.head_append {digits : List Nat} (h : SpellsFraction digits cs)
    (hrest : ∀ c ∈ rest.head?, c.isDigit = false) :
    ∀ c ∈ (cs ++ rest).head?, c.isDigit = false := by
  intro c hc
  cases h with
  | none => exact hrest c hc
  | some =>
    obtain rfl : '.' = c := Option.some.inj hc
    rfl

/-- **A number is read** as what it stands for. -/
theorem readNumber_of_spells (h : SpellsUnsigned n cs) (hv : n.Means v) (hrest : Ends rest) :
    readNumber n.negative (cs ++ rest) = (.good v, rest) := by
  obtain ⟨whole, fraction, exponent, rfl, hwhole, hfraction, hexponent⟩ := h.parts
  have hread := readAfterWhole_of_spells hfraction hexponent (Numeral.means_iff.1 hv) hrest
  have hdigits : splitDigits (whole ++ (fraction ++ (exponent ++ rest))) =
      (n.whole, fraction ++ (exponent ++ rest)) :=
    splitDigits_append hwhole
      (hfraction.head_append fun c hc => (hexponent.head_append hrest c hc).1)
  rw [List.append_assoc, List.append_assoc]
  unfold readNumber
  rw [hdigits]
  split
  · rename_i hnil
    exact absurd (congrArg Prod.fst hnil) hwhole.digits_ne_nil
  · rename_i hzero
    exact absurd (congrArg Prod.fst hzero) (h.zero _ _)
  · rename_i hsplit
    cases hsplit
    exact hread

end Numbers

end Gamebook.Json
