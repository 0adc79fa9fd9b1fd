import Mathlib.Data.List.Lex

/-!
# The order of texts and of their bytes

Texts are ordered by the code points of their characters.  This is the order of
their UTF-8 bytes (`bytes_lt_of_lt`), since of two characters the smaller has the
smaller bytes, whatever follows them (`encode_append_lt`).
-/

namespace Gamebook.Text

/-- The UTF-8 bytes of a text. -/
def bytes (s : String) : List UInt8 := s.toUTF8.data.toList

theorem bytes_eq (s : String) : bytes s = s.toList.flatMap String.utf8EncodeChar := by
  rw [bytes, String.toUTF8_eq_toByteArray, ← String.utf8Encode_toList, List.utf8Encode,
    List.toList_data_toByteArray]

section

variable {m n : Nat} {x y : List UInt8}

theorem ofNat_cons_lt (hn : n < 256) (h : m < n) : UInt8.ofNat m :: x < UInt8.ofNat n :: y := by
  refine List.cons_lt_cons_iff.2 (Or.inl ?_)
  rw [UInt8.lt_iff_toNat_lt, UInt8.toNat_ofNat', UInt8.toNat_ofNat']
  omega

theorem ofNat_cons_lt_of_le (hn : n < 256) (h : m ≤ n) (hrest : m = n → x < y) :
    UInt8.ofNat m :: x < UInt8.ofNat n :: y := by
  rcases Nat.lt_or_eq_of_le h with hlt | rfl
  · exact ofNat_cons_lt hn hlt
  · exact List.cons_lt_cons_iff.2 (Or.inr ⟨rfl, hrest rfl⟩)

end

/-- Whatever follows, a smaller character has the smaller bytes: those of a shorter sequence begin
with a smaller byte, and in sequences of one length the first bytes that differ decide. -/
theorem encode_append_lt {c d : Char} (h : c < d) (x y : List UInt8) :
    String.utf8EncodeChar c ++ x < String.utf8EncodeChar d ++ y := by
  have hlt : c.val.toNat < d.val.toNat := h
  have hmax : d.val.toNat < 0x110000 := by
    have hvalid := d.valid
    simp only [UInt32.isValidChar, Nat.isValidChar] at hvalid
    omega
  unfold String.utf8EncodeChar
  dsimp only
  generalize c.val.toNat = m, d.val.toNat = n at hlt hmax
  by_cases hm₁ : m ≤ 127
  · rw [if_pos hm₁]
    by_cases hn₁ : n ≤ 127
    · rw [if_pos hn₁]
      exact ofNat_cons_lt (by omega) hlt
    · rw [if_neg hn₁]
      split
      · exact ofNat_cons_lt (by omega) (by omega)
      · split <;> exact ofNat_cons_lt (by omega) (by omega)
  · rw [if_neg hm₁, if_neg (by omega : ¬ n ≤ 127)]
    by_cases hm₂ : m ≤ 2047
    · rw [if_pos hm₂]
      by_cases hn₂ : n ≤ 2047
      · rw [if_pos hn₂]
        refine ofNat_cons_lt_of_le (by omega) (by omega) fun _ => ?_
        exact ofNat_cons_lt (by omega) (by omega)
      · rw [if_neg hn₂]
        split <;> exact ofNat_cons_lt (by omega) (by omega)
    · rw [if_neg hm₂, if_neg (by omega : ¬ n ≤ 2047)]
      by_cases hm₃ : m ≤ 65535
      · rw [if_pos hm₃]
        by_cases hn₃ : n ≤ 65535
        · rw [if_pos hn₃]
          refine ofNat_cons_lt_of_le (by omega) (by omega) fun _ => ?_
          refine ofNat_cons_lt_of_le (by omega) (by omega) fun _ => ?_
          exact ofNat_cons_lt (by omega) (by omega)
        · rw [if_neg hn₃]
          exact ofNat_cons_lt (by omega) (by omega)
      · rw [if_neg hm₃, if_neg (by omega : ¬ n ≤ 65535)]
        refine ofNat_cons_lt_of_le (by omega) (by omega) fun _ => ?_
        refine ofNat_cons_lt_of_le (by omega) (by omega) fun _ => ?_
        refine ofNat_cons_lt_of_le (by omega) (by omega) fun _ => ?_
        exact ofNat_cons_lt (by omega) (by omega)

/-- **The order of texts is the order of their bytes.** -/
theorem bytes_lt_of_lt {s t : String} (h : s < t) : bytes s < bytes t := by
  rw [bytes_eq, bytes_eq]
  have hlist : s.toList < t.toList := h
  generalize s.toList = cs, t.toList = ds at hlist
  induction hlist with
  | @nil d ds =>
    cases hfirst : String.utf8EncodeChar d with
    | nil => exact absurd hfirst (String.utf8EncodeChar_ne_nil)
    | cons b rest =>
      rw [List.flatMap_cons, hfirst]
      exact List.nil_lt_cons _ _
  | @rel c cs d ds hcd =>
    rw [List.flatMap_cons, List.flatMap_cons]
    exact encode_append_lt hcd _ _
  | @cons c cs ds hrest ih =>
    rw [List.flatMap_cons, List.flatMap_cons]
    exact List.append_left_lt ih

end Gamebook.Text
