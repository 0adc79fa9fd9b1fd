import Gamebook.Proofs.Json.Literals
import Gamebook.Proofs.Json.Normal

/-!
# The reader follows the grammar

What the grammar says a text spells is what the reader makes of it: a text that spells a
value with blanks around it is read as the flawless draft of that value, with nothing left
over (`Document.read_of_spells`).

A phrase is read as `Phrase.ReadFrom` says, which `Spells.readFrom` proves by induction on
what is spelt, with one lemma for each step of the reader.  Two calls for each character are
enough fuel.
-/

namespace Gamebook.Json

/-! ### Steps of the reader -/

theorem readValue_append {blanks : List Char} (h : Blanks blanks) (fuel room : Nat)
    (cs : List Char) : readValue fuel room (blanks ++ cs) = readValue fuel room cs := by
  cases fuel with
  | zero => rfl
  | succ fuel => simp only [readValue, skipBlanks_append h]

theorem readItems_skipBlanks (fuel room : Nat) (cs : List Char) :
    readItems fuel room (skipBlanks cs) = readItems fuel room cs := by
  cases fuel with
  | zero => rfl
  | succ fuel =>
    cases fuel with
    | zero => rfl
    | succ fuel => simp only [readItems, readValue, skipBlanks_skipBlanks]

section Steps

variable {fuel room : Nat} {cs more rest left : List Char}

theorem readValue_number {n : Numeral} {v : Number} (h : SpellsNumeral n cs) (hv : n.Means v)
    (hrest : Ends rest) :
    readValue (fuel + 1) room (cs ++ rest) = (.ofJson v.toJson, rest) := by
  have hdraft : Draft.ofJson v.toJson = .number (.good v) := by cases v <;> rfl
  rw [hdraft]
  cases h with
  | negative hsign h =>
    have hread := readNumber_of_spells h hv hrest
    rw [hsign] at hread
    simp [readValue, skipBlanks, isBlank, hread]
  | unsigned hsign h =>
    have hread := readNumber_of_spells h hv hrest
    rw [hsign] at hread
    obtain ⟨whole, fraction, exponent, rfl, hwhole, -⟩ := h.parts
    obtain ⟨c, cs, rfl, hc⟩ := hwhole.exists_cons
    -- what a digit is not leaves the reader only the branch of numbers
    obtain ⟨hblank, hn, ht, hf, hquote, hlist, hobject, hminus⟩ := ne_of_isDigit hc
    simp only [List.cons_append, List.append_assoc] at hread ⊢
    simp [readValue, skipBlanks_of_not_blank hblank, hminus, hc, hread]

theorem readValue_string {s : List Char} (h : SpellsText s cs) (rest : List Char) :
    readValue (fuel + 1) room ('"' :: (cs ++ ['"']) ++ rest) =
      (.ofJson (.string (String.ofList s)), rest) := by
  simp [readValue, skipBlanks_of_not_blank (c := '"') rfl, readLiteral_of_spells h rest,
    Draft.ofJson]

theorem readValue_emptyArray {blanks : List Char} (h : Blanks blanks) (rest : List Char) :
    readValue (fuel + 1) (room + 1) ('[' :: (blanks ++ [']']) ++ rest) =
      (.ofJson (.array []), rest) := by
  simp [readValue, skipBlanks_of_not_blank (c := '[') rfl,
    skipBlanks_blanks_append h (c := ']') rfl rest, Draft.ofJson, Draft.ofJson.ofItems, within]

theorem readValue_emptyObject {blanks : List Char} (h : Blanks blanks) (rest : List Char) :
    readValue (fuel + 1) (room + 1) ('{' :: (blanks ++ ['}']) ++ rest) =
      (.ofJson (.object []), rest) := by
  simp [readValue, skipBlanks_of_not_blank (c := '{') rfl,
    skipBlanks_blanks_append h (c := '}') rfl rest, Draft.ofJson, Draft.ofJson.ofMembers, within]

theorem readValue_array {items : List Draft} {close : Close}
    (hstart : ∃ c r, skipBlanks cs = c :: r ∧ c ≠ ']')
    (hitems : readItems fuel room cs = (items, close, rest)) :
    readValue (fuel + 1) (room + 1) ('[' :: cs) = (.list items close, rest) := by
  obtain ⟨c, r, hskip, hc⟩ := hstart
  rw [← readItems_skipBlanks, hskip] at hitems
  simp [readValue, skipBlanks_of_not_blank (c := '[') rfl, hskip, hc, hitems, within]

theorem readValue_object {key : List Char} {members : List (Lexeme String × Draft)} {close : Close}
    (hkey : skipBlanks cs = '"' :: key)
    (hmembers : readMembers fuel room key = (members, close, rest)) :
    readValue (fuel + 1) (room + 1) ('{' :: cs) = (.object members close, rest) := by
  simp [readValue, skipBlanks_of_not_blank (c := '{') rfl, hkey, hmembers, within]

theorem readItems_last {d : Draft} (h : readValue fuel room cs = (d, left))
    (hleft : skipBlanks left = ']' :: rest) :
    readItems (fuel + 1) room cs = ([d], .closed, rest) := by
  simp [readItems, h, hleft]

theorem readItems_more {d : Draft} {items : List Draft} {close : Close}
    (h : readValue fuel room cs = (d, left)) (hleft : skipBlanks left = ',' :: more)
    (hstart : ∃ c r, skipBlanks more = c :: r ∧ c ≠ ']')
    (hitems : readItems fuel room more = (items, close, rest)) :
    readItems (fuel + 1) room cs = (d :: items, close, rest) := by
  obtain ⟨c, r, hskip, hc⟩ := hstart
  rw [← readItems_skipBlanks, hskip] at hitems
  simp [readItems, h, hleft, hskip, hc, hitems]

theorem readMembers_last {k : String} {d : Draft} {colon value : List Char}
    (hkey : readLiteral cs = (.good k, colon)) (hcolon : skipBlanks colon = ':' :: value)
    (h : readValue fuel room value = (d, left)) (hleft : skipBlanks left = '}' :: rest) :
    readMembers (fuel + 1) room cs = ([(.good k, d)], .closed, rest) := by
  simp [readMembers, hkey, hcolon, h, hleft]

theorem readMembers_more {k : String} {d : Draft} {colon value key : List Char}
    {members : List (Lexeme String × Draft)} {close : Close}
    (hkey : readLiteral cs = (.good k, colon)) (hcolon : skipBlanks colon = ':' :: value)
    (h : readValue fuel room value = (d, left)) (hleft : skipBlanks left = ',' :: more)
    (hstart : skipBlanks more = '"' :: key)
    (hmembers : readMembers fuel room key = (members, close, rest)) :
    readMembers (fuel + 1) room cs = ((.good k, d) :: members, close, rest) := by
  simp [readMembers, hkey, hcolon, h, hleft, hstart, hmembers]

end Steps

/-! ### Phrases -/

namespace Phrase

/-- Whether the values of a phrase are nested no deeper than that. -/
def Within (room : Nat) : Phrase → Prop
  | value j | element j | member _ j => Json.Within room j
  | items l => ∀ j ∈ l, Json.Within room j
  | members l => ∀ m ∈ l, Json.Within room m.2

/-- What a phrase may begin with. -/
def Starts (cs : List Char) : Phrase → Prop
  | value _ | element _ | items _ => ∀ rest, ∃ c r, skipBlanks (cs ++ rest) = c :: r ∧ c ≠ ']'
  | member _ _ | members _ => True

/-- How a phrase is read from a text, with what follows it and enough fuel. -/
def ReadFrom (room : Nat) (cs : List Char) : Phrase → Prop
  | value j => ∀ fuel rest, 2 * cs.length ≤ fuel → Ends rest →
      readValue fuel room (cs ++ rest) = (.ofJson j, rest)
  | element j => ∀ fuel rest, 2 * cs.length ≤ fuel → Ends rest → ∃ left,
      readValue fuel room (cs ++ rest) = (.ofJson j, left) ∧ skipBlanks left = skipBlanks rest
  | items l => ∀ fuel rest, 2 * cs.length ≤ fuel →
      readItems (fuel + 1) room (cs ++ ']' :: rest) = (Draft.ofJson.ofItems l, .closed, rest)
  | member k j => ∀ fuel rest, 2 * cs.length ≤ fuel → Ends rest → ∃ key colon value left,
      skipBlanks (cs ++ rest) = '"' :: key ∧ readLiteral key = (.good k, colon) ∧
        skipBlanks colon = ':' :: value ∧ readValue fuel room value = (.ofJson j, left) ∧
        skipBlanks left = skipBlanks rest
  | members l => ∀ fuel rest, 2 * cs.length ≤ fuel → ∃ key,
      skipBlanks (cs ++ '}' :: rest) = '"' :: key ∧
        readMembers (fuel + 1) room key = (Draft.ofJson.ofMembers l, .closed, rest)

/-- A value has one character at least, and so enough fuel for what is in it. -/
theorem readFrom_value {room : Nat} {c : Char} {cs : List Char} {j : Json}
    (h : ∀ fuel rest, 2 * cs.length ≤ fuel → Ends rest →
      readValue (fuel + 2) room (c :: cs ++ rest) = (.ofJson j, rest)) :
    (value j).ReadFrom room (c :: cs) := by
  intro fuel rest hfuel hrest
  rw [List.length_cons] at hfuel
  obtain ⟨fuel, rfl⟩ := Nat.exists_eq_add_of_le' (show 2 ≤ fuel by omega)
  exact h fuel rest (by omega) hrest

end Phrase

theorem SpellsNumeral.exists_cons {n : Numeral} {cs : List Char} (h : SpellsNumeral n cs) :
    ∃ c r, cs = c :: r ∧ isBlank c = false ∧ c ≠ ']' := by
  cases h with
  | negative => exact ⟨_, _, rfl, rfl, by decide⟩
  | unsigned _ h =>
    obtain ⟨whole, fraction, exponent, rfl, hwhole, -⟩ := h.parts
    obtain ⟨c, r, rfl, hc⟩ := hwhole.exists_cons
    refine ⟨c, _, rfl, (ne_of_isDigit hc).1, ?_⟩
    rintro rfl
    nomatch hc

theorem Spells.starts {p : Phrase} {cs : List Char} (h : Spells p cs) : p.Starts cs := by
  induction h with
  | null | true | false | string | emptyArray | array | emptyObject | object =>
    exact fun rest => ⟨_, _, skipBlanks_of_not_blank rfl _, by decide⟩
  | number h =>
    obtain ⟨c, r, rfl, hblank, hc⟩ := h.exists_cons
    exact fun rest => ⟨c, _, skipBlanks_of_not_blank hblank _, hc⟩
  | element hbefore _ _ ih =>
    intro rest
    rw [List.append_assoc, skipBlanks_append hbefore, List.append_assoc]
    exact ih _
  | lastItem _ ih => exact ih
  | item _ _ ih =>
    intro rest
    rw [List.append_assoc]
    exact ih _
  | member | lastMember | moreMembers => trivial

/-- **A phrase is read** as what it spells. -/
theorem Spells.readFrom {p : Phrase} {cs : List Char} (h : Spells p cs) {room : Nat}
    (hroom : p.Within room) : p.ReadFrom room cs := by
  induction h generalizing room with
  | null => exact Phrase.readFrom_value fun fuel rest _ _ => rfl
  | true => exact Phrase.readFrom_value fun fuel rest _ _ => rfl
  | false => exact Phrase.readFrom_value fun fuel rest _ _ => rfl
  | number h hv =>
    obtain ⟨c, cs, rfl, -⟩ := h.exists_cons
    exact Phrase.readFrom_value fun fuel rest _ hrest => readValue_number h hv hrest
  | string h => exact Phrase.readFrom_value fun fuel rest _ _ => readValue_string h rest
  | emptyArray hblanks =>
    cases hroom with
    | array => exact Phrase.readFrom_value fun fuel rest _ _ => readValue_emptyArray hblanks rest
  | array h ih =>
    cases hroom with
    | array hroom =>
      refine Phrase.readFrom_value fun fuel rest hfuel _ => ?_
      rw [List.length_append] at hfuel
      have hitems := ih hroom fuel rest (by omega)
      rw [List.cons_append, List.append_assoc]
      exact readValue_array (h.starts _) hitems
  | emptyObject hblanks =>
    cases hroom with
    | object => exact Phrase.readFrom_value fun fuel rest _ _ => readValue_emptyObject hblanks rest
  | object h ih =>
    cases hroom with
    | object hroom =>
      refine Phrase.readFrom_value fun fuel rest hfuel _ => ?_
      rw [List.length_append] at hfuel
      obtain ⟨key, hkey, hmembers⟩ := ih hroom fuel rest (by omega)
      rw [List.cons_append, List.append_assoc]
      exact readValue_object hkey hmembers
  | @element j before cs after hbefore h hafter ih =>
    intro fuel rest hfuel hrest
    rw [List.length_append, List.length_append] at hfuel
    refine ⟨after ++ rest, ?_, skipBlanks_append hafter rest⟩
    rw [List.append_assoc, List.append_assoc, readValue_append hbefore]
    exact ih hroom fuel _ (by omega) (hrest.of_blanks hafter)
  | lastItem h ih =>
    intro fuel rest hfuel
    obtain ⟨left, hread, hleft⟩ := ih (hroom _ List.mem_cons_self) fuel (']' :: rest) hfuel
      (by simp [Ends])
    exact readItems_last hread hleft
  | @item j l cs more h hmore ih ihmore =>
    intro fuel rest hfuel
    obtain ⟨hfirst, hothers⟩ := List.forall_mem_cons.1 hroom
    rw [List.length_append, List.length_cons] at hfuel
    obtain ⟨fuel, rfl⟩ := Nat.exists_eq_add_of_le' (show 1 ≤ fuel by omega)
    obtain ⟨left, hread, hleft⟩ := ih hfirst (fuel + 1) (',' :: (more ++ ']' :: rest)) (by omega)
      (by simp [Ends])
    have hitems := ihmore hothers fuel rest (by omega)
    rw [List.append_assoc]
    exact readItems_more hread hleft (hmore.starts _) hitems
  | @member s j before key after cs hbefore hkey hafter h ih =>
    intro fuel rest hfuel hrest
    simp only [List.length_append, List.length_cons] at hfuel
    obtain ⟨left, hread, hleft⟩ := ih hroom fuel rest (by omega) hrest
    refine ⟨key ++ '"' :: (after ++ ':' :: (cs ++ rest)), after ++ ':' :: (cs ++ rest), cs ++ rest,
      left, ?_, readLiteral_of_spells hkey _, skipBlanks_blanks_append hafter rfl _, hread, hleft⟩
    simp only [List.append_assoc, List.cons_append]
    exact skipBlanks_blanks_append hbefore rfl _
  | lastMember h ih =>
    intro fuel rest hfuel
    obtain ⟨key, colon, value, left, hstart, hkey, hcolon, hread, hleft⟩ :=
      ih (hroom _ List.mem_cons_self) fuel ('}' :: rest) hfuel (by simp [Ends])
    exact ⟨key, hstart, readMembers_last hkey hcolon hread hleft⟩
  | @moreMembers k j l cs more h hmore ih ihmore =>
    intro fuel rest hfuel
    obtain ⟨hfirst, hothers⟩ := List.forall_mem_cons.1 hroom
    rw [List.length_append, List.length_cons] at hfuel
    obtain ⟨fuel, rfl⟩ := Nat.exists_eq_add_of_le' (show 1 ≤ fuel by omega)
    obtain ⟨key, colon, value, left, hstart, hkey, hcolon, hread, hleft⟩ :=
      ih hfirst (fuel + 1) (',' :: (more ++ '}' :: rest)) (by omega) (by simp [Ends])
    obtain ⟨next, hnext, hmembers⟩ := ihmore hothers fuel rest (by omega)
    rw [List.append_assoc]
    exact ⟨key, hstart, readMembers_more hkey hcolon hread hleft hnext hmembers⟩

/-- **A document is read** as the flawless draft of what it spells. -/
theorem Document.read_of_spells {text : String} {j : Json} (h : Spells (.element j) text.toList)
    (hroom : Json.Within nestingLimit j) : read text = ⟨.ofJson j, false⟩ := by
  obtain ⟨left, hread, hleft⟩ := h.readFrom (p := .element j) hroom (2 * text.toList.length + 2) []
    (by omega) nofun
  rw [List.append_nil] at hread
  unfold read
  simp only [hread, hleft]
  rfl

/-- A text that spells a value is decoded as the value is. -/
theorem Document.decode_of_spells {α : Type} {text : String} {j : Json}
    (f : Draft → Except Problem α) (htext : Spells (.element j) text.toList)
    (hdepth : Json.Within nestingLimit j) : (read text).decode f = f (Draft.ofJson j) := by
  rw [read_of_spells htext hdepth, decode]
  cases f (Draft.ofJson j) <;> rfl

end Gamebook.Json
