import Gamebook.Json.Reader

/-!
# What a text spells

The grammar of documents, apart from any reader: `Spells` relates a text to the value that
it stands for, the members of an object in the order of the text.  A text that breaks off,
a number that cannot be represented, and half of a surrogate pair spell nothing.

A number is the integer that its digits write if it has neither fraction nor exponent and
fits 64 bits (`Numeral.Means`).
-/

namespace Gamebook.Json

/-! ### Blanks -/

def Blanks (cs : List Char) : Prop := ∀ c ∈ cs, isBlank c = true

/-! ### Strings -/

/-- What the text between two quotes spells. -/
inductive SpellsText : List Char → List Char → Prop
  | nil : SpellsText [] []
  | plain {c : Char} {s cs : List Char} (hlow : 0x20 ≤ c.toNat) (hquote : c ≠ '"')
      (hslash : c ≠ '\\') (h : SpellsText s cs) : SpellsText (c :: s) (c :: cs)
  | escape {c e : Char} {s cs : List Char} (he : simpleEscape? e = some c) (h : SpellsText s cs) :
      SpellsText (c :: s) ('\\' :: e :: cs)
  | unit {a b c d : Char} {n : Nat} {s cs : List Char}
      (hn : Text.hexNumber? [a, b, c, d] = some n) (hleading : isLeading n = false)
      (htrailing : isTrailing n = false) (h : SpellsText s cs) :
      SpellsText (Char.ofNat n :: s) ('\\' :: 'u' :: a :: b :: c :: d :: cs)
  | pair {a b c d a' b' c' d' : Char} {m n : Nat} {s cs : List Char}
      (hm : Text.hexNumber? [a, b, c, d] = some m) (hleading : isLeading m = true)
      (hn : Text.hexNumber? [a', b', c', d'] = some n) (htrailing : isTrailing n = true)
      (h : SpellsText s cs) :
      SpellsText (Char.ofNat (pairValue m n) :: s)
        ('\\' :: 'u' :: a :: b :: c :: d :: '\\' :: 'u' :: a' :: b' :: c' :: d' :: cs)

/-- Whether a text can stand between quotes as it is. -/
def NeedsNoEscape (cs : List Char) : Prop := ∀ c ∈ cs, 0x20 ≤ c.toNat ∧ c ≠ '"' ∧ c ≠ '\\'

theorem NeedsNoEscape.spells {cs : List Char} (h : NeedsNoEscape cs) : SpellsText cs cs := by
  induction cs with
  | nil => exact .nil
  | cons c cs ih =>
    obtain ⟨⟨hlow, hquote, hslash⟩, hrest⟩ := List.forall_mem_cons.1 h
    exact .plain hlow hquote hslash (ih hrest)

/-! ### Numbers -/

/-- At least one digit. -/
structure SpellsDigits (digits : List Nat) (cs : List Char) : Prop where
  ne_nil : cs ≠ []
  isDigit : ∀ c ∈ cs, c.isDigit = true
  digits_eq : digits = cs.map Text.digitValue

inductive SpellsFraction : List Nat → List Char → Prop
  | none : SpellsFraction [] []
  | some {digits : List Nat} {cs : List Char} (h : SpellsDigits digits cs) :
      SpellsFraction digits ('.' :: cs)

/-- The sign of an exponent, and whether it is a minus. -/
inductive SpellsSign : Bool → List Char → Prop
  | none : SpellsSign false []
  | plus : SpellsSign false ['+']
  | minus : SpellsSign true ['-']

inductive SpellsExponent : Option (Bool × List Nat) → List Char → Prop
  | none : SpellsExponent none []
  | some {mark : Char} {negative : Bool} {digits : List Nat} {sign cs : List Char}
      (hmark : mark = 'e' ∨ mark = 'E') (hsign : SpellsSign negative sign)
      (h : SpellsDigits digits cs) :
      SpellsExponent (some (negative, digits)) (mark :: (sign ++ cs))

/-- What follows the sign of a number. Only a lone zero may begin with a zero. -/
structure SpellsUnsigned (n : Numeral) (cs : List Char) : Prop where
  parts : ∃ whole fraction exponent, cs = whole ++ (fraction ++ exponent) ∧
    SpellsDigits n.whole whole ∧ SpellsFraction n.fraction fraction ∧
      SpellsExponent n.exponent exponent
  zero : ∀ d ds, n.whole ≠ 0 :: d :: ds

inductive SpellsNumeral (n : Numeral) : List Char → Prop
  | unsigned {cs : List Char} (hsign : n.negative = false) (h : SpellsUnsigned n cs) :
      SpellsNumeral n cs
  | negative {cs : List Char} (hsign : n.negative = true) (h : SpellsUnsigned n cs) :
      SpellsNumeral n ('-' :: cs)

/-- What a number stands for, if it can be represented. -/
inductive Numeral.Means (n : Numeral) : Number → Prop
  | natural (hsign : n.negative = false) (hfraction : n.fraction = [])
      (hexponent : n.exponent = none) (h : decimalValue n.whole < UInt64.size) :
      Means n (.int (decimalValue n.whole))
  | negative (hsign : n.negative = true) (hfraction : n.fraction = [])
      (hexponent : n.exponent = none) (hpos : 0 < decimalValue n.whole)
      (h : decimalValue n.whole ≤ 0x8000000000000000) : Means n (.int (-decimalValue n.whole))
  | float {x : Float} (h : n.value = some (.float x)) : Means n (.float x)

/-! ### Values -/

/-- What a text can spell. -/
inductive Phrase where
  | value (j : Json)
  /-- A value with blanks around it. -/
  | element (j : Json)
  | items (l : List Json)
  | member (key : String) (j : Json)
  | members (l : List (String × Json))

inductive Spells : Phrase → List Char → Prop
  | null : Spells (.value .null) ['n', 'u', 'l', 'l']
  | true : Spells (.value (.bool true)) ['t', 'r', 'u', 'e']
  | false : Spells (.value (.bool false)) ['f', 'a', 'l', 's', 'e']
  | number {n : Numeral} {v : Number} {cs : List Char} (h : SpellsNumeral n cs) (hv : n.Means v) :
      Spells (.value v.toJson) cs
  | string {s cs : List Char} (h : SpellsText s cs) :
      Spells (.value (.string (String.ofList s))) ('"' :: (cs ++ ['"']))
  | emptyArray {blanks : List Char} (hblanks : Blanks blanks) :
      Spells (.value (.array [])) ('[' :: (blanks ++ [']']))
  | array {l : List Json} {cs : List Char} (h : Spells (.items l) cs) :
      Spells (.value (.array l)) ('[' :: (cs ++ [']']))
  | emptyObject {blanks : List Char} (hblanks : Blanks blanks) :
      Spells (.value (.object [])) ('{' :: (blanks ++ ['}']))
  | object {l : List (String × Json)} {cs : List Char} (h : Spells (.members l) cs) :
      Spells (.value (.object l)) ('{' :: (cs ++ ['}']))
  | element {j : Json} {before cs after : List Char} (hbefore : Blanks before)
      (h : Spells (.value j) cs) (hafter : Blanks after) :
      Spells (.element j) (before ++ (cs ++ after))
  | lastItem {j : Json} {cs : List Char} (h : Spells (.element j) cs) : Spells (.items [j]) cs
  | item {j : Json} {l : List Json} {cs more : List Char} (h : Spells (.element j) cs)
      (hmore : Spells (.items l) more) : Spells (.items (j :: l)) (cs ++ ',' :: more)
  | member {s : List Char} {j : Json} {before key after cs : List Char} (hbefore : Blanks before)
      (hkey : SpellsText s key) (hafter : Blanks after) (h : Spells (.element j) cs) :
      Spells (.member (String.ofList s) j) (before ++ '"' :: (key ++ '"' :: (after ++ ':' :: cs)))
  | lastMember {k : String} {j : Json} {cs : List Char} (h : Spells (.member k j) cs) :
      Spells (.members [(k, j)]) cs
  | moreMembers {k : String} {j : Json} {l : List (String × Json)} {cs more : List Char}
      (h : Spells (.member k j) cs) (hmore : Spells (.members l) more) :
      Spells (.members ((k, j) :: l)) (cs ++ ',' :: more)

theorem spells_element {j : Json} {cs : List Char} (h : Spells (.value j) cs) :
    Spells (.element j) cs := by
  simpa using @Spells.element j [] cs [] nofun h nofun

theorem spells_string {s : String} (h : NeedsNoEscape s.toList) :
    Spells (.value (.string s)) ('"' :: (s.toList ++ ['"'])) := by
  have hstring := Spells.string h.spells
  rwa [String.ofList_toList] at hstring

theorem spells_member {k : String} {j : Json} {cs : List Char} (hk : NeedsNoEscape k.toList)
    (h : Spells (.value j) cs) :
    Spells (.member k j) ('"' :: (k.toList ++ '"' :: ':' :: cs)) := by
  have hmember := @Spells.member k.toList j [] _ [] cs nofun hk.spells nofun (spells_element h)
  rwa [String.ofList_toList] at hmember

/-- Whether no more containers than that are nested in each other. -/
inductive Within : Nat → Json → Prop
  | null {room : Nat} : Within room .null
  | bool {room : Nat} (b : Bool) : Within room (.bool b)
  | int {room : Nat} (n : Int) : Within room (.int n)
  | float {room : Nat} (x : Float) : Within room (.float x)
  | string {room : Nat} (s : String) : Within room (.string s)
  | array {room : Nat} {items : List Json} (h : ∀ j ∈ items, Within room j) :
      Within (room + 1) (.array items)
  | object {room : Nat} {members : List (String × Json)} (h : ∀ m ∈ members, Within room m.2) :
      Within (room + 1) (.object members)

end Gamebook.Json
