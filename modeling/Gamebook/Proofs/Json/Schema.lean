import Gamebook.Proofs.Json.Values

/-!
# Schemas

A schema tells which values a decoder takes: `Schema.fits` asks which members an object has
and what they are, and never in which order they stand.  Decoders also take a record that is
written as the list of its fields, and a kind that is written as an object; a value that
does neither where a schema has a record or a kind is plain.

`Schema.Describes` says that a decoder takes just the plain values that fit, and there is
one lemma of it for each way of making a schema.  For records it comes down to
`change_iff`: a member is taken in just when it fits where it stands.
-/

namespace Gamebook.Json

/-! ### Values whose keys differ -/

/-- Whether no object has two members with one key. -/
inductive Distinct : Json → Prop
  | null : Distinct .null
  | bool (b : Bool) : Distinct (.bool b)
  | int (n : Int) : Distinct (.int n)
  | float (x : Float) : Distinct (.float x)
  | string (s : String) : Distinct (.string s)
  | array {items : List Json} (h : ∀ j ∈ items, j.Distinct) : Distinct (.array items)
  | object {members : List (String × Json)} (nodup : (members.map Prod.fst).Nodup)
      (h : ∀ m ∈ members, m.2.Distinct) : Distinct (.object members)

theorem Distinct.items {l : List Json} (h : Distinct (.array l)) : ∀ j ∈ l, j.Distinct := by
  cases h with
  | array h => exact h

theorem Distinct.nodup {l : List (String × Json)} (h : Distinct (.object l)) :
    (l.map Prod.fst).Nodup := by
  cases h with
  | object nodup => exact nodup

theorem Distinct.members {l : List (String × Json)} (h : Distinct (.object l)) :
    ∀ m ∈ l, m.2.Distinct := by
  cases h with
  | object _ h => exact h

/-! ### Schemas -/

structure Schema where
  /-- What is asked of a value. -/
  fits : Json → Prop
  /-- Whether a value writes no record as a list and no kind as an object. -/
  plain : Json → Prop

/-- What is asked of the members of an object that have this name. -/
structure Schema.Member where
  name : String
  required : Bool
  schema : Schema

/-- Whether the members of an object fit. -/
def Schema.Member.Fit (members : List Member) (l : List (String × Json)) : Prop :=
  ∀ m ∈ members, (m.required = true → ∃ j, (m.name, j) ∈ l) ∧
    ∀ j, (m.name, j) ∈ l → m.schema.fits j

def Schema.Member.Plain (members : List Member) (l : List (String × Json)) : Prop :=
  ∀ m ∈ members, ∀ j, (m.name, j) ∈ l → m.schema.plain j

namespace Schema

def text : Schema where
  fits j := ∃ s, j = .string s
  plain _ := True

/-- A name out of an open list of names. -/
def kind : Schema where
  fits j := ∃ s, j = .string s
  plain j := ∀ l, j ≠ .object l

/-- An integer from zero up to and without the bound. -/
def natural (bound : Nat) : Schema where
  fits j := ∃ n : Nat, n < bound ∧ j = .int n
  plain _ := True

def orNull (s : Schema) : Schema where
  fits j := j = .null ∨ s.fits j
  plain := s.plain

def listOf (s : Schema) : Schema where
  fits j := ∃ l, j = .array l ∧ ∀ item ∈ l, s.fits item
  plain j := ∀ l, j = .array l → ∀ item ∈ l, s.plain item

def dictOf (s : Schema) : Schema where
  fits j := ∃ l, j = .object l ∧ ∀ m ∈ l, s.fits m.2
  plain j := ∀ l, j = .object l → ∀ m ∈ l, s.plain m.2

/-- An object with these members, and any others. -/
def record (members : List Member) : Schema where
  fits j := ∃ l, j = .object l ∧ Member.Fit members l
  plain j := (∀ l, j ≠ .array l) ∧ ∀ l, j = .object l → Member.Plain members l

/-- An object whose tag names one of the cases, with the members of that case. -/
def tagged (tag : String) (cases : List (String × List Member)) : Schema where
  fits j := ∃ l, j = .object l ∧ ∃ c ∈ cases, (tag, .string c.1) ∈ l ∧ Member.Fit c.2 l
  plain j := (∀ l, j ≠ .array l) ∧ ∀ l, j = .object l → ∀ c ∈ cases, Member.Plain c.2 l

section Decoders

variable {α β σ : Type} {s : Schema} {f : Draft → Except Problem α}

/-- Whether a decoder takes just the values that fit. -/
def Describes (s : Schema) (f : Draft → Except Problem α) : Prop :=
  ∀ j : Json, j.Distinct → s.plain j → ((∃ a, f (Draft.ofJson j) = .ok a) ↔ s.fits j)

theorem Describes.map (h : s.Describes f) (g : α → β) :
    s.Describes fun d => do
      let a ← f d
      return g a :=
  fun j hkeys hplain => exists_bind_pure_iff.trans (h j hkeys hplain)

theorem text_describes : text.Describes Draft.text := by
  intro j _ _
  cases j with
  | string s => exact iff_of_true ⟨s, rfl⟩ ⟨s, rfl⟩
  | _ => exact iff_of_false (fun ⟨_, h⟩ => mismatch_ne_ok h) nofun

theorem natural_describes (bound : Nat) (expected : Expected) :
    (natural bound).Describes (Draft.natural bound expected) := by
  intro j _ _
  cases j with
  | int i =>
    by_cases hi : 0 ≤ i ∧ i < bound
    · obtain ⟨n, rfl⟩ := Int.eq_ofNat_of_zero_le hi.1
      exact iff_of_true ⟨n, natural_ofJson (by omega) expected⟩ ⟨n, by omega, rfl⟩
    · refine iff_of_false ?_ ?_
      · rintro ⟨a, h⟩
        simp only [Draft.ofJson, Draft.natural, Lexeme.kept, ok_bind, hi, if_false] at h
        cases h
      · rintro ⟨n, hn, heq⟩
        obtain rfl := Json.int.inj heq
        omega
  | float x =>
    refine iff_of_false ?_ ?_
    · rintro ⟨_, h⟩
      cases h
    · rintro ⟨_, _, heq⟩
      cases heq
  | _ =>
    refine iff_of_false ?_ ?_
    · rintro ⟨_, h⟩
      exact mismatch_ne_ok h
    · rintro ⟨_, _, heq⟩
      cases heq

theorem orNull_describes (h : s.Describes f) : s.orNull.Describes (Draft.optional f) := by
  intro j hkeys hplain
  have hsome := h.map some j hkeys hplain
  cases j with
  | null => exact iff_of_true ⟨none, rfl⟩ (Or.inl rfl)
  | _ => exact hsome.trans (by simp [orNull])

theorem exists_listOf_iff {l : List Json} :
    (∃ as, Draft.listOf f (Draft.ofJson (.array l)) = .ok as) ↔
      ∀ item ∈ l, ∃ a, f (Draft.ofJson item) = .ok a := by
  rw [Draft.ofJson, Draft.ofItems_eq_map]
  refine exists_bind_pure_iff.trans ?_
  rw [exists_mapM_eq_ok_iff, List.forall_mem_map]

theorem listOf_describes (h : s.Describes f) : s.listOf.Describes (Draft.listOf f) := by
  intro j hkeys hplain
  cases j with
  | array l =>
    have hitems : (∀ item ∈ l, ∃ a, f (Draft.ofJson item) = .ok a) ↔ ∀ item ∈ l, s.fits item :=
      forall₂_congr fun item hitem => h item (hkeys.items item hitem) (hplain l rfl item hitem)
    rw [exists_listOf_iff, hitems]
    exact ⟨fun hl => ⟨l, rfl, hl⟩, fun ⟨l', heq, hl⟩ => Json.array.inj heq ▸ hl⟩
  | _ => exact iff_of_false (fun ⟨_, h⟩ => mismatch_ne_ok h) nofun

theorem exists_dictOf_iff {l : List (String × Json)} :
    (∃ d, Draft.dictOf f (Draft.ofJson (.object l)) = .ok d) ↔
      ∀ m ∈ l, ∃ a, f (Draft.ofJson m.2) = .ok a := by
  rw [Draft.ofJson, Draft.ofMembers_eq_map]
  refine exists_bind_pure_iff.trans ?_
  rw [exists_mapM_eq_ok_iff, List.forall_mem_map]
  exact forall₂_congr fun m _ => exists_bind_pure_iff

theorem dictOf_describes (h : s.Describes f) : s.dictOf.Describes (Draft.dictOf f) := by
  intro j hkeys hplain
  cases j with
  | object l =>
    have hmembers : (∀ m ∈ l, ∃ a, f (Draft.ofJson m.2) = .ok a) ↔ ∀ m ∈ l, s.fits m.2 :=
      forall₂_congr fun m hm => h m.2 (hkeys.members m hm) (hplain l rfl m hm)
    rw [exists_dictOf_iff, hmembers]
    exact ⟨fun hl => ⟨l, rfl, hl⟩, fun ⟨l', heq, hl⟩ => Json.object.inj heq ▸ hl⟩
  | _ => exact iff_of_false (fun ⟨_, h⟩ => mismatch_ne_ok h) nofun

/-! ### Records -/

/-- Whether a field of a record takes just what fits its member. -/
structure Member.Describes (m : Member) (field : Field σ) : Prop where
  name : field.name = m.name
  required : field.required = m.required
  fill : m.schema.Describes field.fill

theorem Member.needed_describes (name : String) (h : s.Describes f) (set : α → σ → σ) :
    Member.Describes ⟨name, true, s⟩ (.needed name f set) :=
  ⟨rfl, rfl, h.map set⟩

theorem Member.optional_describes (name : String) (h : s.Describes f) (set : α → σ → σ) :
    Member.Describes ⟨name, false, s⟩ (.optional name f set) :=
  ⟨rfl, rfl, h.map set⟩

variable {members : List Member} {fields : List (Field σ)} {extra : Extra σ}

/-- **A member is taken in just when it fits** where it stands. -/
theorem change_iff (h : List.Forall₂ Member.Describes members fields)
    (hnodup : (members.map Member.name).Nodup)
    (hextra : ∀ k j, ∃ c, extra k (Draft.ofJson j) = .ok c) {k : String} {j : Json}
    (hkeys : j.Distinct) (hplain : ∀ m ∈ members, m.name = k → m.schema.plain j) :
    (∃ c, change fields extra k (Draft.ofJson j) = .ok c) ↔
      ∀ m ∈ members, m.name = k → m.schema.fits j := by
  induction h with
  | nil => exact iff_of_true (hextra k j) (by simp)
  | @cons m field members fields hm _ ih =>
    obtain ⟨hfresh, hnodup⟩ := List.nodup_cons.1 hnodup
    obtain ⟨hfirst, hplain⟩ := List.forall_mem_cons.1 hplain
    rw [List.forall_mem_cons]
    by_cases hname : m.name = k
    · have hchange : change (field :: fields) extra k (Draft.ofJson j) =
          field.fill (Draft.ofJson j) := by
        simp [change, hm.name, hname]
      have hothers : ∀ m' ∈ members, m'.name = k → m'.schema.fits j := by
        intro m' hm' hk
        exact absurd (List.mem_map.2 ⟨m', hm', hk.trans hname.symm⟩) hfresh
      rw [hchange, hm.fill j hkeys (hfirst hname)]
      exact ⟨fun hfits => ⟨fun _ => hfits, hothers⟩, fun hfits => hfits.1 hname⟩
    · have hchange : change (field :: fields) extra k (Draft.ofJson j) =
          change fields extra k (Draft.ofJson j) := by
        simp [change, hm.name, hname]
      rw [hchange, ih hnodup hplain]
      exact ⟨fun hfits => ⟨fun hk => absurd hk hname, hfits⟩, fun hfits => hfits.2⟩

theorem forall_required_iff (h : List.Forall₂ Member.Describes members fields)
    (there : String → Prop) :
    (∀ field ∈ fields, field.required = true → there field.name) ↔
      ∀ m ∈ members, m.required = true → there m.name := by
  induction h with
  | nil => simp
  | cons hm _ ih => rw [List.forall_mem_cons, List.forall_mem_cons, hm.name, hm.required, ih]

/-- **Members fill a record just when they fit.** -/
theorem fill_iff (h : List.Forall₂ Member.Describes members fields)
    (hnodup : (members.map Member.name).Nodup)
    (hextra : ∀ k j, ∃ c, extra k (Draft.ofJson j) = .ok c) {l : List (String × Json)}
    (hkeys : ∀ m ∈ l, m.2.Distinct) (hplain : Member.Plain members l) :
    ((∀ m ∈ l, ∃ c, change fields extra m.1 (Draft.ofJson m.2) = .ok c) ∧
        ∀ field ∈ fields, field.required = true → field.name ∈ l.map Prod.fst) ↔
      Member.Fit members l := by
  have hchange : (∀ e ∈ l, ∃ c, change fields extra e.1 (Draft.ofJson e.2) = .ok c) ↔
      ∀ e ∈ l, ∀ m ∈ members, m.name = e.1 → m.schema.fits e.2 := by
    refine forall₂_congr fun e he => change_iff h hnodup hextra (hkeys e he) fun m hm hname => ?_
    exact hplain m hm e.2 (hname ▸ he)
  have hthere : ∀ k, k ∈ l.map Prod.fst ↔ ∃ j, (k, j) ∈ l := fun k => by simp
  rw [hchange, forall_required_iff h (· ∈ l.map Prod.fst)]
  simp only [hthere]
  constructor
  · rintro ⟨hfits, hrequired⟩ m hm
    exact ⟨hrequired m hm, fun j hj => hfits (m.name, j) hj m hm rfl⟩
  · intro hfit
    refine ⟨fun e he m hm hname => ?_, fun m hm => (hfit m hm).1⟩
    exact (hfit m hm).2 e.2 (hname ▸ he)

theorem openRecord_describes (h : List.Forall₂ Member.Describes members fields)
    (hnodup : (members.map Member.name).Nodup)
    (hextra : ∀ k j, ∃ c, extra k (Draft.ofJson j) = .ok c) (name : String) (blank : σ) :
    (record members).Describes (Draft.openRecord name fields extra blank) := by
  intro j hkeys hplain
  cases j with
  | object l =>
    rw [openRecord_ofMembers_iff hkeys.nodup,
      fill_iff h hnodup hextra hkeys.members (hplain.2 l rfl)]
    exact ⟨fun hl => ⟨l, rfl, hl⟩, fun ⟨l', heq, hl⟩ => Json.object.inj heq ▸ hl⟩
  | _ => exact iff_of_false (fun ⟨_, h⟩ => mismatch_ne_ok h) nofun

theorem exists_ignored (k : String) (j : Json) :
    ∃ c, (Extra.ignored k (Draft.ofJson j) : Except Problem (σ → σ)) = .ok c :=
  ⟨id, ignored_ofJson k j⟩

theorem record_describes (h : List.Forall₂ Member.Describes members fields)
    (hnodup : (members.map Member.name).Nodup) (name : String) (blank : σ) :
    (record members).Describes (Draft.record name fields blank) := by
  intro j hkeys hplain
  have hopen := openRecord_describes h hnodup exists_ignored name blank j hkeys hplain
  cases j with
  | array l => exact absurd rfl (hplain.1 l)
  | _ => exact hopen

/-! ### Tagged variants -/

/-- The members that stand beside a tag. -/
def beside (l : List (String × Json)) : Content := .members (l.map fun m => (m.1, Draft.ofJson m.2))

/-- What stands beside a tag is read as an object of its own would be. -/
theorem record_beside (l : List (String × Json)) (owner name : String) (blank : σ) :
    (beside l).record owner fields blank =
      Draft.openRecord name fields .ignored blank (Draft.ofJson (.object l)) := by
  rw [Draft.ofJson, Draft.ofMembers_eq_map, beside, Content.record, List.map_map]
  rfl

theorem content_record_iff (h : List.Forall₂ Member.Describes members fields)
    (hnodup : (members.map Member.name).Nodup) {l : List (String × Json)}
    (hunique : (l.map Prod.fst).Nodup) (hkeys : ∀ m ∈ l, m.2.Distinct)
    (hplain : Member.Plain members l) (owner : String) (blank : σ) :
    (∃ r, (beside l).record owner fields blank = .ok r) ↔ Member.Fit members l := by
  rw [record_beside l owner owner blank, openRecord_ofMembers_iff hunique owner blank,
    fill_iff h hnodup exists_ignored hkeys hplain]

section Tags

variable {τ : Type} {tag : String} {readTag : Draft → Except Problem τ}
  {first last l : List (String × Json)} {j : Json}

theorem splitTag_of_notMem (h : tag ∉ l.map Prod.fst) (found : Option τ)
    (others : List (String × Draft)) :
    splitTag tag readTag found others (Draft.ofJson.ofMembers l) =
      .ok (found, others.reverse ++ l.map fun m => (m.1, Draft.ofJson m.2)) := by
  induction l generalizing others with
  | nil => simp [Draft.ofJson.ofMembers, splitTag]
  | cons m l ih =>
    rw [List.map_cons, List.mem_cons, not_or] at h
    obtain ⟨kept, hkeep⟩ := Draft.exists_keep_ofJson m.2
    simp [Draft.ofJson.ofMembers, splitTag, Lexeme.kept, Ne.symm h.1, hkeep, ih h.2]

/-- The tag is read wherever it stands, and the members around it are set aside. -/
theorem splitTag_of_mem (hfirst : tag ∉ first.map Prod.fst) (hlast : tag ∉ last.map Prod.fst)
    (others : List (String × Draft)) :
    splitTag tag readTag none others (Draft.ofJson.ofMembers (first ++ (tag, j) :: last)) = (do
      let t ← readTag (Draft.ofJson j)
      return (some t,
        others.reverse ++ (first ++ last).map fun m => (m.1, Draft.ofJson m.2))) := by
  induction first generalizing others with
  | nil =>
    simp only [List.nil_append, Draft.ofJson.ofMembers, splitTag, Lexeme.kept, ok_bind, if_true,
      Option.isSome_none, splitTag_of_notMem hlast]
    rfl
  | cons m first ih =>
    rw [List.map_cons, List.mem_cons, not_or] at hfirst
    obtain ⟨kept, hkeep⟩ := Draft.exists_keep_ofJson m.2
    simp [Draft.ofJson.ofMembers, splitTag, Lexeme.kept, Ne.symm hfirst.1, hkeep, ih hfirst.2]

theorem notMem_around (hnodup : ((first ++ (tag, j) :: last).map Prod.fst).Nodup) :
    tag ∉ first.map Prod.fst ∧ tag ∉ last.map Prod.fst := by
  rw [List.map_append, List.map_cons, List.nodup_middle, List.nodup_cons] at hnodup
  simpa using hnodup.1

/-- An object with one tag is read as a variant by it and by what stands beside it. -/
theorem tagged_of_mem (haround : tag ∉ first.map Prod.fst ∧ tag ∉ last.map Prod.fst)
    (name : String) :
    Draft.tagged name tag readTag (Draft.ofJson (.object (first ++ (tag, j) :: last))) = (do
      let t ← readTag (Draft.ofJson j)
      return (t, beside (first ++ last))) := by
  rw [Draft.ofJson, Draft.tagged, splitTag_of_mem haround.1 haround.2]
  cases readTag (Draft.ofJson j) <;> rfl

theorem mem_of_tagged {name : String} {result : τ × Content}
    (h : Draft.tagged name tag readTag (Draft.ofJson (.object l)) = .ok result) :
    tag ∈ l.map Prod.fst := by
  by_contra htag
  rw [Draft.ofJson, Draft.tagged, splitTag_of_notMem htag] at h
  cases h

theorem variantName_eq_ok_iff {readName : String → Except Problem τ} {t : τ} :
    Draft.variantName readName (Draft.ofJson j) = .ok t ↔
      ∃ s, j = .string s ∧ readName s = .ok t := by
  cases j with
  | string s => exact ⟨fun h => ⟨s, rfl, h⟩, fun ⟨s', heq, h⟩ => Json.string.inj heq ▸ h⟩
  | _ => exact iff_of_false mismatch_ne_ok nofun

theorem Member.fit_around {c : List Member} (htag : tag ∉ c.map Member.name) :
    Fit c (first ++ (tag, j) :: last) ↔ Fit c (first ++ last) := by
  refine forall₂_congr fun m hm => ?_
  have hname : m.name ≠ tag := fun heq => htag (List.mem_map.2 ⟨m, hm, heq⟩)
  simp [hname]

/-- Whether the members of a case are just what its content is read from. -/
structure CaseDescribes (tag : String) (readName : String → Except Problem τ)
    (ofContent : Content → τ → Except Problem α) (c : String × List Member) : Prop where
  notMem : tag ∉ c.2.map Member.name
  content : ∃ t, readName c.1 = .ok t ∧ ∀ l : List (String × Json), (l.map Prod.fst).Nodup →
    (∀ m ∈ l, m.2.Distinct) → Member.Plain c.2 l →
      ((∃ a, ofContent (beside l) t = .ok a) ↔ Member.Fit c.2 l)

theorem CaseDescribes.of_record {readName : String → Except Problem τ}
    {ofContent : Content → τ → Except Problem α} {c : String × List Member}
    (htag : tag ∉ c.2.map Member.name) {t : τ} (ht : readName c.1 = .ok t)
    (h : List.Forall₂ Member.Describes c.2 fields) (hnodup : (c.2.map Member.name).Nodup)
    {owner : String} {blank : σ} {build : σ → α}
    (hcontent : ∀ content, ofContent content t = (do
      let r ← content.record owner fields blank
      return build r)) : CaseDescribes tag readName ofContent c := by
  refine ⟨htag, t, ht, fun l hunique hkeys hplain => ?_⟩
  rw [hcontent]
  exact exists_bind_pure_iff.trans (content_record_iff h hnodup hunique hkeys hplain owner blank)

/-- What stands around a tag is the content just when all members fit. -/
theorem CaseDescribes.around {readName : String → Except Problem τ}
    {ofContent : Content → τ → Except Problem α} {c : String × List Member}
    (h : CaseDescribes tag readName ofContent c) {t : τ} (ht : readName c.1 = .ok t)
    (hkeys : Distinct (.object (first ++ (tag, j) :: last)))
    (hplain : Member.Plain c.2 (first ++ (tag, j) :: last)) :
    (∃ a, ofContent (beside (first ++ last)) t = .ok a) ↔
      Member.Fit c.2 (first ++ (tag, j) :: last) := by
  obtain ⟨t', ht', hiff⟩ := h.content
  obtain rfl : t = t' := Except.ok.inj (ht.symm.trans ht')
  have hsub : ∀ m ∈ first ++ last, m ∈ first ++ (tag, j) :: last := by
    intro m hm
    rw [List.mem_append] at hm ⊢
    exact hm.imp_right (List.mem_cons_of_mem _)
  have hnodup := hkeys.nodup
  rw [List.map_append, List.map_cons, List.nodup_middle, ← List.map_append] at hnodup
  rw [Member.fit_around h.notMem]
  exact hiff _ hnodup.of_cons (fun m hm => hkeys.members m (hsub m hm))
    fun m hm j hj => hplain m hm j (hsub _ hj)

/-- **A tagged variant is read just when its tag names a case and its members fit the case.** -/
theorem tagged_describes {cases : List (String × List Member)}
    {readName : String → Except Problem τ} {ofContent : Content → τ → Except Problem α}
    (hcases : ∀ c ∈ cases, CaseDescribes tag readName ofContent c)
    (hnames : ∀ s t, readName s = .ok t → s ∈ cases.map Prod.fst) (name : String) :
    (tagged tag cases).Describes (fun d => do
      let (t, content) ← d.tagged name tag (Draft.variantName readName)
      ofContent content t) := by
  intro j hkeys hplain
  cases j with
  | array l => exact absurd rfl (hplain.1 l)
  | object l =>
    constructor
    · rintro ⟨a, ha⟩
      obtain ⟨⟨t, content⟩, htagged, hcontent⟩ := bind_eq_ok_iff.1 ha
      obtain ⟨⟨_, j⟩, hj, rfl⟩ := List.mem_map.1 (mem_of_tagged htagged)
      obtain ⟨first, last, rfl⟩ := List.append_of_mem hj
      rw [tagged_of_mem (notMem_around hkeys.nodup)] at htagged
      obtain ⟨t', htag, hpure⟩ := bind_eq_ok_iff.1 htagged
      cases hpure
      obtain ⟨s, rfl, hname⟩ := variantName_eq_ok_iff.1 htag
      obtain ⟨c, hc, rfl⟩ := List.mem_map.1 (hnames s t hname)
      exact ⟨_, rfl, c, hc, hj,
        ((hcases c hc).around hname hkeys (hplain.2 _ rfl c hc)).1 ⟨a, hcontent⟩⟩
    · rintro ⟨_, heq, c, hc, htag, hfit⟩
      obtain rfl := Json.object.inj heq
      obtain ⟨first, last, rfl⟩ := List.append_of_mem htag
      obtain ⟨t, hname, -⟩ := (hcases c hc).content
      obtain ⟨a, ha⟩ := ((hcases c hc).around hname hkeys (hplain.2 _ rfl c hc)).2 hfit
      refine ⟨a, bind_eq_ok_iff.2 ⟨(t, beside (first ++ last)), ?_, ha⟩⟩
      rw [tagged_of_mem (notMem_around hkeys.nodup)]
      exact bind_eq_ok_iff.2 ⟨t, variantName_eq_ok_iff.2 ⟨c.1, rfl, hname⟩, rfl⟩
  | _ =>
    refine iff_of_false ?_ nofun
    rintro ⟨a, ha⟩
    obtain ⟨_, htagged, -⟩ := bind_eq_ok_iff.1 ha
    exact mismatch_ne_ok htagged

end Tags

end Decoders

end Schema

end Gamebook.Json
