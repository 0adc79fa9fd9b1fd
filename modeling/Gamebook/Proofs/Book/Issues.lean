import Gamebook.Proofs.Book.Sound
import Gamebook.Proofs.Text.ByteOrder
import Mathlib

/-!
# The issues of a book

`Book.HasIssue` says what is wrong with a book, without walking over it, and
`Issue.Before` in which order an author reads of it.  The list of issues holds
just the issues of the book (`Book.mem_issues_iff`), in that order
(`Book.pairwise_issues`), and so none of them twice.

A screen's references are told by `Screen.Refers`
(`Screen.mem_references_iff`), each with its place; no two places are described
alike (`Place.describe_injective`).
-/

namespace Gamebook

/-! ### What is wrong -/

/-- At this place the screen refers to the screen of this id. -/
inductive Screen.Refers (screen : Screen) : Place → String → Prop
  | next {id : String} (h : screen.next = some id) : screen.Refers .next id
  | action {id : String} (h : screen.action = some (.navigate id)) : screen.Refers .action id
  | choice {choices : List Choice} {i : Nat} {choice : Choice}
      (h : screen.choices = some choices) (hi : choices[i]? = some choice) :
      screen.Refers (.choice i) choice.next
  | timedOption {t : TimedChoices} {i : Nat} {option : Choice}
      (h : screen.timedChoices = some t) (hi : t.options[i]? = some option) :
      screen.Refers (.timedOption i) option.next
  | element {i : Nat} {element : Element} {id : String} (hi : screen.elements[i]? = some element)
      (h : element.action = some (.navigate id)) : screen.Refers (.element i) id

/-- There is nothing to choose: the authored choices are none, or there are no authored ones and
no button navigates. -/
def Screen.OffersNothing (screen : Screen) : Prop :=
  screen.choices = some [] ∨ screen.choices = none ∧
    ∀ element ∈ screen.elements, element.kind = .button →
      ∀ id, element.action ≠ some (.navigate id)

inductive Book.HasIssue (b : Book) : Issue → Prop
  | missingStart (h : b.screen? b.start = none) : b.HasIssue (.missingStart b.start)
  | danglingReference {id target : String} {screen : Screen} {place : Place}
      (hscreen : b.screen? id = some screen) (hrefers : screen.Refers place target)
      (h : b.screen? target = none) : b.HasIssue (.danglingReference id place target)
  | unknownScreenType {id : String} {screen : Screen} (hscreen : b.screen? id = some screen)
      (h : screen.kind = .unknown) : b.HasIssue (.unknownScreenType id)
  | emptyChoiceSet {id : String} {screen : Screen} (hscreen : b.screen? id = some screen)
      (hkind : screen.kind = .choices) (h : screen.OffersNothing) : b.HasIssue (.emptyChoiceSet id)
  | missingTimedChoices {id : String} {screen : Screen} (hscreen : b.screen? id = some screen)
      (hkind : screen.kind = .timed) (h : screen.timedChoices = none) :
      b.HasIssue (.missingTimedChoices id)
  | emptyTimedOptions {id : String} {screen : Screen} {t : TimedChoices}
      (hscreen : b.screen? id = some screen) (ht : screen.timedChoices = some t)
      (h : t.options = []) : b.HasIssue (.emptyTimedOptions id)
  | defaultIndexOutOfRange {id : String} {screen : Screen} {t : TimedChoices}
      (hscreen : b.screen? id = some screen) (ht : screen.timedChoices = some t)
      (hoptions : t.options ≠ []) (h : t.options.length ≤ t.defaultIndex.toNat) :
      b.HasIssue (.defaultIndexOutOfRange id t.defaultIndex.toNat t.options.length)

/-! ### In which order -/

namespace Place

/-- The fields of a screen in the order in which their references are told. -/
def field : Place → Nat
  | next => 0
  | action => 1
  | choice _ => 2
  | timedOption _ => 3
  | element _ => 4

/-- The index in a field that is a list. -/
def index : Place → Nat
  | choice i => i
  | timedOption i => i
  | element i => i
  | _ => 0

def Before (p q : Place) : Prop := p.field < q.field ∨ p.field = q.field ∧ p.index < q.index

end Place

namespace Issue

/-- The screen with the issue, unless it is one of the whole book. -/
def screen? : Issue → Option String
  | missingStart _ => none
  | danglingReference id _ _ => some id
  | unknownScreenType id => some id
  | emptyChoiceSet id => some id
  | missingTimedChoices id => some id
  | emptyTimedOptions id => some id
  | defaultIndexOutOfRange id _ _ => some id

/-- What of a screen is at issue: its references, its type or its timed choices. -/
def part : Issue → Nat
  | missingStart _ => 0
  | danglingReference _ _ _ => 0
  | unknownScreenType _ => 1
  | emptyChoiceSet _ => 1
  | missingTimedChoices _ => 1
  | emptyTimedOptions _ => 2
  | defaultIndexOutOfRange _ _ _ => 2

/-- The order of issues: the start first, then by the bytes of the screen's id, and of one screen
first the references by their places, then the type, then the timed choices. -/
inductive Before : Issue → Issue → Prop
  | start {start id : String} {issue : Issue} (h : issue.screen? = some id) :
      Before (.missingStart start) issue
  | screen {issue issue' : Issue} {id id' : String} (hid : issue.screen? = some id)
      (hid' : issue'.screen? = some id') (h : Text.bytes id < Text.bytes id') : Before issue issue'
  | part {issue issue' : Issue} {id : String} (hid : issue.screen? = some id)
      (hid' : issue'.screen? = some id) (h : issue.part < issue'.part) : Before issue issue'
  | place {id target target' : String} {place place' : Place} (h : place.Before place') :
      Before (.danglingReference id place target) (.danglingReference id place' target')

theorem Before.ne {issue issue' : Issue} (h : Before issue issue') : issue ≠ issue' := by
  rintro rfl
  cases h with
  | start h => nomatch h
  | screen hid hid' h =>
    rw [hid] at hid'
    obtain rfl := Option.some.inj hid'
    exact List.lt_irrefl _ h
  | part hid hid' h => exact Nat.lt_irrefl _ h
  | place h =>
    rcases h with hfield | ⟨_, hindex⟩
    · exact Nat.lt_irrefl _ hfield
    · exact Nat.lt_irrefl _ hindex

end Issue

theorem Element.asChoice?_eq_none_iff {element : Element} :
    element.asChoice? = none ↔ ∀ id, element.action ≠ some (.navigate id) := by
  unfold asChoice?
  split
  · rename_i id haction
    simp [haction]
  · rename_i hother
    simpa using hother

/-! ### References -/

namespace Screen

theorem target?_eq_some_iff {action : Option Action} {id : String} :
    action.bind Action.target? = some id ↔ action = some (.navigate id) := by
  cases action with
  | none => simp
  | some action => cases action <;> simp [Action.target?]

theorem mem_optionReferences_iff {place : Nat → Place} {options : List Choice} {p : Place}
    {id : String} : (p, id) ∈ optionReferences place options ↔
      ∃ i option, options[i]? = some option ∧ p = place i ∧ id = option.next := by
  unfold optionReferences
  constructor
  · intro h
    obtain ⟨⟨option, i⟩, hi, heq⟩ := List.mem_map.1 h
    obtain ⟨rfl, rfl⟩ := Prod.mk.inj heq
    exact ⟨i, option, List.mk_mem_zipIdx_iff_getElem?.1 hi, rfl, rfl⟩
  · rintro ⟨i, option, hi, rfl, rfl⟩
    exact List.mem_map.2 ⟨(option, i), List.mk_mem_zipIdx_iff_getElem?.2 hi, rfl⟩

/-- **The list of references holds all that refers.** -/
theorem mem_references_iff {screen : Screen} {place : Place} {id : String} :
    (place, id) ∈ screen.references ↔ screen.Refers place id := by
  unfold references
  simp only [List.mem_append, or_assoc]
  constructor
  · rintro (hnext | haction | hchoice | htimed | helement)
    · obtain ⟨id', hid, heq⟩ := List.mem_map.1 hnext
      obtain ⟨rfl, rfl⟩ := Prod.mk.inj heq
      exact .next (Option.mem_toList.1 hid)
    · obtain ⟨id', hid, heq⟩ := List.mem_map.1 haction
      obtain ⟨rfl, rfl⟩ := Prod.mk.inj heq
      exact .action (target?_eq_some_iff.1 (Option.mem_toList.1 hid))
    · obtain ⟨i, option, hi, rfl, rfl⟩ := mem_optionReferences_iff.1 hchoice
      cases hchoices : screen.choices with
      | none => simp [hchoices] at hi
      | some choices => exact .choice hchoices (by simpa [hchoices] using hi)
    · obtain ⟨i, option, hi, rfl, rfl⟩ := mem_optionReferences_iff.1 htimed
      cases ht : screen.timedChoices with
      | none => simp [ht] at hi
      | some t => exact .timedOption ht (by simpa [ht] using hi)
    · obtain ⟨⟨element, i⟩, hi, htarget⟩ := List.mem_filterMap.1 helement
      obtain ⟨id', hid, heq⟩ := Option.map_eq_some_iff.1 htarget
      obtain ⟨rfl, rfl⟩ := Prod.mk.inj heq
      exact .element (List.mk_mem_zipIdx_iff_getElem?.1 hi) (target?_eq_some_iff.1 hid)
  · intro h
    cases h with
    | next h => simp [h]
    | action h => simp [h, Action.target?]
    | @choice choices i choice h hi =>
      refine Or.inr (Or.inr (Or.inl (mem_optionReferences_iff.2 ⟨i, choice, ?_, rfl, rfl⟩)))
      rwa [h]
    | @timedOption t i option h hi =>
      refine Or.inr (Or.inr (Or.inr (Or.inl (mem_optionReferences_iff.2
        ⟨i, option, ?_, rfl, rfl⟩))))
      rwa [h]
    | @element i element id hi h =>
      refine Or.inr (Or.inr (Or.inr (Or.inr (List.mem_filterMap.2 ⟨(element, i), ?_, ?_⟩))))
      · exact List.mk_mem_zipIdx_iff_getElem?.2 hi
      · simp [h, Action.target?]

/-! ### The references in their order -/

theorem pairwise_zipIdx {α : Type} (l : List α) : l.zipIdx.Pairwise fun a b => a.2 < b.2 := by
  have hnumbers : (l.zipIdx.map Prod.snd).Pairwise (· < ·) := by
    rw [List.zipIdx_map_snd]
    exact List.pairwise_lt_range'
  exact List.pairwise_map.1 hnumbers

theorem pairwise_optionReferences (place : Nat → Place)
    (hplace : ∀ i j, i < j → (place i).Before (place j)) (options : List Choice) :
    (optionReferences place options).Pairwise fun r r' => r.1.Before r'.1 :=
  List.pairwise_map.2 ((pairwise_zipIdx options).imp fun h => hplace _ _ h)

theorem field_of_mem_optionReferences {place : Nat → Place} {k : Nat}
    (hplace : ∀ i, (place i).field = k) {options : List Choice} {r : Place × String}
    (hr : r ∈ optionReferences place options) : r.1.field = k := by
  obtain ⟨i, _, _, hr, _⟩ := mem_optionReferences_iff.1 hr
  rw [hr, hplace]

/-- References in the order of their places, all of them in the first `k` fields. -/
def InOrder (k : Nat) (l : List (Place × String)) : Prop :=
  (l.Pairwise fun r r' => r.1.Before r'.1) ∧ ∀ r ∈ l, r.1.field < k

/-- The references of the next field come after those of the fields before it. -/
theorem InOrder.append {k : Nat} {l : List (Place × String)} (h : InOrder k l)
    (l' : List (Place × String)) (hl' : l'.Pairwise fun r r' => r.1.Before r'.1)
    (hfield : ∀ r ∈ l', r.1.field = k) :
    InOrder (k + 1) (l ++ l') := by
  constructor
  · refine List.pairwise_append.2 ⟨h.1, hl', fun r hr r' hr' => Or.inl ?_⟩
    rw [hfield r' hr']
    exact h.2 r hr
  · intro r hr
    rcases List.mem_append.1 hr with hbefore | hnew
    · exact Nat.lt_succ_of_lt (h.2 r hbefore)
    · rw [hfield r hnew]
      exact Nat.lt_succ_self k

theorem pairwise_references (screen : Screen) :
    screen.references.Pairwise fun r r' => r.1.Before r'.1 := by
  have hnext : InOrder 1 (screen.next.toList.map (.next, ·)) :=
    ⟨List.pairwise_map.2 Option.pairwise_toList, by simp [Place.field]⟩
  have haction := hnext.append ((screen.action.bind Action.target?).toList.map (.action, ·))
    (List.pairwise_map.2 Option.pairwise_toList) (by simp [Place.field])
  have hchoices := haction.append _
    (pairwise_optionReferences .choice (fun i j hij => Or.inr ⟨rfl, hij⟩)
      (screen.choices.getD []))
    fun r hr => field_of_mem_optionReferences (k := 2) (fun _ => rfl) hr
  have htimed := hchoices.append _
    (pairwise_optionReferences .timedOption (fun i j hij => Or.inr ⟨rfl, hij⟩)
      ((screen.timedChoices.map (·.options)).getD []))
    fun r hr => field_of_mem_optionReferences (k := 3) (fun _ => rfl) hr
  have helements : (screen.elements.zipIdx.filterMap fun e =>
      (e.1.action.bind Action.target?).map (Place.element e.2, ·)).Pairwise
        fun r r' => r.1.Before r'.1 := by
    refine List.pairwise_filterMap.2 ((pairwise_zipIdx screen.elements).imp ?_)
    intro a b hab r hr r' hr'
    obtain ⟨_, _, rfl⟩ := Option.map_eq_some_iff.1 hr
    obtain ⟨_, _, rfl⟩ := Option.map_eq_some_iff.1 hr'
    exact Or.inr ⟨rfl, hab⟩
  refine (htimed.append _ helements fun r hr => ?_).1
  obtain ⟨_, _, hr⟩ := List.mem_filterMap.1 hr
  obtain ⟨_, _, rfl⟩ := Option.map_eq_some_iff.1 hr
  rfl

/-! ### The type and the timed choices -/

theorem choiceSet_eq_nil_iff {screen : Screen} : screen.choiceSet = [] ↔ screen.OffersNothing := by
  unfold choiceSet OffersNothing buttons
  cases screen.choices with
  | some choices => simp
  | none =>
    simp only [List.filterMap_eq_nil_iff, List.mem_filter, decide_eq_true_eq, and_imp,
      Element.asChoice?_eq_none_iff, reduceCtorEq, false_or, true_and]

variable {screen : Screen} {id : String} {issue : Issue}

theorem mem_kindIssues_iff :
    issue ∈ screen.kindIssues id ↔
      screen.kind = .unknown ∧ issue = .unknownScreenType id ∨
        screen.kind = .choices ∧ screen.OffersNothing ∧ issue = .emptyChoiceSet id ∨
          screen.kind = .timed ∧ screen.timedChoices = none ∧ issue = .missingTimedChoices id := by
  unfold kindIssues
  cases screen.kind with
  | unknown => simp
  | choices => simp [choiceSet_eq_nil_iff]
  | timed => simp
  | _ => simp

theorem mem_timedIssues_iff :
    issue ∈ screen.timedIssues id ↔ ∃ t, screen.timedChoices = some t ∧
      (t.options = [] ∧ issue = .emptyTimedOptions id ∨
        t.options ≠ [] ∧ t.options.length ≤ t.defaultIndex.toNat ∧
          issue = .defaultIndexOutOfRange id t.defaultIndex.toNat t.options.length) := by
  unfold timedIssues
  cases screen.timedChoices with
  | none => simp
  | some t =>
    by_cases hoptions : t.options = []
    · simp [hoptions]
    · simp [hoptions]

/-- A screen has one type, and at most one thing is wrong with its timed choices. -/
theorem pairwise_kindIssues (screen : Screen) (id : String) :
    (screen.kindIssues id).Pairwise Issue.Before := by
  unfold kindIssues
  split
  · exact List.pairwise_singleton _ _
  · split
    · exact List.pairwise_singleton _ _
    · exact .nil
  · split
    · exact List.pairwise_singleton _ _
    · exact .nil
  · exact .nil

theorem pairwise_timedIssues (screen : Screen) (id : String) :
    (screen.timedIssues id).Pairwise Issue.Before := by
  unfold timedIssues
  split
  · exact .nil
  · split
    · exact List.pairwise_singleton _ _
    · split
      · exact List.pairwise_singleton _ _
      · exact .nil

end Screen

/-! ### The issues of a screen and of the book -/

namespace Book

variable {b : Book} {id : String} {screen : Screen} {issue : Issue}

theorem contains_eq_false_iff : b.contains id = false ↔ b.screen? id = none :=
  Dict.contains_eq_false_iff

theorem mem_danglingReferences_iff :
    issue ∈ b.danglingReferences id screen ↔ ∃ place target, screen.Refers place target ∧
      b.screen? target = none ∧ issue = .danglingReference id place target := by
  unfold danglingReferences
  constructor
  · intro h
    obtain ⟨⟨place, target⟩, hr, rfl⟩ := List.mem_map.1 h
    obtain ⟨hrefers, hdangling⟩ := List.mem_filter.1 hr
    refine ⟨place, target, Screen.mem_references_iff.1 hrefers, ?_, rfl⟩
    rw [← contains_eq_false_iff]
    simpa using hdangling
  · rintro ⟨place, target, hrefers, hdangling, rfl⟩
    refine List.mem_map.2 ⟨(place, target), List.mem_filter.2 ⟨?_, ?_⟩, rfl⟩
    · exact Screen.mem_references_iff.2 hrefers
    · simp [contains_eq_false_iff.2 hdangling]

theorem hasIssue_of_mem_screenIssues (hscreen : b.screen? id = some screen)
    (h : issue ∈ b.screenIssues id screen) : b.HasIssue issue := by
  unfold screenIssues at h
  simp only [List.mem_append, or_assoc] at h
  rcases h with hdangling | hkind | htimed
  · obtain ⟨place, target, hrefers, hnone, rfl⟩ := mem_danglingReferences_iff.1 hdangling
    exact .danglingReference hscreen hrefers hnone
  · rcases Screen.mem_kindIssues_iff.1 hkind with
      ⟨hunknown, rfl⟩ | ⟨hchoices, hnothing, rfl⟩ | ⟨htimed, hnone, rfl⟩
    · exact .unknownScreenType hscreen hunknown
    · exact .emptyChoiceSet hscreen hchoices hnothing
    · exact .missingTimedChoices hscreen htimed hnone
  · obtain ⟨t, ht, ⟨hnone, rfl⟩ | ⟨hoptions, hrange, rfl⟩⟩ := Screen.mem_timedIssues_iff.1 htimed
    · exact .emptyTimedOptions hscreen ht hnone
    · exact .defaultIndexOutOfRange hscreen ht hoptions hrange

theorem mem_issues_of_screen (hscreen : b.screen? id = some screen)
    (h : issue ∈ b.screenIssues id screen) : issue ∈ b.issues :=
  List.mem_append_right _ (List.mem_flatMap.2 ⟨(id, screen), Dict.mem_of_find? hscreen, h⟩)

/-- **The list holds all issues of the book and nothing else.** -/
theorem mem_issues_iff : issue ∈ b.issues ↔ b.HasIssue issue := by
  constructor
  · intro h
    rcases List.mem_append.1 h with hstart | hscreens
    · unfold startIssues at hstart
      split at hstart <;> rename_i hcontains
      · nomatch hstart
      · obtain rfl := List.mem_singleton.1 hstart
        rw [Bool.not_eq_true] at hcontains
        exact .missingStart (contains_eq_false_iff.1 hcontains)
    · obtain ⟨⟨id, screen⟩, hentry, hissue⟩ := List.mem_flatMap.1 hscreens
      exact hasIssue_of_mem_screenIssues (Dict.find?_of_mem hentry) hissue
  · intro h
    cases h with
    | missingStart hnone =>
      exact List.mem_append_left _ (by simp [startIssues, contains_eq_false_iff.2 hnone])
    | danglingReference hscreen hrefers hnone =>
      refine mem_issues_of_screen hscreen (List.mem_append_left _ (List.mem_append_left _ ?_))
      exact mem_danglingReferences_iff.2 ⟨_, _, hrefers, hnone, rfl⟩
    | unknownScreenType hscreen hunknown =>
      refine mem_issues_of_screen hscreen (List.mem_append_left _ (List.mem_append_right _ ?_))
      exact Screen.mem_kindIssues_iff.2 (Or.inl ⟨hunknown, rfl⟩)
    | emptyChoiceSet hscreen hkind hnothing =>
      refine mem_issues_of_screen hscreen (List.mem_append_left _ (List.mem_append_right _ ?_))
      exact Screen.mem_kindIssues_iff.2 (Or.inr (Or.inl ⟨hkind, hnothing, rfl⟩))
    | missingTimedChoices hscreen hkind hnone =>
      refine mem_issues_of_screen hscreen (List.mem_append_left _ (List.mem_append_right _ ?_))
      exact Screen.mem_kindIssues_iff.2 (Or.inr (Or.inr ⟨hkind, hnone, rfl⟩))
    | emptyTimedOptions hscreen ht hnone =>
      refine mem_issues_of_screen hscreen (List.mem_append_right _ ?_)
      exact Screen.mem_timedIssues_iff.2 ⟨_, ht, Or.inl ⟨hnone, rfl⟩⟩
    | defaultIndexOutOfRange hscreen ht hoptions hrange =>
      refine mem_issues_of_screen hscreen (List.mem_append_right _ ?_)
      exact Screen.mem_timedIssues_iff.2 ⟨_, ht, Or.inr ⟨hoptions, hrange, rfl⟩⟩

/-! ### The issues in their order -/

theorem of_mem_danglingReferences (h : issue ∈ b.danglingReferences id screen) :
    issue.screen? = some id ∧ issue.part = 0 := by
  obtain ⟨_, _, _, _, rfl⟩ := mem_danglingReferences_iff.1 h
  exact ⟨rfl, rfl⟩

theorem of_mem_kindIssues (h : issue ∈ screen.kindIssues id) :
    issue.screen? = some id ∧ issue.part = 1 := by
  rcases Screen.mem_kindIssues_iff.1 h with ⟨_, rfl⟩ | ⟨_, _, rfl⟩ | ⟨_, _, rfl⟩
  · exact ⟨rfl, rfl⟩
  · exact ⟨rfl, rfl⟩
  · exact ⟨rfl, rfl⟩

theorem of_mem_timedIssues (h : issue ∈ screen.timedIssues id) :
    issue.screen? = some id ∧ issue.part = 2 := by
  obtain ⟨_, _, ⟨_, rfl⟩ | ⟨_, _, rfl⟩⟩ := Screen.mem_timedIssues_iff.1 h
  · exact ⟨rfl, rfl⟩
  · exact ⟨rfl, rfl⟩

theorem screen?_of_mem_screenIssues (h : issue ∈ b.screenIssues id screen) :
    issue.screen? = some id := by
  unfold screenIssues at h
  simp only [List.mem_append, or_assoc] at h
  rcases h with hdangling | hkind | htimed
  · exact (of_mem_danglingReferences hdangling).1
  · exact (of_mem_kindIssues hkind).1
  · exact (of_mem_timedIssues htimed).1

theorem pairwise_screenIssues (b : Book) (id : String) (screen : Screen) :
    (b.screenIssues id screen).Pairwise Issue.Before := by
  have hdangling : (b.danglingReferences id screen).Pairwise Issue.Before :=
    List.pairwise_map.2 ((screen.pairwise_references.filter _).imp .place)
  refine List.pairwise_append.2 ⟨List.pairwise_append.2 ⟨hdangling,
    screen.pairwise_kindIssues id, fun i hi j hj => ?_⟩, screen.pairwise_timedIssues id,
    fun i hi j hj => ?_⟩
  · obtain ⟨hid, hpart⟩ := of_mem_danglingReferences hi
    obtain ⟨hid', hpart'⟩ := of_mem_kindIssues hj
    exact .part hid hid' (by omega)
  · obtain ⟨hid', hpart'⟩ := of_mem_timedIssues hj
    rcases List.mem_append.1 hi with hi | hi
    · obtain ⟨hid, hpart⟩ := of_mem_danglingReferences hi
      exact .part hid hid' (by omega)
    · obtain ⟨hid, hpart⟩ := of_mem_kindIssues hi
      exact .part hid hid' (by omega)

/-- **The issues come in their order.** -/
theorem pairwise_issues (b : Book) : b.issues.Pairwise Issue.Before := by
  refine List.pairwise_append.2 ⟨?_, List.pairwise_flatMap.2 ⟨?_, ?_⟩, ?_⟩
  · unfold startIssues
    split
    · exact .nil
    · exact List.pairwise_singleton _ _
  · exact fun entry _ => b.pairwise_screenIssues entry.1 entry.2
  · refine b.screens.sorted.imp fun hlt i hi j hj => ?_
    exact .screen (screen?_of_mem_screenIssues hi) (screen?_of_mem_screenIssues hj)
      (Text.bytes_lt_of_lt hlt)
  · intro i hi j hj
    unfold startIssues at hi
    split at hi
    · nomatch hi
    · obtain rfl := List.mem_singleton.1 hi
      obtain ⟨entry, _, hj⟩ := List.mem_flatMap.1 hj
      exact .start (screen?_of_mem_screenIssues hj)

theorem head?_issues_iff (b : Book) :
    b.issues.head? = some (.missingStart b.start) ↔ b.screen? b.start = none := by
  constructor
  · intro h
    cases mem_issues_iff.1 (List.mem_of_mem_head? h) with
    | missingStart hnone => exact hnone
  · intro hnone
    simp [issues, startIssues, contains_eq_false_iff.2 hnone]

end Book

/-! ### The descriptions of places -/

namespace Place

/-- How the description of a place begins. -/
def letter : Place → Char
  | next => 'n'
  | action => 'a'
  | choice _ => 'c'
  | timedOption _ => 't'
  | element _ => 'e'

theorem head?_append {s : String} {c : Char} (h : s.toList.head? = some c) (t : String) :
    (s ++ t).toList.head? = some c := by
  rw [String.toList_append, List.head?_append, h]
  rfl

theorem head?_describe (p : Place) : p.describe.toList.head? = some p.letter := by
  have hchoices : "choices[".toList.head? = some 'c' := by decide
  have htimed : "timedChoices.options[".toList.head? = some 't' := by decide
  have helements : "elements[".toList.head? = some 'e' := by decide
  cases p with
  | next => decide
  | action => decide
  | choice i => exact head?_append (head?_append hchoices _) _
  | timedOption i => exact head?_append (head?_append htimed _) _
  | element i => exact head?_append (head?_append helements _) _

/-- The first letter tells the field, and an index is written in digits. -/
theorem describe_injective : Function.Injective describe := by
  intro p q h
  have hletter : p.letter = q.letter := by
    rw [← Option.some_inj, ← head?_describe, ← head?_describe, h]
  have hindex {before after : String} {i j : Nat}
      (h : before ++ toString i ++ after = before ++ toString j ++ after) : i = j := by
    rw [String.append_left_inj, String.append_right_inj] at h
    exact Nat.repr_injective h
  cases p with
  | next =>
    cases q with
    | next => rfl
    | _ => simp [letter] at hletter
  | action =>
    cases q with
    | action => rfl
    | _ => simp [letter] at hletter
  | choice i =>
    cases q with
    | choice j => rw [hindex h]
    | _ => simp [letter] at hletter
  | timedOption i =>
    cases q with
    | timedOption j => rw [hindex h]
    | _ => simp [letter] at hletter
  | element i =>
    cases q with
    | element j => rw [hindex h]
    | _ => simp [letter] at hletter

end Place

/-- **The issues of a book are told exactly**: all that is wrong and nothing else, in their order
and so none twice, the missing start first, and each reference under a description that no other
place of a screen has. -/
theorem issues_exact (b : Book) :
    (∀ issue, issue ∈ b.issues ↔ b.HasIssue issue) ∧ b.issues.Pairwise Issue.Before ∧
      b.issues.Nodup ∧
      (b.issues.head? = some (.missingStart b.start) ↔ b.screen? b.start = none) ∧
      Function.Injective Place.describe := by
  have hordered := b.pairwise_issues
  have hnodup : b.issues.Nodup := hordered.imp Issue.Before.ne
  exact ⟨fun issue => Book.mem_issues_iff, hordered, hnodup, b.head?_issues_iff,
    Place.describe_injective⟩

end Gamebook
