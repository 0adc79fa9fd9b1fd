import Gamebook.Book.Validation
import Gamebook.Proofs.Dict

/-!
# What a book with no issues has

`Book.issues` walks over the screens of a book and over what stands in them.
`Book.Sound` says what an empty list of issues means (`Book.sound_of_issues`):
the start is a screen, and of every screen that can be found all references lead
to screens, the kind is known, and the menus that the kind asks for are there.

The lemmas after it follow the references that a reader can follow, an option of
a menu (`Screen.Sound.contains_of_choiceSet`, `Screen.Sound.contains_of_option`),
the next screen, an action or a button, back to the list of references.
-/

namespace Gamebook

namespace Screen

/-- A screen of the book whose references, kind and menus are as they should be. -/
structure Sound (screen : Screen) (b : Book) : Prop where
  references : ∀ r ∈ screen.references, b.contains r.2 = true
  kind : screen.kind ≠ .unknown
  choices : screen.kind = .choices → screen.choiceSet ≠ []
  timed : screen.kind = .timed → screen.timedChoices.isSome = true
  defaultIndex : ∀ t, screen.timedChoices = some t → t.defaultIndex.toNat < t.options.length

theorem sound_of_screenIssues {b : Book} {id : String} {screen : Screen}
    (h : b.screenIssues id screen = []) : screen.Sound b := by
  unfold Book.screenIssues at h
  obtain ⟨hbefore, htimed⟩ := List.append_eq_nil_iff.1 h
  obtain ⟨hreferences, hkind⟩ := List.append_eq_nil_iff.1 hbefore
  constructor
  · intro r hr
    have hall := List.filter_eq_nil_iff.1 (List.map_eq_nil_iff.1 hreferences) r hr
    simpa using hall
  · intro hunknown
    simp [kindIssues, hunknown] at hkind
  · intro hchoices hnone
    simp [kindIssues, hchoices, hnone] at hkind
  · intro hkindTimed
    cases hchoices : screen.timedChoices with
    | none => simp [kindIssues, hkindTimed, hchoices] at hkind
    | some t => rfl
  · intro t ht
    unfold timedIssues at htimed
    rw [ht] at htimed
    dsimp only at htimed
    split at htimed
    · nomatch htimed
    · split at htimed <;> rename_i hrange
      · nomatch htimed
      · omega

/-! ### References -/

theorem mem_optionReferences (place : Nat → Place) {options : List Choice} {option : Choice}
    (h : option ∈ options) : ∃ i, (place i, option.next) ∈ optionReferences place options := by
  obtain ⟨i, hi⟩ := List.mem_iff_getElem?.1 h
  exact ⟨i, List.mem_map.2 ⟨(option, i), List.mk_mem_zipIdx_iff_getElem?.2 hi, rfl⟩⟩

namespace Sound

variable {b : Book} {screen : Screen}

theorem contains_of_next (h : screen.Sound b) {id : String} (hnext : screen.next = some id) :
    b.contains id = true := by
  refine h.references (.next, id) ?_
  simp [Screen.references, hnext]

theorem contains_of_action (h : screen.Sound b) {id : String}
    (haction : screen.action = some (.navigate id)) : b.contains id = true := by
  refine h.references (.action, id) ?_
  simp [Screen.references, haction, Action.target?]

theorem contains_of_choice (h : screen.Sound b) {choices : List Choice} {choice : Choice}
    (hchoices : screen.choices = some choices) (hchoice : choice ∈ choices) :
    b.contains choice.next = true := by
  obtain ⟨i, hi⟩ := mem_optionReferences .choice hchoice
  refine h.references (.choice i, choice.next) ?_
  simp [Screen.references, hchoices, hi]

theorem contains_of_option (h : screen.Sound b) {t : TimedChoices} {option : Choice}
    (ht : screen.timedChoices = some t) (hoption : option ∈ t.options) :
    b.contains option.next = true := by
  obtain ⟨i, hi⟩ := mem_optionReferences .timedOption hoption
  refine h.references (.timedOption i, option.next) ?_
  simp [Screen.references, ht, hi]

theorem contains_of_element (h : screen.Sound b) {element : Element} {id : String}
    (helement : element ∈ screen.elements) (haction : element.action = some (.navigate id)) :
    b.contains id = true := by
  obtain ⟨i, hi⟩ := List.mem_iff_getElem?.1 helement
  refine h.references (.element i, id) ?_
  refine List.mem_append_right _ (List.mem_filterMap.2 ⟨(element, i), ?_, ?_⟩)
  · exact List.mk_mem_zipIdx_iff_getElem?.2 hi
  · simp [haction, Action.target?]

/-- Every option of the plain menu, authored or made of the buttons, leads to a screen. -/
theorem contains_of_choiceSet (h : screen.Sound b) {choice : Choice}
    (hchoice : choice ∈ screen.choiceSet) : b.contains choice.next = true := by
  unfold choiceSet at hchoice
  split at hchoice
  · rename_i choices hchoices
    exact h.contains_of_choice hchoices hchoice
  · obtain ⟨element, hbutton, hasChoice⟩ := List.mem_filterMap.1 hchoice
    have helement : element ∈ screen.elements := (List.mem_filter.1 hbutton).1
    unfold Element.asChoice? at hasChoice
    split at hasChoice
    · rename_i id haction
      obtain rfl := Option.some.inj hasChoice
      exact h.contains_of_element helement haction
    · nomatch hasChoice

end Sound

end Screen

/-! ### Books -/

structure Book.Sound (b : Book) : Prop where
  start : b.contains b.start = true
  screen : ∀ id screen, b.screen? id = some screen → screen.Sound b

/-- **A book with no issues is sound.** -/
theorem Book.sound_of_issues {b : Book} (h : b.issues = []) : b.Sound := by
  obtain ⟨hstart, hscreens⟩ := List.append_eq_nil_iff.1 h
  constructor
  · unfold startIssues at hstart
    split at hstart
    · assumption
    · nomatch hstart
  · intro id screen hscreen
    exact Screen.sound_of_screenIssues
      (List.flatMap_eq_nil_iff.1 hscreens (id, screen) (Dict.mem_of_find? hscreen))

end Gamebook
