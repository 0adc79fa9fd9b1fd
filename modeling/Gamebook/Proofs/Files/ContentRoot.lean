import Gamebook.Files.Tree

/-!
# A shelf shows nothing but what is on it

What is fetched depends on what stands below the root and on nothing else in the tree
(`fetch_sees_root_only`).  A locator that stays inside has no segment that climbs, and
joined to the root it leads from there by its own segments (`FileTree.walk_join`), so
that two trees alike below the root give the same text (`FileTree.readText_agree`).
Any other locator is refused before the tree is looked at
(`fetchFrom_eq_refusal_iff`).
-/

namespace Gamebook

/-! ### Paths joined -/

namespace Path

theorem splitList_ne_nil (cs : List Char) : splitList cs ≠ [] := by
  cases cs with
  | nil => simp [splitList]
  | cons c cs =>
    unfold splitList
    split
    · simp
    · split <;> simp

theorem splitList_append_slash (cs ds : List Char) :
    splitList (cs ++ '/' :: ds) = splitList cs ++ splitList ds := by
  induction cs with
  | nil => simp [splitList]
  | cons c cs ih =>
    by_cases hc : c = '/'
    · simp [splitList, hc, ih]
    · cases hsegments : splitList cs with
      | nil => exact absurd hsegments (splitList_ne_nil cs)
      | cons segment rest => simp [splitList, hc, ih, hsegments]

theorem segments_append_slash (s t : String) :
    segments (s ++ "/" ++ t) = segments s ++ segments t := by
  have hlist : (s ++ "/" ++ t).toList = s.toList ++ '/' :: t.toList := by simp
  rw [segments, hlist, splitList_append_slash, List.map_append]
  rfl

theorem segments_ne_nil (s : String) : segments s ≠ [] := by
  simp [segments, splitList_ne_nil]

/-- The segments of a joined path are those of its parts, but for an idle one between them. -/
theorem segments_join (root reference : String) :
    segments (join root reference) = segments root ++ segments reference ∨
      ∃ first, segments root = first ++ [""] ∧
        segments (join root reference) = first ++ segments reference := by
  unfold join
  split <;> rename_i hroot
  · refine Or.inr ?_
    rcases (by simpa using hroot : root = "" ∨ root.toList.getLast? = some '/') with rfl | hlast
    · exact ⟨[], rfl, by simp⟩
    · obtain ⟨cs, hcs⟩ := List.getLast?_eq_some_iff.1 hlast
      have hstring : root = String.ofList cs ++ "/" := by
        rw [← String.toList_inj, String.toList_append, String.toList_ofList, hcs]
        rfl
      refine ⟨segments (String.ofList cs), ?_, ?_⟩
      · have hsplit := segments_append_slash (String.ofList cs) ""
        rwa [String.append_empty, ← hstring] at hsplit
      · rw [hstring, segments_append_slash]
  · exact Or.inl (segments_append_slash root reference)

end Path

/-! ### What stands where -/

/-- What can be told of a place in a tree. -/
inductive Standing where
  | file (bytes : List UInt8)
  | directory
deriving DecidableEq

namespace FileTree

/-- What stands at a place below a tree, if anything does. -/
def at? : FileTree → List String → Option Standing
  | file bytes, [] => some (.file bytes)
  | directory _, [] => some .directory
  | file _, _ :: _ => none
  | directory entries, name :: names =>
    match entries.lookup name with
    | some t => t.at? names
    | none => none

/-- What stands at a place below the one that a path names. -/
def below? (t : FileTree) (root : String) (names : List String) : Option Standing :=
  match t.walk [] (Path.segments root) with
  | .ok here => here.at? names
  | .error _ => none

/-- Nothing tells two trees apart. -/
def Alike (t₁ t₂ : FileTree) : Prop := ∀ names, t₁.at? names = t₂.at? names

theorem Alike.cases {t₁ t₂ : FileTree} (h : Alike t₁ t₂) :
    (∃ bytes, t₁ = file bytes ∧ t₂ = file bytes) ∨
      ∃ es₁ es₂, t₁ = directory es₁ ∧ t₂ = directory es₂ ∧
        ∀ name, Option.Rel Alike (es₁.lookup name) (es₂.lookup name) := by
  have htop := h []
  cases t₁ with
  | file bytes =>
    cases t₂ with
    | file bytes' => exact Or.inl ⟨bytes, rfl, by simpa [at?] using htop.symm⟩
    | directory es => simp [at?] at htop
  | directory es₁ =>
    cases t₂ with
    | file bytes => simp [at?] at htop
    | directory es₂ =>
      refine Or.inr ⟨es₁, es₂, rfl, rfl, fun name => ?_⟩
      have hname (names : List String) := h (name :: names)
      simp only [at?] at hname
      cases h₁ : es₁.lookup name with
      | none =>
        cases h₂ : es₂.lookup name with
        | none => exact .none
        | some t => cases t <;> simpa [h₁, h₂, at?] using hname []
      | some t =>
        cases h₂ : es₂.lookup name with
        | none => cases t <;> simpa [h₁, h₂, at?] using hname []
        | some t' => exact .some fun names => by simpa [h₁, h₂] using hname names

/-! ### Walks -/

/-- Where one segment leads, and through which directories. -/
def step (here : FileTree) (above : List FileTree) (s : String) :
    Except FileFault (FileTree × List FileTree) :=
  match here with
  | file _ => .error .notDirectory
  | directory entries =>
    if Path.isIdle s then .ok (here, above)
    else if s = ".." then
      match above with
      | [] => .ok (here, [])
      | up :: above => .ok (up, above)
    else if nameLimit < s.utf8ByteSize then .error .nameTooLong
    else
      match entries.lookup s with
      | none => .error .notFound
      | some t => .ok (t, here :: above)

theorem walk_cons (here : FileTree) (above : List FileTree) (s : String) (rest : List String) :
    here.walk above (s :: rest) =
      match here.step above s with
      | .error fault => .error fault
      | .ok (there, above) => there.walk above rest := by
  cases here with
  | file bytes => rfl
  | directory entries =>
    rw [walk.eq_def, step.eq_def]
    by_cases hidle : Path.isIdle s = true
    · simp only [hidle, if_true]
    by_cases hup : s = ".."
    · subst hup
      cases above <;> simp only [hidle, if_true, if_false, Bool.false_eq_true]
    by_cases hlong : nameLimit < s.utf8ByteSize
    · simp only [hidle, hup, hlong, if_true, if_false, Bool.false_eq_true]
    · simp only [hidle, hup, hlong, if_false, Bool.false_eq_true]
      cases entries.lookup s <;> rfl

theorem walk_append {here there : FileTree} {above : List FileTree} {segments : List String}
    (h : here.walk above segments = .ok there) (rest : List String) :
    ∃ above', here.walk above (segments ++ rest) = there.walk above' rest := by
  induction segments generalizing here above with
  | nil =>
    obtain rfl : here = there := by simpa [walk] using h
    exact ⟨above, rfl⟩
  | cons s segments ih =>
    rw [walk_cons] at h
    rw [List.cons_append, walk_cons]
    cases hstep : here.step above s with
    | error fault => simp [hstep] at h
    | ok next => exact ih (by simpa only [hstep] using h)

theorem walk_empty_segment (here : FileTree) (above : List FileTree) (first : List String)
    {rest : List String} (h : rest ≠ []) :
    here.walk above (first ++ "" :: rest) = here.walk above (first ++ rest) := by
  induction first generalizing here above with
  | nil =>
    cases here with
    | directory entries => rfl
    | file bytes =>
      cases rest with
      | nil => exact absurd rfl h
      | cons next rest => rfl
  | cons s first ih => simp only [List.cons_append, walk_cons, ih]

/-- A path under a root leads where its own segments lead from the root. -/
theorem walk_join {t here : FileTree} {root : String}
    (h : t.walk [] (Path.segments root) = .ok here) (reference : String) :
    ∃ above, t.walk [] (Path.segments (Path.join root reference)) =
      here.walk above (Path.segments reference) := by
  obtain ⟨above, hwalk⟩ := walk_append h (Path.segments reference)
  refine ⟨above, ?_⟩
  rcases Path.segments_join root reference with hjoin | ⟨first, hroot, hjoin⟩
  · rw [hjoin, hwalk]
  · rw [hjoin, ← hwalk, hroot, List.append_assoc]
    exact (walk_empty_segment _ _ first (Path.segments_ne_nil reference)).symm

/-! ### Walks downwards -/

/-- Two outcomes with the same fault, or with results so related. -/
inductive Together {α β : Type} (r : α → β → Prop) :
    Except FileFault α → Except FileFault β → Prop where
  | error (fault : FileFault) : Together r (.error fault) (.error fault)
  | ok {a : α} {b : β} (h : r a b) : Together r (.ok a) (.ok b)

/-- A segment that does not climb leads to trees that are alike, whatever is above. -/
theorem Alike.step {t₁ t₂ : FileTree} (h : Alike t₁ t₂) {s : String} (hs : s ≠ "..")
    (above₁ above₂ : List FileTree) :
    Together (fun p q => Alike p.1 q.1) (t₁.step above₁ s) (t₂.step above₂ s) := by
  rcases h.cases with ⟨bytes, rfl, rfl⟩ | ⟨es₁, es₂, rfl, rfl, hentries⟩
  · exact .error .notDirectory
  · unfold FileTree.step
    by_cases hidle : Path.isIdle s = true
    · simpa only [hidle] using .ok h
    by_cases hlong : nameLimit < s.utf8ByteSize
    · simpa only [hidle, hs, hlong] using .error .nameTooLong
    simp only [hidle, hs, hlong, if_false, Bool.false_eq_true]
    have hentry := hentries s
    cases h₁ : es₁.lookup s <;> cases h₂ : es₂.lookup s <;> rw [h₁, h₂] at hentry
    · exact .error .notFound
    · cases hentry
    · cases hentry
    · cases hentry with
      | some hbelow => exact .ok hbelow

theorem Alike.walk {t₁ t₂ : FileTree} (h : Alike t₁ t₂) {segments : List String}
    (hsegments : ∀ s ∈ segments, s ≠ "..") (above₁ above₂ : List FileTree) :
    Together Alike (t₁.walk above₁ segments) (t₂.walk above₂ segments) := by
  induction segments generalizing t₁ t₂ above₁ above₂ with
  | nil => exact .ok h
  | cons s segments ih =>
    obtain ⟨hs, hrest⟩ := List.forall_mem_cons.1 hsegments
    rw [walk_cons, walk_cons]
    have hstep := h.step hs above₁ above₂
    generalize FileTree.step t₁ above₁ s = next₁ at hstep ⊢
    generalize FileTree.step t₂ above₂ s = next₂ at hstep ⊢
    cases hstep with
    | error fault => exact .error fault
    | ok hnext => exact ih hnext hrest _ _

/-- Roots below which two trees agree are alike, if the one is a directory. -/
theorem roots_alike {t₁ t₂ : FileTree} {root : String}
    (hdirectory : t₁.below? root [] = some .directory)
    (hbelow : ∀ names, t₁.below? root names = t₂.below? root names) :
    ∃ here₁, t₁.walk [] (Path.segments root) = .ok here₁ ∧
      ∃ here₂, t₂.walk [] (Path.segments root) = .ok here₂ ∧ Alike here₁ here₂ := by
  have hdirectory' := hbelow [] ▸ hdirectory
  unfold below? at hdirectory hdirectory' hbelow
  cases h₁ : t₁.walk [] (Path.segments root) with
  | error fault => simp [h₁] at hdirectory
  | ok here₁ =>
    cases h₂ : t₂.walk [] (Path.segments root) with
    | error fault => simp [h₂] at hdirectory'
    | ok here₂ => exact ⟨here₁, rfl, here₂, rfl, fun names => by
      simpa only [h₁, h₂] using hbelow names⟩

theorem readText_agree {t₁ t₂ : FileTree} {root : String}
    (hdirectory : t₁.below? root [] = some .directory)
    (hbelow : ∀ names, t₁.below? root names = t₂.below? root names)
    {reference : String} (hinside : ∀ s ∈ Path.segments reference, s ≠ "..") :
    t₁.readText (Path.join root reference) = t₂.readText (Path.join root reference) := by
  obtain ⟨here₁, h₁, here₂, h₂, halike⟩ := roots_alike hdirectory hbelow
  obtain ⟨above₁, hwalk₁⟩ := walk_join h₁ reference
  obtain ⟨above₂, hwalk₂⟩ := walk_join h₂ reference
  have hfind : Together Alike (t₁.find (Path.join root reference))
      (t₂.find (Path.join root reference)) := by
    unfold find
    split
    · exact .error .nulInName
    split
    · exact .error .notFound
    split
    · exact .error .nameTooLong
    · rw [hwalk₁, hwalk₂]
      exact halike.walk hinside above₁ above₂
  unfold readText
  generalize t₁.find (Path.join root reference) = found₁ at hfind ⊢
  generalize t₂.find (Path.join root reference) = found₂ at hfind ⊢
  cases hfind with
  | error fault => rfl
  | ok h =>
    rcases h.cases with ⟨bytes, rfl, rfl⟩ | ⟨es₁, es₂, rfl, rfl, -⟩
    · rfl
    · rfl

end FileTree

/-! ### Refusals -/

theorem Path.isContained_iff (reference : String) :
    Path.isContained reference = true ↔
      ¬(Path.isAbsolute reference = true ∨ ".." ∈ Path.segments reference) := by
  simp only [Path.isContained, Bool.and_eq_true, Bool.not_eq_true', List.all_eq_true,
    decide_eq_true_eq, not_or, Bool.not_eq_true, and_congr_right_iff]
  exact fun _ => ⟨fun h hmem => h _ hmem rfl, fun h s hs heq => h (heq ▸ hs)⟩

/-- The error for a locator that does not stay inside. -/
def refusal (locator : String) : LoadError :=
  .fetch locator "locator must stay inside the content root"

theorem toLoadError_ne_refusal (locator : String) (fault : FileFault) :
    fault.toLoadError locator ≠ refusal locator := by
  cases fault <;> simp [FileFault.toLoadError, FileFault.message, refusal]

theorem fetchFrom_of_contained {locator : String} (h : Path.isContained locator = true)
    (t : FileTree) (root : String) :
    fetchFrom t root locator =
      (t.readText (Path.join root locator)).mapError (FileFault.toLoadError locator) := by
  simp only [fetchFrom, shelfPath, Path.under?, h, if_true]
  rfl

theorem fetchFrom_of_not_contained {locator : String} (h : ¬Path.isContained locator = true)
    (t : FileTree) (root : String) : fetchFrom t root locator = .error (refusal locator) := by
  simp only [fetchFrom, shelfPath, Path.under?, h, if_false, Bool.false_eq_true]
  rfl

theorem fetchFrom_eq_refusal_iff (t : FileTree) (root locator : String) :
    fetchFrom t root locator = .error (refusal locator) ↔
      Path.isAbsolute locator = true ∨ ".." ∈ Path.segments locator := by
  by_cases hcontained : Path.isContained locator = true
  · refine iff_of_false ?_ ((Path.isContained_iff locator).1 hcontained)
    rw [fetchFrom_of_contained hcontained]
    cases t.readText (Path.join root locator) with
    | error fault => exact fun h => toLoadError_ne_refusal locator fault (Except.error.inj h)
    | ok text => exact fun h => by cases h
  · refine iff_of_true (fetchFrom_of_not_contained hcontained t root) ?_
    exact Classical.not_not.1 fun houtside => hcontained ((Path.isContained_iff locator).2 houtside)

/-- What is fetched is the same from trees that agree below the root, whatever stands
elsewhere, and a locator is refused for its own sake, whatever the tree. -/
theorem fetch_sees_root_only (root locator : String) :
    (∀ t₁ t₂ : FileTree, t₁.below? root [] = some .directory →
      (∀ names, t₁.below? root names = t₂.below? root names) →
      fetchFrom t₁ root locator = fetchFrom t₂ root locator) ∧
    ∀ t : FileTree,
      fetchFrom t root locator =
          .error (.fetch locator "locator must stay inside the content root") ↔
        Path.isAbsolute locator = true ∨ ".." ∈ Path.segments locator := by
  refine ⟨fun t₁ t₂ hdirectory hbelow => ?_, fun t => fetchFrom_eq_refusal_iff t root locator⟩
  by_cases hcontained : Path.isContained locator = true
  · have hclimbs : ∀ s ∈ Path.segments locator, s ≠ ".." := fun s hs heq =>
      (Path.isContained_iff locator).1 hcontained (Or.inr (heq ▸ hs))
    rw [fetchFrom_of_contained hcontained, fetchFrom_of_contained hcontained,
      FileTree.readText_agree hdirectory hbelow hclimbs]
  · rw [fetchFrom_of_not_contained hcontained, fetchFrom_of_not_contained hcontained]

/-- A library whose neighbour holds the given bytes. -/
def libraryBeside (secret : List UInt8) : FileTree :=
  .directory
    [("content", .directory [("books", .directory [("a.json", .file [72, 105])])]),
      ("secret", .file secret)]

theorem library_hides_neighbour :
    fetchFrom (libraryBeside [1]) "content" "books/.//a.json" =
        fetchFrom (libraryBeside [2]) "content" "books/.//a.json" ∧
      (fetchFrom (libraryBeside [1]) "content" "books/.//a.json").toOption = some "Hi" ∧
      fetchFrom (libraryBeside [1]) "content" "books/../../secret" =
        .error (.fetch "books/../../secret" "locator must stay inside the content root") := by
  refine ⟨(fetch_sees_root_only _ _).1 _ _ ?_ fun names => ?_, ?_,
    ((fetch_sees_root_only _ _).2 _).2 (Or.inr ?_)⟩
  · decide +kernel
  · rfl
  · decide +kernel
  · decide +kernel

end Gamebook
