import Gamebook.Proofs.Files.ContentRoot

/-!
# References stay under the root

A path that is looked at as text alone leads on by its names and back by what climbs
(`Path.resolved`).  A reference is refused exactly if it is absolute or climbs; any other
one, put behind a root, leads from wherever the root leads on by its own names
(`Path.resolved_join`), whether the root ends in a slash, climbs itself or is empty.
Books and pictures are looked for in the same way (`references_stay_under_root`).
-/

namespace Gamebook

namespace Path

/-! ### Components -/

/-- What a path is made of: a leading slash, a leading point, climbs and names. -/
inductive Component where
  | root
  | here
  | up
  | name (s : String)
deriving DecidableEq

/-- The component of a segment; an idle one has none. -/
def component? (segment : String) : Option Component :=
  if isIdle segment then none
  else if segment = ".." then some .up
  else some (.name segment)

/-- The components of a path. A lone point is one only where the path begins. -/
def components (path : String) : List Component :=
  (if isAbsolute path then [.root]
    else if (segments path).head? = some "." then [.here] else []) ++
    (segments path).filterMap component?

theorem component?_eq_up_iff {segment : String} :
    component? segment = some .up ↔ segment = ".." := by
  unfold component?
  split <;> rename_i hidle
  · refine iff_of_false nofun ?_
    rintro rfl
    exact absurd hidle (by decide)
  · split <;> rename_i hup
    · exact iff_of_true rfl hup
    · exact iff_of_false nofun hup

theorem component?_ne_root (segment : String) : component? segment ≠ some .root := by
  unfold component?
  split
  · nofun
  · split <;> nofun

theorem mem_components_iff (path : String) :
    (.root ∈ components path ↔ isAbsolute path = true) ∧
      (.up ∈ components path ↔ ".." ∈ segments path) := by
  have hroot : .root ∉ (segments path).filterMap component? := fun hmem => by
    obtain ⟨segment, _, hsegment⟩ := List.mem_filterMap.1 hmem
    exact component?_ne_root segment hsegment
  have hup : .up ∈ (segments path).filterMap component? ↔ ".." ∈ segments path := by
    simp only [List.mem_filterMap, component?_eq_up_iff, exists_eq_right]
  unfold components
  simp only [List.mem_append, hroot, hup, or_false]
  split
  · simp [*]
  · split <;> simp [*]

/-! ### Lexical resolution -/

/-- Goes back over the last of the names passed. Where there is none, the climb itself is kept. -/
def climb : List String → List String
  | [] => [".."]
  | last :: before => if last = ".." then ".." :: last :: before else before

/-- The names passed on the way after one more segment, the last of them first. -/
def follow (passed : List String) (segment : String) : List String :=
  if isIdle segment then passed
  else if segment = ".." then climb passed
  else segment :: passed

/-- The names that a path leads through, by its text alone. -/
def resolved (path : String) : List String := ((segments path).foldl follow []).reverse

/-- The segments of a path that are not idle. -/
def steps (path : String) : List String := (segments path).filter fun s => !isIdle s

theorem foldl_follow {path : List String} (h : ".." ∉ path) (passed : List String) :
    path.foldl follow passed = (path.filter fun s => !isIdle s).reverse ++ passed := by
  induction path generalizing passed with
  | nil => rfl
  | cons segment path ih =>
    obtain ⟨hsegment, hpath⟩ := not_or.1 (mt List.mem_cons.2 h)
    rw [List.foldl_cons, ih hpath, follow]
    cases hidle : isIdle segment with
    | true => simp [hidle]
    | false => simp [hidle, Ne.symm hsegment]

theorem foldl_follow_concat_empty (path : List String) :
    (path ++ [""]).foldl follow [] = path.foldl follow [] := by
  rw [List.foldl_append, List.foldl_cons, List.foldl_nil]
  rfl

/-- **A reference that does not climb leads on from the root** by its own names. -/
theorem resolved_join {reference : String} (h : ".." ∉ segments reference) (root : String) :
    resolved (join root reference) = resolved root ++ steps reference := by
  have hfollow : (segments (join root reference)).foldl follow [] =
      (segments reference).foldl follow ((segments root).foldl follow []) := by
    rcases segments_join root reference with hjoin | ⟨first, hroot, hjoin⟩
    · rw [hjoin, List.foldl_append]
    · rw [hjoin, hroot, foldl_follow_concat_empty, List.foldl_append]
  rw [resolved, hfollow, foldl_follow h, List.reverse_append, List.reverse_reverse]
  rfl

theorem climb_notMem_steps {reference : String} (h : ".." ∉ segments reference) :
    ".." ∉ steps reference :=
  fun hmem => h (List.mem_filter.1 hmem).1

theorem isAbsolute_join {reference : String} (h : isAbsolute reference = false) (root : String) :
    isAbsolute (join root reference) = isAbsolute root := by
  by_cases hroot : root = ""
  · subst hroot
    have hjoin : join "" reference = reference := by simp [join]
    rw [hjoin, h]
    rfl
  · obtain ⟨c, cs, hcs⟩ := List.exists_cons_of_ne_nil (mt String.toList_eq_nil_iff.1 hroot)
    unfold isAbsolute join
    split <;> simp [hcs]

/-! ### References under a root -/

theorem under?_eq_none_iff (root reference : String) :
    under? root reference = none ↔ isAbsolute reference = true ∨ ".." ∈ segments reference := by
  rw [under?, ite_eq_right_iff, isContained_iff]
  simp only [reduceCtorEq, imp_false, Classical.not_not]

theorem under?_eq_some {root reference path : String} (h : under? root reference = some path) :
    path = join root reference ∧ isAbsolute reference = false ∧ ".." ∉ segments reference := by
  obtain ⟨hcontained, hpath⟩ := Option.ite_none_right_eq_some.1 h
  obtain ⟨hrelative, hclimbs⟩ := not_or.1 ((isContained_iff reference).1 hcontained)
  exact ⟨(Option.some.inj hpath).symm, Bool.eq_false_iff.2 hrelative, hclimbs⟩

end Path

theorem shelfPath_eq_ok_iff {root locator path : String} :
    shelfPath root locator = .ok path ↔ Path.under? root locator = some path := by
  unfold shelfPath
  cases Path.under? root locator <;> simp

theorem shelfPath_eq_error_iff {root locator : String} {e : LoadError} :
    shelfPath root locator = .error e ↔ Path.under? root locator = none ∧ e = refusal locator := by
  unfold shelfPath
  cases Path.under? root locator <;> simp [refusal, eq_comm]

/-- **References stay under the root, and none that does is refused.**  A reference is refused just
when it begins with a slash or has a segment that climbs, which is when its components tell so.  Any
other is put behind the root, and then leads from where the root leads on by its own names, so that
it never goes back behind the root.  Books and pictures are looked for at this path; where there is
none, a book is refused for its locator, and a picture is not looked for. -/
theorem references_stay_under_root (root reference : String) :
    (Path.under? root reference = none ↔
      Path.isAbsolute reference = true ∨ ".." ∈ Path.segments reference) ∧
    (Path.under? root reference = none ↔
      .root ∈ Path.components reference ∨ .up ∈ Path.components reference) ∧
    (∀ path, Path.under? root reference = some path →
      path = Path.join root reference ∧ Path.isAbsolute path = Path.isAbsolute root ∧
      Path.resolved path = Path.resolved root ++ Path.steps reference ∧
      ".." ∉ Path.steps reference ∧ Path.resolved root <+: Path.resolved path) ∧
    (∀ e, shelfPath root reference = .error e ↔ Path.under? root reference = none ∧
      e = .fetch reference "locator must stay inside the content root") ∧
    (∀ path, shelfPath root reference = .ok path ↔ Path.under? root reference = some path) ∧
    picturePath? root reference = Path.under? root reference := by
  have hrefused := Path.under?_eq_none_iff root reference
  obtain ⟨hroot, hup⟩ := Path.mem_components_iff reference
  refine ⟨hrefused, by rw [hrefused, hroot, hup], fun path hpath => ?_,
    fun _ => shelfPath_eq_error_iff, fun _ => shelfPath_eq_ok_iff, rfl⟩
  obtain ⟨rfl, hrelative, hclimbs⟩ := Path.under?_eq_some hpath
  have hresolved := Path.resolved_join hclimbs root
  refine ⟨rfl, Path.isAbsolute_join hrelative root, hresolved, Path.climb_notMem_steps hclimbs, ?_⟩
  rw [hresolved]
  exact List.prefix_append ..

/-- A root that climbs itself.  Points, doubled slashes and names with points in them do no harm,
while a name that is climbed over again does. -/
theorem references_under_library :
    Path.resolved "content/../../library/./a..b//c/." = ["..", "library", "a..b", "c"] ∧
      shelfPath "content/../../library/" "./a..b//c/." =
        .ok "content/../../library/./a..b//c/." ∧
      picturePath? "content/../../library/" "a/../b" = none := by
  obtain ⟨_, _, hunder, _, hbook, _⟩ :=
    references_stay_under_root "content/../../library/" "./a..b//c/."
  obtain ⟨hrefused, _, _, _, _, hpicture⟩ :=
    references_stay_under_root "content/../../library/" "a/../b"
  have hpath : Path.under? "content/../../library/" "./a..b//c/." =
      some "content/../../library/./a..b//c/." := by
    decide +kernel
  refine ⟨(hunder _ hpath).2.2.1.trans ?_, (hbook _).2 hpath, hpicture.trans (hrefused.2 ?_)⟩
  · decide +kernel
  · exact Or.inr (by decide +kernel)

end Gamebook
