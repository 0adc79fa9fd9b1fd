import Gamebook.Book.Loading
import Gamebook.Proofs.Files.ContentRoot
import Mathlib.Data.List.TakeWhile

/-!
# The format of a book is in its name

A locator is cut into segments, and those that are no step are passed over, to find the
file and its extension.  As text this comes to less: `Path.lastName` drops the slashes at
the end, each with a lone point after it if there is one, and takes what stands after the
last slash that is left.  The two agree (`Path.fileName?_eq`), the extension is what
follows the last point of that name (`Path.extensionOf?_eq_some_iff`), and so the format
is told by the last name alone (`format_follows_extension`).
-/

namespace Gamebook

namespace Path

/-! ### The last name of a path -/

/-- What is left of a path that is read backwards from its end, once it comes to a name. -/
def backToName : List Char → List Char
  | '/' :: before => backToName before
  | '.' :: '/' :: before => backToName before
  | before => before

/-- The text after the last slash, those at the end dropped together with lone points. -/
def lastName (path : String) : String :=
  String.ofList ((backToName path.toList.reverse).takeWhile (· ≠ '/')).reverse

theorem lastName_append_slash (path : String) : lastName (path ++ "/") = lastName path := by
  have hback : (path ++ "/").toList.reverse = '/' :: path.toList.reverse := by simp
  rw [lastName, hback, backToName, lastName]

theorem lastName_append_slash_point (path : String) : lastName (path ++ "/.") = lastName path := by
  have hback : (path ++ "/.").toList.reverse = '.' :: '/' :: path.toList.reverse := by simp
  rw [lastName, hback, backToName, lastName]

theorem backToName_eq_self {cs : List Char} (hslash : ∀ before, cs ≠ '/' :: before)
    (hpoint : ∀ before, cs ≠ '.' :: '/' :: before) : backToName cs = cs := by
  rw [backToName]
  · exact hslash
  · exact hpoint

theorem takeWhile_append_cons (x : Char) (cs rest : List Char) :
    (cs ++ x :: rest).takeWhile (· ≠ x) = cs.takeWhile (· ≠ x) := by
  induction cs with
  | nil => simp
  | cons c cs ih =>
    by_cases hc : c = x
    · simp [hc]
    · simpa [hc] using ih

/-- Where a path comes to a name of its own, what stands before it is not looked at. -/
theorem backToName_append {cs : List Char} (hempty : backToName cs ≠ [])
    (hpoint : backToName cs ≠ ['.']) (before : List Char) :
    backToName (cs ++ '/' :: before) = backToName cs ++ '/' :: before := by
  induction cs using backToName.induct with
  | case1 cs ih =>
    rw [backToName] at hempty hpoint ⊢
    exact ih hempty hpoint
  | case2 cs ih =>
    rw [backToName] at hempty hpoint ⊢
    exact ih hempty hpoint
  | case3 cs hslash hdots =>
    rw [backToName_eq_self hslash hdots] at hempty hpoint ⊢
    apply backToName_eq_self
    · intro rest hrest
      cases cs with
      | nil => exact hempty rfl
      | cons c cs => exact hslash cs (by rw [(List.cons.inj hrest).1])
    · intro rest hrest
      match cs with
      | [] => exact hempty rfl
      | [c] => exact hpoint (by rw [(List.cons.inj hrest).1])
      | c :: d :: cs =>
        have hd := (List.cons.inj (List.cons.inj hrest).2).1
        exact hdots cs (by rw [(List.cons.inj hrest).1, hd])

/-! ### The last step of a path -/

theorem segments_of_notMem {name : String} (h : '/' ∉ name.toList) : segments name = [name] := by
  have hlist (cs : List Char) (hcs : '/' ∉ cs) : splitList cs = [cs] := by
    induction cs with
    | nil => rfl
    | cons c cs ih =>
      rw [List.mem_cons, not_or] at hcs
      rw [splitList, if_neg (Ne.symm hcs.1), ih hcs.2]
  rw [segments, hlist name.toList h, List.map_singleton, String.ofList_toList]

theorem fileName?_append_idle (path : String) {segment : String} (h : '/' ∉ segment.toList)
    (hidle : isIdle segment = true) : fileName? (path ++ "/" ++ segment) = fileName? path := by
  unfold fileName?
  rw [segments_append_slash, segments_of_notMem h, List.filter_append]
  simp [hidle]

theorem fileName?_append_name {segments' : List String} {path name : String}
    (h : segments path = segments' ++ [name]) (hname : isIdle name = false) :
    fileName? path = if name = ".." then none else some name := by
  unfold fileName?
  have hsteps : [name].filter (fun s => !isIdle s) = [name] := by simp [hname]
  rw [h, List.filter_append, hsteps, List.getLast?_concat]
  by_cases hup : name = ".."
  · rw [if_pos hup, Option.filter, hup]
    rfl
  · rw [if_neg hup, Option.filter, if_pos (decide_eq_true hup)]

/-- Whether a last name is the name of a file: it is there, and neither a lone point nor a climb. -/
def IsFile (name : String) : Prop := name ≠ "" ∧ name ≠ "." ∧ name ≠ ".."

theorem isIdle_eq_true_iff {segment : String} :
    isIdle segment = true ↔ segment = "" ∨ segment = "." := by
  simp [isIdle]

/-- What stands before the first character of a sort, and that it stands before one or is all. -/
theorem takeWhile_ne (x : Char) (cs : List Char) :
    x ∉ cs.takeWhile (· ≠ x) ∧
      (cs.takeWhile (· ≠ x) = cs ∨ ∃ rest, cs.takeWhile (· ≠ x) ++ x :: rest = cs) := by
  induction cs with
  | nil => simp
  | cons c cs ih =>
    by_cases hc : c = x
    · simp [hc]
    · obtain ⟨hnot, hsplit⟩ := ih
      have hcons : (c :: cs).takeWhile (· ≠ x) = c :: cs.takeWhile (· ≠ x) := by simp [hc]
      rw [hcons, List.mem_cons, not_or]
      refine ⟨⟨Ne.symm hc, hnot⟩, ?_⟩
      rcases hsplit with hall | ⟨rest, hrest⟩
      · exact Or.inl (congrArg (c :: ·) hall)
      · exact Or.inr ⟨rest, congrArg (c :: ·) hrest⟩

/-- The last segment is what stands after the last slash. -/
theorem exists_segments_eq (cs : List Char) :
    ∃ front, segments (String.ofList cs.reverse) =
      front ++ [String.ofList (cs.takeWhile (· ≠ '/')).reverse] := by
  obtain ⟨hname, hsplit⟩ := takeWhile_ne '/' cs
  generalize cs.takeWhile (· ≠ '/') = last at hname hsplit ⊢
  have hlast : segments (String.ofList last.reverse) = [String.ofList last.reverse] :=
    segments_of_notMem (by rwa [String.toList_ofList, List.mem_reverse])
  rcases hsplit with rfl | ⟨before, rfl⟩
  · exact ⟨[], hlast⟩
  · have hpath : String.ofList (last ++ '/' :: before).reverse =
        String.ofList before.reverse ++ "/" ++ String.ofList last.reverse := by
      rw [← String.toList_inj]
      simp
    exact ⟨segments (String.ofList before.reverse), by rw [hpath, segments_append_slash, hlast]⟩

/-- Where neither a slash nor a lone point stands, no name is idle but that of an idle path. -/
theorem eq_of_takeWhile_idle {cs : List Char} (hslash : ∀ before, cs ≠ '/' :: before)
    (hpoint : ∀ before, cs ≠ '.' :: '/' :: before)
    (h : cs.takeWhile (· ≠ '/') = [] ∨ cs.takeWhile (· ≠ '/') = ['.']) : cs = [] ∨ cs = ['.'] := by
  match cs with
  | [] => exact Or.inl rfl
  | c :: rest =>
    have hc : c ≠ '/' := by
      rintro rfl
      exact hslash rest rfl
    have hname : c :: rest.takeWhile (· ≠ '/') = ['.'] := by simpa [hc] using h
    obtain ⟨rfl, hrest⟩ := List.cons.inj hname
    match rest with
    | [] => exact Or.inr rfl
    | d :: rest =>
      have hd : d ≠ '/' := by
        rintro rfl
        exact hpoint rest rfl
      simp [hd] at hrest

theorem fileName?_ofList_reverse (cs : List Char) (name : String) :
    fileName? (String.ofList cs.reverse) = some name ↔
      String.ofList ((backToName cs).takeWhile (· ≠ '/')).reverse = name ∧ IsFile name := by
  induction cs using backToName.induct with
  | case1 before ih =>
    have hpath : String.ofList ('/' :: before).reverse =
        String.ofList before.reverse ++ "/" ++ "" := by
      rw [← String.toList_inj]
      simp
    rw [hpath, fileName?_append_idle _ (by simp) rfl, ih, backToName]
  | case2 before ih =>
    have hpath : String.ofList ('.' :: '/' :: before).reverse =
        String.ofList before.reverse ++ "/" ++ "." := by
      rw [← String.toList_inj]
      simp
    rw [hpath, fileName?_append_idle _ (by decide) rfl, ih, backToName]
  | case3 cs hslash hpoint =>
    obtain ⟨front, hsegments⟩ := exists_segments_eq cs
    rw [backToName_eq_self hslash hpoint]
    cases hidle : isIdle (String.ofList (cs.takeWhile (· ≠ '/')).reverse) with
    | false =>
      rw [fileName?_append_name hsegments hidle]
      generalize String.ofList (cs.takeWhile (· ≠ '/')).reverse = last at hidle ⊢
      have hnot : ¬(last = "" ∨ last = ".") := by
        rw [← isIdle_eq_true_iff, hidle]
        exact Bool.false_ne_true
      rw [not_or] at hnot
      by_cases hup : last = ".."
      · rw [if_pos hup]
        refine iff_of_false nofun ?_
        rintro ⟨rfl, hfile⟩
        exact hfile.2.2 hup
      · rw [if_neg hup, Option.some.injEq]
        constructor
        · rintro rfl
          exact ⟨rfl, hnot.1, hnot.2, hup⟩
        · exact And.left
    | true =>
      have hlast := isIdle_eq_true_iff.1 hidle
      have hcs : cs = [] ∨ cs = ['.'] := by
        refine eq_of_takeWhile_idle hslash hpoint (hlast.imp (fun h => ?_) fun h => ?_)
        · simpa using congrArg String.toList h
        · have hlist := congrArg String.toList h
          rw [String.toList_ofList] at hlist
          rw [← List.reverse_reverse (cs.takeWhile _), hlist]
          rfl
      have hnone : fileName? (String.ofList cs.reverse) = none := by
        rcases hcs with rfl | rfl
        · decide +kernel
        · decide +kernel
      rw [hnone]
      refine iff_of_false nofun ?_
      rintro ⟨rfl, hempty, hlone, -⟩
      rcases hlast with h | h
      · exact hempty h
      · exact hlone h

/-- **The file of a path is its last name**, if that names one. -/
theorem fileName?_eq_some_iff {path name : String} :
    fileName? path = some name ↔ lastName path = name ∧ IsFile name := by
  have hpath := fileName?_ofList_reverse path.toList.reverse name
  rwa [List.reverse_reverse, String.ofList_toList] at hpath

/-! ### The extension of a name -/

/-- **The extension follows the last point of a name**, and something stands before that point. -/
theorem extensionOf?_eq_some_iff {name ext : List Char} :
    extensionOf? name = some ext ↔ ∃ stem, name = stem ++ '.' :: ext ∧ stem ≠ [] ∧ '.' ∉ ext := by
  unfold extensionOf?
  dsimp only
  constructor
  · intro h
    obtain ⟨hnot, hsplit⟩ := takeWhile_ne '.' name.reverse
    generalize name.reverse.takeWhile (· ≠ '.') = last at hnot hsplit h
    obtain ⟨hlong, hext⟩ := Option.ite_none_right_eq_some.1 h
    obtain rfl := Option.some.inj hext
    rcases hsplit with hall | ⟨before, hbefore⟩
    · have hlength := congrArg List.length hall
      rw [List.length_reverse] at hlength
      omega
    · have hname : name = before.reverse ++ '.' :: last.reverse := by
        rw [← List.reverse_reverse name, ← hbefore]
        simp
      refine ⟨before.reverse, hname, ?_, ?_⟩
      · intro hnil
        rw [hname, hnil] at hlong
        simp at hlong
      · rwa [List.mem_reverse]
  · rintro ⟨stem, rfl, hstem, hext⟩
    have hback : (stem ++ '.' :: ext).reverse = ext.reverse ++ '.' :: stem.reverse := by simp
    have hlast : (stem ++ '.' :: ext).reverse.takeWhile (· ≠ '.') = ext.reverse := by
      rw [hback, takeWhile_append_cons]
      refine List.takeWhile_eq_self_iff.2 fun c hc => ?_
      rw [List.mem_reverse] at hc
      exact decide_eq_true fun h => hext (h ▸ hc)
    have hlong : 1 < (stem ++ '.' :: ext).length - ext.reverse.length := by
      have hpos := List.length_pos_iff.2 hstem
      simp only [List.length_append, List.length_cons, List.length_reverse]
      omega
    rw [hlast, if_pos hlong, List.reverse_reverse]

theorem extension?_eq_some_iff {path ext : String} :
    extension? path = some ext ↔ lastName path ≠ ".." ∧
      ∃ stem, lastName path = stem ++ "." ++ ext ∧ stem ≠ "" ∧ '.' ∉ ext.toList := by
  have hread : extension? path = some ext ↔
      ∃ name, fileName? path = some name ∧ extensionOf? name.toList = some ext.toList := by
    simp only [extension?, Option.bind_eq_bind, Option.bind_eq_some_iff, Option.pure_def,
      Option.some.injEq, ← String.toList_inj, String.toList_ofList]
    simp
  rw [hread]
  constructor
  · rintro ⟨name, hname, hext⟩
    obtain ⟨rfl, -, -, hup⟩ := fileName?_eq_some_iff.1 hname
    obtain ⟨stem, hstem, hne, hpoint⟩ := extensionOf?_eq_some_iff.1 hext
    refine ⟨hup, String.ofList stem, ?_, ?_, hpoint⟩
    · rw [← String.toList_inj]
      simp [hstem]
    · simpa using hne
  · rintro ⟨hup, stem, hstem, hne, hpoint⟩
    have hlist : (lastName path).toList = stem.toList ++ '.' :: ext.toList := by simp [hstem]
    have hstem' : stem.toList ≠ [] := by simpa using hne
    refine ⟨lastName path, fileName?_eq_some_iff.2 ⟨rfl, ?_, ?_, hup⟩,
      extensionOf?_eq_some_iff.2 ⟨stem.toList, hlist, hstem', hpoint⟩⟩
    · intro hempty
      simp [hempty] at hlist
    · intro hlone
      have hlength := congrArg List.length hlist
      have hpos := List.length_pos_iff.2 hstem'
      simp [hlone] at hlength
      omega

theorem lastName_append {path : String} (hempty : lastName path ≠ "") (hpoint : lastName path ≠ ".")
    (directory : String) : lastName (directory ++ "/" ++ path) = lastName path := by
  have hback : (directory ++ "/" ++ path).toList.reverse =
      path.toList.reverse ++ '/' :: directory.toList.reverse := by simp
  have hleft : backToName path.toList.reverse ≠ [] := by
    intro h
    exact hempty (by rw [lastName, h]; rfl)
  have hmore : backToName path.toList.reverse ≠ ['.'] := by
    intro h
    exact hpoint (by rw [lastName, h]; rfl)
  rw [lastName, hback, backToName_append hleft hmore, takeWhile_append_cons, lastName]

/-! ### The case of letters -/

theorem toNat_toLower (c : Char) :
    c.toLower.toNat = if 65 ≤ c.toNat ∧ c.toNat ≤ 90 then c.toNat + 32 else c.toNat := by
  unfold Char.toLower
  by_cases hupper : 'A'.val ≤ c.val ∧ c.val ≤ 'Z'.val
  · have hrange : 65 ≤ c.toNat ∧ c.toNat ≤ 90 := hupper
    rw [dif_pos hupper, if_pos hrange]
    change (c.val + 32).toNat = c.toNat + 32
    rw [UInt32.toNat_add]
    change (c.toNat + 32) % 2 ^ 32 = c.toNat + 32
    omega
  · have hrange : ¬(65 ≤ c.toNat ∧ c.toNat ≤ 90) := hupper
    rw [dif_neg hupper, if_neg hrange]

theorem toLower_eq_iff {c x : Char} (hx : x.toNat < 65) : c.toLower = x ↔ c = x := by
  have hlower := toNat_toLower c
  constructor
  · rintro rfl
    apply Char.toNat_inj.1
    split at hlower
    · omega
    · exact hlower.symm
  · rintro rfl
    apply Char.toNat_inj.1
    rw [hlower, if_neg (by omega)]

theorem backToName_map_toLower (cs : List Char) :
    backToName (cs.map Char.toLower) = (backToName cs).map Char.toLower := by
  have hslash := fun c : Char => toLower_eq_iff (c := c) (x := '/') (by decide)
  have hpoint := fun c : Char => toLower_eq_iff (c := c) (x := '.') (by decide)
  induction cs using backToName.induct with
  | case1 before ih =>
    rw [List.map_cons, (hslash '/').2 rfl, backToName, backToName, ih]
  | case2 before ih =>
    rw [List.map_cons, List.map_cons, (hpoint '.').2 rfl, (hslash '/').2 rfl, backToName,
      backToName, ih]
  | case3 cs hno hlone =>
    rw [backToName_eq_self hno hlone]
    apply backToName_eq_self
    · intro before hcons
      obtain ⟨c, rest, rfl, hc, -⟩ := List.map_eq_cons_iff.1 hcons
      exact hno rest (by rw [(hslash c).1 hc])
    · intro before hcons
      obtain ⟨c, rest, rfl, hc, hrest⟩ := List.map_eq_cons_iff.1 hcons
      obtain ⟨d, rest, rfl, hd, -⟩ := List.map_eq_cons_iff.1 hrest
      exact hlone rest (by rw [(hpoint c).1 hc, (hslash d).1 hd])

theorem lastName_map_toLower (path : String) :
    lastName (path.map Char.toLower) = (lastName path).map Char.toLower := by
  have hslash : ((fun c => decide (c ≠ '/')) ∘ Char.toLower) = fun c => decide (c ≠ '/') := by
    funext c
    have hiff := toLower_eq_iff (c := c) (x := '/') (by decide)
    exact decide_eq_decide.2 (not_congr hiff)
  rw [← String.toList_inj, lastName, lastName, String.toList_map, String.toList_map,
    String.toList_ofList, String.toList_ofList, ← List.map_reverse, backToName_map_toLower,
    List.takeWhile_map, hslash, List.map_reverse]

end Path

/-! ### The format of a book -/

/-- Whether two texts are the same but for the case of ASCII letters. -/
def SameLetters (s t : String) : Prop := s.map Char.toLower = t.map Char.toLower

instance (s t : String) : Decidable (SameLetters s t) :=
  inferInstanceAs (Decidable (s.map Char.toLower = t.map Char.toLower))

namespace BookFormat

/-- Whether a name is that of a YAML document: its extension says so, and something stands before
the point of the extension. -/
def NamesYaml (name : String) : Prop :=
  name ≠ ".." ∧ ∃ stem ext, name = stem ++ "." ++ ext ∧ stem ≠ "" ∧ '.' ∉ ext.toList ∧
    (SameLetters ext "yaml" ∨ SameLetters ext "yml")

theorem sameLetters_yaml_iff (ext : String) :
    SameLetters ext "yaml" ∨ SameLetters ext "yml" ↔
      ext.map Char.toLower = "yaml" ∨ ext.map Char.toLower = "yml" := by
  have hyaml : "yaml".map Char.toLower = "yaml" := by decide +kernel
  have hyml : "yml".map Char.toLower = "yml" := by decide +kernel
  rw [SameLetters, SameLetters, hyaml, hyml]

/-- **The last name of a locator tells the format.** -/
theorem ofLocator_eq_yaml_iff (locator : String) :
    ofLocator locator = .yaml ↔ NamesYaml (Path.lastName locator) := by
  have hnames : NamesYaml (Path.lastName locator) ↔ ∃ ext, Path.extension? locator = some ext ∧
      (ext.map Char.toLower = "yaml" ∨ ext.map Char.toLower = "yml") := by
    constructor
    · rintro ⟨hup, stem, ext, hname, hstem, hpoint, hext⟩
      exact ⟨ext, Path.extension?_eq_some_iff.2 ⟨hup, stem, hname, hstem, hpoint⟩,
        (sameLetters_yaml_iff ext).1 hext⟩
    · rintro ⟨ext, hread, hext⟩
      obtain ⟨hup, stem, hname, hstem, hpoint⟩ := Path.extension?_eq_some_iff.1 hread
      exact ⟨hup, stem, ext, hname, hstem, hpoint, (sameLetters_yaml_iff ext).2 hext⟩
  rw [hnames, ofLocator]
  cases Path.extension? locator with
  | none => simp
  | some ext =>
    simp only [Bool.or_eq_true, decide_eq_true_eq, Option.some.injEq, exists_eq_left']
    split
    · exact iff_of_true rfl ‹_›
    · exact iff_of_false nofun ‹_›

theorem exists_parts_of_map_toLower {name stem ext : String}
    (h : name.map Char.toLower = stem ++ "." ++ ext) (hstem : stem ≠ "") (hext : '.' ∉ ext.toList) :
    ∃ stem' ext', name = stem' ++ "." ++ ext' ∧ stem' ≠ "" ∧ '.' ∉ ext'.toList ∧
      ext'.map Char.toLower = ext := by
  have hlist : name.toList.map Char.toLower = stem.toList ++ '.' :: ext.toList := by
    rw [← String.toList_map, h]
    simp
  obtain ⟨first, last, hname, hfirst, hlast⟩ := List.map_eq_append_iff.1 hlist
  obtain ⟨c, rest, rfl, hc, hrest⟩ := List.map_eq_cons_iff.1 hlast
  obtain rfl := (Path.toLower_eq_iff (by decide)).1 hc
  refine ⟨String.ofList first, String.ofList rest, ?_, ?_, ?_, ?_⟩
  · rw [← String.toList_inj]
    simp [hname]
  · intro hempty
    have hnil : first = [] := by simpa using hempty
    rw [hnil] at hfirst
    exact hstem (by simpa using hfirst.symm)
  · rw [String.toList_ofList]
    intro hmem
    have hlower := List.mem_map_of_mem (f := Char.toLower) hmem
    rw [hrest, (Path.toLower_eq_iff (by decide)).2 rfl] at hlower
    exact hext hlower
  · rw [← String.toList_inj, String.toList_map, String.toList_ofList, hrest]

theorem namesYaml_of_map_toLower {name other : String}
    (h : name.map Char.toLower = other.map Char.toLower) (hname : NamesYaml name) :
    NamesYaml other := by
  obtain ⟨hup, stem, ext, rfl, hstem, hpoint, hext⟩ := hname
  have hmap : other.map Char.toLower =
      stem.map Char.toLower ++ "." ++ ext.map Char.toLower := by
    rw [← h, ← String.toList_inj]
    simp [(Path.toLower_eq_iff (x := '.') (by decide)).2 rfl]
  have hstem' : stem.map Char.toLower ≠ "" := by
    intro hempty
    have hlist := congrArg String.toList hempty
    exact hstem (by simpa using hlist)
  have hpoint' : '.' ∉ (ext.map Char.toLower).toList := by
    rw [String.toList_map, List.mem_map]
    rintro ⟨c, hc, hlower⟩
    rw [(Path.toLower_eq_iff (by decide)).1 hlower] at hc
    exact hpoint hc
  obtain ⟨stem', ext', rfl, hne, hnot, hsame⟩ :=
    exists_parts_of_map_toLower hmap hstem' hpoint'
  have hext' : SameLetters ext' "yaml" ∨ SameLetters ext' "yml" := by
    rwa [SameLetters, SameLetters, hsame]
  refine ⟨?_, stem', ext', rfl, hne, hnot, hext'⟩
  intro hdots
  have hempty : ext'.toList = [] := by
    have hpos := List.length_pos_iff.2 (by simpa using hne : stem'.toList ≠ [])
    have hlength := congrArg (List.length ∘ String.toList) hdots
    simp only [Function.comp_apply, String.toList_append, List.length_append] at hlength
    change stem'.toList.length + 1 + ext'.toList.length = 2 at hlength
    exact List.length_eq_zero_iff.1 (by omega)
  rw [String.toList_eq_nil_iff] at hempty
  subst hempty
  exact absurd hext' (by decide +kernel)

theorem ofLocator_congr {locator other : String}
    (h : NamesYaml (Path.lastName locator) ↔ NamesYaml (Path.lastName other)) :
    ofLocator locator = ofLocator other := by
  rw [← ofLocator_eq_yaml_iff, ← ofLocator_eq_yaml_iff] at h
  cases hother : ofLocator other with
  | yaml => exact h.2 hother
  | json =>
    cases hlocator : ofLocator locator with
    | json => rfl
    | yaml => exact hother.symm.trans (h.1 hlocator) |>.symm

theorem ofLocator_append_slash (locator : String) :
    ofLocator (locator ++ "/") = ofLocator locator :=
  ofLocator_congr (by rw [Path.lastName_append_slash])

theorem ofLocator_append_slashes (locator : String) (n : Nat) :
    ofLocator (locator ++ String.ofList (List.replicate n '/')) = ofLocator locator := by
  induction n with
  | zero => exact congrArg ofLocator String.append_empty
  | succ n ih =>
    have hlast : String.ofList (List.replicate (n + 1) '/') =
        String.ofList (List.replicate n '/') ++ "/" := by
      rw [← String.toList_inj]
      simp [List.replicate_succ']
    rw [hlast, ← String.append_assoc, ofLocator_append_slash, ih]

/-- **The format of a book is in the last name of its locator**, and there in the extension: it is
YAML if that is one of YAML's, in letters of either case, and JSON for any other name.  Neither the
directories in front of a name, nor the case of letters, nor slashes at the end change it. -/
theorem format_follows_extension (locator : String) :
    (ofLocator locator = .yaml ↔ NamesYaml (Path.lastName locator)) ∧
      (ofLocator locator = .json ↔ ¬NamesYaml (Path.lastName locator)) ∧
      (Path.lastName locator ≠ "" → Path.lastName locator ≠ "." → ∀ directory,
        ofLocator (directory ++ "/" ++ locator) = ofLocator locator) ∧
      (∀ other, SameLetters locator other → ofLocator other = ofLocator locator) ∧
      (∀ n, ofLocator (locator ++ String.ofList (List.replicate n '/')) = ofLocator locator) ∧
      ofLocator (locator ++ "/.") = ofLocator locator := by
  have hyaml := ofLocator_eq_yaml_iff locator
  refine ⟨hyaml, ?json, ?directories, ?letters, ofLocator_append_slashes locator, ?point⟩
  case json =>
    rw [← hyaml]
    cases ofLocator locator with
    | json => exact iff_of_true rfl nofun
    | yaml => exact iff_of_false nofun (not_not_intro rfl)
  case directories =>
    intro hempty hpoint directory
    exact ofLocator_congr (by rw [Path.lastName_append hempty hpoint])
  case letters =>
    intro other hsame
    have hnames : (Path.lastName other).map Char.toLower =
        (Path.lastName locator).map Char.toLower := by
      rw [← Path.lastName_map_toLower, ← Path.lastName_map_toLower, hsame]
    exact ofLocator_congr ⟨namesYaml_of_map_toLower hnames, namesYaml_of_map_toLower hnames.symm⟩
  case point => exact ofLocator_congr (by rw [Path.lastName_append_slash_point])

/-- A name in capitals is one of YAML's, also below a directory that looks like JSON. -/
theorem format_in_capitals :
    ofLocator "HALL.YML" = .yaml ∧ ofLocator ("old.json" ++ "/" ++ "HALL.YML") = .yaml ∧
      ofLocator "hall.yml" = .yaml := by
  have hname : Path.lastName "HALL.YML" = "HALL.YML" := by
    simp [Path.lastName, Path.backToName]
  have hext : SameLetters "YML" "yml" := by simp [SameLetters, ← String.toList_inj]
  have hnames : NamesYaml "HALL.YML" :=
    ⟨by decide, "HALL", "YML", by simp, by decide, by decide, Or.inr hext⟩
  have hsame : SameLetters "HALL.YML" "hall.yml" := by simp [SameLetters, ← String.toList_inj]
  obtain ⟨hyaml, -, hdirectory, hletters, -⟩ := format_follows_extension "HALL.YML"
  rw [hname] at hyaml hdirectory
  have hformat := hyaml.2 hnames
  refine ⟨hformat, ?_, ?_⟩
  · exact (hdirectory (by decide) (by decide) "old.json").trans hformat
  · exact (hletters "hall.yml" hsame).trans hformat

end BookFormat

end Gamebook
