import ShaderComposer.Chain.Validation
import ShaderComposer.Command.FileTree
import Mathlib.Data.List.Basic
import Mathlib.Data.List.TakeWhile

/-!
# Where paths lead

Joining a plain name to a directory adds one piece to the path, so it leads to that
name right inside the place of the directory, whatever the spelling.  In the other
direction the directory of a path leads to the place around the one that the path
leads to, if that is a file.  Paths are followed through directories only, and so
whatever leaves the directories of a tree in place leaves the way through them.
-/

namespace ShaderComposer

/-! ## Pieces of paths -/

namespace Path

theorem split_ne_nil (text : List Char) : split text ≠ [] := by
  cases text with
  | nil =>
      simp [split]
  | cons c rest =>
      simp only [split]
      split
      · simp
      · split <;> simp

theorem split_append_slash (first rest : List Char) :
    split (first ++ '/' :: rest) = split first ++ split rest := by
  induction first with
  | nil =>
      simp [split]
  | cons c first ih =>
      by_cases hslash : c = '/'
      · simp [split, hslash, ih]
      · simp only [List.cons_append, split, hslash, if_false, ih]
        cases hpieces : split first with
        | nil =>
            exact absurd hpieces (split_ne_nil first)
        | cons piece more =>
            rfl

theorem split_of_no_slash {text : List Char} (hslash : '/' ∉ text) : split text = [text] := by
  induction text with
  | nil =>
      rfl
  | cons c rest ih =>
      simp only [List.mem_cons, not_or] at hslash
      simp [split, Ne.symm hslash.1, ih hslash.2]

theorem no_slash_of_mem_split
    {text piece : List Char} (hpiece : piece ∈ split text) : '/' ∉ piece := by
  induction text generalizing piece with
  | nil =>
      simp_all [split]
  | cons c rest ih =>
      by_cases hslash : c = '/'
      · simp only [split, hslash, if_true, List.mem_cons] at hpiece
        rcases hpiece with rfl | hlater
        · simp
        · exact ih hlater
      · simp only [split, hslash, if_false] at hpiece
        cases hpieces : split rest with
        | nil =>
            exact absurd hpieces (split_ne_nil rest)
        | cons first more =>
            rw [hpieces] at hpiece ih
            rcases List.mem_cons.mp hpiece with rfl | hlater
            · have hfirst := ih List.mem_cons_self
              simp [Ne.symm hslash, hfirst]
            · exact ih (List.mem_cons_of_mem first hlater)

theorem pieces_ne_nil (path : String) : pieces path ≠ [] := by
  simp [pieces, split_ne_nil]

theorem no_slash_of_mem_pieces
    {path piece : String} (hpiece : piece ∈ pieces path) : '/' ∉ piece.toList := by
  obtain ⟨text, htext, rfl⟩ := List.mem_map.mp hpiece
  simpa using no_slash_of_mem_split htext

theorem pieces_append_slash (first rest : String) :
    pieces (first ++ "/" ++ rest) = pieces first ++ pieces rest := by
  have htext : (first ++ "/" ++ rest).toList = first.toList ++ '/' :: rest.toList := by
    simp
  rw [pieces, htext, split_append_slash, List.map_append]
  rfl

theorem pieces_of_no_slash {name : String} (hslash : '/' ∉ name.toList) :
    pieces name = [name] := by
  simp [pieces, split_of_no_slash hslash]

/-- Pieces can be joined again and are found again. -/
theorem pieces_joinWith
    {names : List String} (hfilled : names ≠ [])
    (hslash : ∀ name ∈ names, '/' ∉ name.toList) :
    pieces (Text.joinWith "/" names) = names := by
  induction names with
  | nil =>
      contradiction
  | cons name rest ih =>
      have hname := hslash name List.mem_cons_self
      cases rest with
      | nil =>
          exact pieces_of_no_slash hname
      | cons next rest =>
          have hrest := ih (by simp) fun other hother =>
            hslash other (List.mem_cons_of_mem name hother)
          rw [Text.joinWith, pieces_append_slash, pieces_of_no_slash hname, hrest]
          rfl

theorem joinWith_pieces (path : String) : Text.joinWith "/" (pieces path) = path := by
  apply String.toList_inj.mp
  unfold pieces
  induction path.toList with
  | nil =>
      rfl
  | cons c rest ih =>
      cases hpieces : split rest with
      | nil =>
          exact absurd hpieces (split_ne_nil rest)
      | cons first more =>
          rw [hpieces] at ih
          by_cases hslash : c = '/'
          · have hcons :
                Text.joinWith "/" (([] :: first :: more).map String.ofList) =
                  "" ++ "/" ++ Text.joinWith "/" ((first :: more).map String.ofList) := rfl
            simp only [split, hslash, if_true, hpieces]
            rw [hcons, String.toList_append, ih]
            rfl
          · simp only [split, hslash, if_false, hpieces]
            cases more <;> simp_all [Text.joinWith]

theorem joinWith_append
    (separator : String) {front back : List String} (hfront : front ≠ []) (hback : back ≠ []) :
    Text.joinWith separator (front ++ back) =
      Text.joinWith separator front ++ separator ++ Text.joinWith separator back := by
  induction front with
  | nil =>
      contradiction
  | cons piece rest ih =>
      cases rest with
      | nil =>
          cases back with
          | nil => contradiction
          | cons next back => rfl
      | cons next rest =>
          simp only [List.cons_append, Text.joinWith] at ih ⊢
          rw [ih (by simp)]
          simp [String.append_assoc]

theorem isAbsolute_iff (path : String) :
    isAbsolute path = true ↔ path ≠ "" ∧ (pieces path).head? = some "" := by
  cases htext : path.toList with
  | nil =>
      have hpath : path = "" := by simpa using htext
      simp [isAbsolute, hpath]
  | cons c rest =>
      have hpath : path ≠ "" := by
        rintro rfl
        simp at htext
      by_cases hslash : c = '/'
      · simp [isAbsolute, pieces, htext, hpath, hslash, split]
      · cases hpieces : split rest with
        | nil =>
            exact absurd hpieces (split_ne_nil rest)
        | cons first more =>
            simp [isAbsolute, pieces, htext, hpath, hslash, split, hpieces]

theorem endsWithSlash_iff (path : String) :
    endsWithSlash path = true ↔ ∃ rest, path = rest ++ "/" := by
  simp only [endsWithSlash, decide_eq_true_eq]
  constructor
  · intro hlast
    obtain ⟨rest, hrest⟩ := List.getLast?_eq_some_iff.mp hlast
    refine ⟨String.ofList rest, ?_⟩
    apply String.toList_inj.mp
    simpa using hrest
  · rintro ⟨rest, rfl⟩
    simp

/-! ## Joined paths -/

variable {directory name : String}

theorem join_eq_append (directory name : String) :
    ∃ between, join directory name = directory ++ between ++ name := by
  unfold join
  split
  · exact ⟨"", by simp⟩
  · exact ⟨"/", rfl⟩

theorem names_join (hslash : '/' ∉ name.toList) (hname : name ≠ "") :
    FileTree.names (join directory name) = FileTree.names directory ++ [name] := by
  have hnone : pieces "" = [""] := rfl
  unfold FileTree.names join
  by_cases hempty : directory = ""
  · subst hempty
    simp [pieces_of_no_slash hslash, hname, hnone]
  · by_cases hends : endsWithSlash directory = true
    · obtain ⟨rest, rfl⟩ := (endsWithSlash_iff directory).mp hends
      have hjoined : pieces (rest ++ "/" ++ name) = pieces rest ++ [name] := by
        rw [pieces_append_slash, pieces_of_no_slash hslash]
      have hdirectory : pieces (rest ++ "/") = pieces rest ++ [""] := by
        rw [← String.append_empty (s := rest ++ "/"), pieces_append_slash]
        rfl
      simp [hends, hjoined, hdirectory, hname]
    · simp [hempty, hends, pieces_append_slash, pieces_of_no_slash hslash, hname]

theorem isAbsolute_join (hdirectory : directory ≠ "") :
    isAbsolute (join directory name) = isAbsolute directory := by
  obtain ⟨between, hjoin⟩ := join_eq_append directory name
  cases htext : directory.toList with
  | nil =>
      exact absurd (by simpa using htext) hdirectory
  | cons c rest =>
      simp [isAbsolute, hjoin, htext]

end Path

/-! ## Following names -/

namespace FileTree

variable {tree : FileTree} {place outer : Place} {directory path name : String}

/-- The place of a directory that files are written to, the empty path being the one
where paths begin. -/
def directoryPlace (tree : FileTree) (directory : String) : Except FileError Place :=
  if directory = "" then .ok tree.working else tree.locate directory

theorem follow_eq_ok_iff :
    tree.follow outer name = .ok place ↔
      tree.node? outer = some .directory ∧
        ((name = "." ∧ place = outer) ∨
          (name = ".." ∧ place = outer.tail) ∨
          (name ≠ "." ∧ name ≠ ".." ∧ name.utf8ByteSize ≤ maxNameSize ∧
            place = name :: outer)) := by
  unfold follow
  cases hnode : tree.node? outer with
  | none =>
      simp
  | some node =>
      cases node with
      | file content =>
          simp
      | directory =>
          by_cases hdot : name = "."
          · simp [hdot, eq_comm]
          · by_cases hdots : name = ".."
            · simp [hdots, eq_comm]
            · by_cases hlong : maxNameSize < name.utf8ByteSize
              · simp [hdot, hdots, hlong, Nat.not_le.mpr hlong]
              · simp [hdot, hdots, hlong, eq_comm]
                omega

theorem foldlM_follow_append
    {first rest : List String} {start : Place}
    (hplace : (first ++ rest).foldlM tree.follow start = .ok place) :
    ∃ middle, first.foldlM tree.follow start = .ok middle ∧
      rest.foldlM tree.follow middle = .ok place := by
  rw [List.foldlM_append] at hplace
  cases hfirst : first.foldlM tree.follow start with
  | error error =>
      rw [hfirst] at hplace
      contradiction
  | ok middle =>
      rw [hfirst] at hplace
      exact ⟨middle, rfl, hplace⟩

theorem foldlM_follow_concat
    {front : List String} {start : Place}
    (hplace : (front ++ [name]).foldlM tree.follow start = .ok place) :
    ∃ outer, front.foldlM tree.follow start = .ok outer ∧
      tree.follow outer name = .ok place := by
  obtain ⟨outer, houter, hlast⟩ := foldlM_follow_append hplace
  refine ⟨outer, houter, ?_⟩
  rw [← bind_pure (tree.follow outer name)]
  exact hlast

/-- Following names leads to the same place in any tree with the same directories. -/
theorem foldlM_follow_of_directories
    {grown : FileTree}
    (hgrown : ∀ place, tree.node? place = some .directory →
      grown.node? place = some .directory)
    {names : List String} {start : Place}
    (hplace : names.foldlM tree.follow start = .ok place) :
    names.foldlM grown.follow start = .ok place := by
  induction names generalizing start with
  | nil =>
      exact hplace
  | cons name rest ih =>
      rw [List.foldlM_cons] at hplace ⊢
      cases hfirst : tree.follow start name with
      | error error =>
          rw [hfirst] at hplace
          contradiction
      | ok next =>
          rw [hfirst] at hplace
          have hgrownFirst : grown.follow start name = .ok next := by
            obtain ⟨hnode, hnext⟩ := follow_eq_ok_iff.mp hfirst
            exact follow_eq_ok_iff.mpr ⟨hgrown start hnode, hnext⟩
          rw [hgrownFirst]
          exact ih hplace

/-- What stands in the way of a path before it is followed. -/
def Followable (path : String) : Prop :=
  '\x00' ∉ path.toList ∧ path ≠ "" ∧ path.utf8ByteSize ≤ maxPathSize

def start (tree : FileTree) (path : String) : Place :=
  if Path.isAbsolute path then [] else tree.working

theorem locate_eq_ok_iff :
    tree.locate path = .ok place ↔
      Followable path ∧ (names path).foldlM tree.follow (tree.start path) = .ok place := by
  unfold locate Followable
  by_cases hnul : '\x00' ∈ path.toList
  · simp [hnul]
  · by_cases hempty : path = ""
    · simp [hempty]
    · by_cases hlong : maxPathSize < path.utf8ByteSize
      · simp [hnul, hempty, hlong, Nat.not_le.mpr hlong]
      · simp [hnul, hempty, hlong, start]
        omega

/-- A plain name joined to a directory leads to this name inside the directory. -/
theorem locate_join
    (hplain : isPlainFileName name = true) (hname : name ≠ "")
    (hlocate : tree.locate (Path.join directory name) = .ok place) :
    ∃ outer, tree.directoryPlace directory = .ok outer ∧
      tree.node? outer = some .directory ∧ place = name :: outer := by
  simp only [isPlainFileName, Bool.and_eq_true, Bool.not_eq_true', bne_iff_ne,
    List.contains_eq_mem, decide_eq_false_iff_not] at hplain
  obtain ⟨⟨⟨hslash, -⟩, hdot⟩, hdots⟩ := hplain
  obtain ⟨⟨hnul, -, hsize⟩, hfollow⟩ := locate_eq_ok_iff.mp hlocate
  rw [Path.names_join hslash hname] at hfollow
  obtain ⟨outer, houter, hlast⟩ := foldlM_follow_concat hfollow
  obtain ⟨hnode, hcases⟩ := follow_eq_ok_iff.mp hlast
  have hinside : place = name :: outer := by
    simp only [hdot, hdots, false_and, false_or] at hcases
    exact hcases.2.2.2
  refine ⟨outer, ?_, hnode, hinside⟩
  unfold directoryPlace
  by_cases hempty : directory = ""
  · subst hempty
    have hrelative : Path.isAbsolute (Path.join "" name) = false := by
      cases htext : name.toList with
      | nil => simp [Path.join, Path.isAbsolute, htext]
      | cons c rest =>
          have hne : c ≠ '/' := by
            rintro rfl
            simp [htext] at hslash
          simp [Path.join, Path.isAbsolute, htext, hne]
    have hnone : names "" = [] := rfl
    have hstart : tree.start (Path.join "" name) = tree.working := by
      simp [start, hrelative]
    rw [hstart, hnone] at houter
    rw [if_pos rfl]
    exact houter
  · rw [if_neg hempty, locate_eq_ok_iff]
    obtain ⟨between, hjoin⟩ := Path.join_eq_append directory name
    rw [hjoin] at hnul hsize
    simp only [String.toList_append, List.mem_append, not_or,
      String.utf8ByteSize_append] at hnul hsize
    refine ⟨⟨hnul.1.1, hempty, by omega⟩, ?_⟩
    rw [start, Path.isAbsolute_join hempty] at houter
    exact houter

theorem locate_of_directories
    {grown : FileTree} (hworking : grown.working = tree.working)
    (hgrown : ∀ place, tree.node? place = some .directory →
      grown.node? place = some .directory)
    (hlocate : tree.locate path = .ok place) : grown.locate path = .ok place := by
  obtain ⟨hfollowable, hfollow⟩ := locate_eq_ok_iff.mp hlocate
  apply locate_eq_ok_iff.mpr
  refine ⟨hfollowable, ?_⟩
  have hstart : grown.start path = tree.start path := by simp [start, hworking]
  rw [hstart]
  exact foldlM_follow_of_directories hgrown hfollow

theorem directoryPlace_of_directories
    {grown : FileTree} (hworking : grown.working = tree.working)
    (hgrown : ∀ place, tree.node? place = some .directory →
      grown.node? place = some .directory)
    (hplace : tree.directoryPlace directory = .ok place) :
    grown.directoryPlace directory = .ok place := by
  unfold directoryPlace at hplace ⊢
  by_cases hempty : directory = ""
  · simpa [hempty, hworking] using hplace
  · simp only [hempty, if_false] at hplace ⊢
    exact locate_of_directories hworking hgrown hplace

/-! ## The directory of a file -/

/-- Everything lies in a directory, and paths begin in one. -/
structure Rooted (tree : FileTree) : Prop where
  inside :
    ∀ name outer, tree.node? (name :: outer) ≠ none → tree.node? outer = some .directory
  working : tree.node? tree.working = some .directory

theorem foldlM_follow_idle
    {pieces : List String} (hidle : ∀ piece ∈ pieces, Path.isIdle piece = true)
    {start : Place}
    (hplace : (pieces.filter fun piece => piece ≠ "").foldlM tree.follow start = .ok place) :
    place = start := by
  induction pieces generalizing start with
  | nil =>
      exact (Except.ok.inj hplace).symm
  | cons piece rest ih =>
      have hrest := fun other hother => hidle other (List.mem_cons_of_mem piece hother)
      by_cases hempty : piece = ""
      · simp only [hempty, ne_eq, not_true_eq_false, decide_false, Bool.false_eq_true,
          not_false_eq_true, List.filter_cons_of_neg] at hplace
        exact ih hrest hplace
      · have hdot : piece = "." := by
          simpa [Path.isIdle, hempty] using hidle piece List.mem_cons_self
        rw [List.filter_cons_of_pos (by simpa using hempty), List.foldlM_cons] at hplace
        cases hfirst : tree.follow start piece with
        | error error =>
            rw [hfirst] at hplace
            contradiction
        | ok next =>
            rw [hfirst] at hplace
            have hsame : next = start := by
              have hcases := (follow_eq_ok_iff.mp hfirst).2
              simpa [hdot] using hcases
            subst hsame
            exact ih hrest hplace

theorem exists_last_piece
    (hpath : path ≠ "") (hends : Path.endsWithSlash path = false) :
    ∃ front last, Path.pieces path = front ++ [last] ∧ last ≠ "" := by
  obtain ⟨front, last, hpieces⟩ :=
    (List.eq_nil_or_concat' (Path.pieces path)).resolve_left (Path.pieces_ne_nil path)
  refine ⟨front, last, hpieces, ?_⟩
  rintro rfl
  have hjoined := Path.joinWith_pieces path
  rw [hpieces] at hjoined
  by_cases hfront : front = []
  · subst hfront
    exact hpath hjoined.symm
  · rw [Path.joinWith_append _ hfront (by simp)] at hjoined
    have hslash : path = Text.joinWith "/" front ++ "/" := by
      rw [← hjoined]
      simp [Text.joinWith]
    have hfinal := (Path.endsWithSlash_iff path).mpr ⟨_, hslash⟩
    rw [hends] at hfinal
    contradiction

/-- The pieces up to the last one that leads somewhere, and the idle ones after it. -/
theorem exists_kept_pieces (front : List String) :
    ∃ kept idle, front = kept ++ idle ∧
      front.reverse.dropWhile Path.isIdle = kept.reverse ∧
      (∀ piece ∈ idle, Path.isIdle piece = true) ∧
      (kept = [] ∨ ∃ before last, kept = before ++ [last] ∧ Path.isIdle last = false) := by
  refine ⟨(front.reverse.dropWhile Path.isIdle).reverse,
    (front.reverse.takeWhile Path.isIdle).reverse, ?_, ?_, ?_, ?_⟩
  · rw [← List.reverse_append, List.takeWhile_append_dropWhile, List.reverse_reverse]
  · rw [List.reverse_reverse]
  · intro piece hpiece
    exact List.mem_takeWhile_imp (List.mem_reverse.mp hpiece)
  · cases hkept : front.reverse.dropWhile Path.isIdle with
    | nil =>
        exact .inl rfl
    | cons last before =>
        right
        refine ⟨before.reverse, last, by simp, ?_⟩
        have hhead := List.head_dropWhile_not Path.isIdle (l := front.reverse) (by simp [hkept])
        simpa [hkept] using hhead

theorem dropLast_reverse_pieces
    {kept idle : List String} {last : String}
    (hpieces : Path.pieces path = kept ++ idle ++ [last])
    (hlast : Path.isIdle last = false)
    (hdropped : (kept ++ idle).reverse.dropWhile Path.isIdle = kept.reverse) :
    Path.dropLast (Path.pieces path).reverse = kept.reverse := by
  rw [← hdropped]
  simp [Path.dropLast, hpieces, hlast]

/-- With nothing left, the directory of a path is the one that the path begins in. -/
theorem directoryPlace_of_no_pieces
    (hrooted : tree.Rooted) (hnone : Path.dropLast (Path.pieces path).reverse = []) :
    tree.directoryPlace (Path.directory path) = .ok (tree.start path) := by
  unfold Path.directory
  rw [hnone]
  by_cases habsolute : Path.isAbsolute path = true
  · have hroot : tree.locate "/" = .ok [] :=
      locate_eq_ok_iff.mpr ⟨⟨by decide, by decide, by decide⟩, rfl⟩
    simpa [habsolute, directoryPlace, start] using hroot
  · by_cases hdot : (Path.pieces path).head? = some "."
    · have hhere : tree.locate "." = .ok tree.working := by
        refine locate_eq_ok_iff.mpr ⟨⟨by decide, by decide, by decide⟩, ?_⟩
        have hfollow : tree.follow tree.working "." = .ok tree.working :=
          follow_eq_ok_iff.mpr ⟨hrooted.working, .inl ⟨rfl, rfl⟩⟩
        change (tree.follow tree.working ".").bind _ = _
        rw [hfollow]
        rfl
      simpa [habsolute, hdot, directoryPlace, start] using hhere
    · simp [habsolute, hdot, directoryPlace, start]

/-- What is left of the pieces of a path makes up its directory, with which the path
begins. -/
theorem pieces_directory
    {before idle : List String} {inner last : String}
    (hpieces : Path.pieces path = before ++ [inner] ++ idle ++ [last])
    (hdropped : Path.dropLast (Path.pieces path).reverse = (before ++ [inner]).reverse) :
    Path.pieces (Path.directory path) = before ++ [inner] ∧
      ∃ more, path = Path.directory path ++ "/" ++ more := by
  have hfilled : before ++ [inner] ≠ [] := by simp
  have hdirectory : Path.directory path = Text.joinWith "/" (before ++ [inner]) := by
    unfold Path.directory
    rw [hdropped, List.reverse_append, List.reverse_singleton, List.singleton_append]
    simp [Path.ofReversed]
  constructor
  · rw [hdirectory]
    apply Path.pieces_joinWith hfilled
    intro piece hpiece
    have hmem : piece ∈ Path.pieces path := by
      rw [hpieces]
      exact List.mem_append_left _ (List.mem_append_left _ hpiece)
    exact Path.no_slash_of_mem_pieces hmem
  · refine ⟨Text.joinWith "/" (idle ++ [last]), ?_⟩
    rw [hdirectory, ← Path.joinWith_append _ hfilled (by simp), ← List.append_assoc,
      ← hpieces, Path.joinWith_pieces]

theorem directoryPlace_of_pieces
    (hfollowable : Followable path) {before idle : List String} {inner last : String}
    (hinner : Path.isIdle inner = false)
    (hpieces : Path.pieces path = before ++ [inner] ++ idle ++ [last])
    (hdropped : Path.dropLast (Path.pieces path).reverse = (before ++ [inner]).reverse)
    (hplace :
      ((before ++ [inner]).filter fun piece => piece ≠ "").foldlM tree.follow
        (tree.start path) = .ok outer) :
    tree.directoryPlace (Path.directory path) = .ok outer := by
  obtain ⟨hfound, more, hsplit⟩ := pieces_directory hpieces hdropped
  have hempty : Path.directory path ≠ "" := by
    intro hempty
    have hnone : Path.pieces "" = [] ++ [""] := rfl
    rw [hempty, hnone] at hfound
    obtain ⟨-, hsame⟩ := List.append_inj' hfound rfl
    obtain rfl : "" = inner := by simpa using hsame
    contradiction
  have hhead : (Path.pieces (Path.directory path)).head? = (Path.pieces path).head? := by
    rw [hfound, hpieces]
    cases before <;> rfl
  have habsolute : Path.isAbsolute (Path.directory path) = Path.isAbsolute path := by
    rw [Bool.eq_iff_iff, Path.isAbsolute_iff, Path.isAbsolute_iff, hhead]
    simp [hempty, hfollowable.2.1]
  have hstart : tree.start (Path.directory path) = tree.start path := by
    rw [start, habsolute]
    rfl
  unfold directoryPlace
  rw [if_neg hempty, locate_eq_ok_iff]
  constructor
  · obtain ⟨hnul, -, hsize⟩ := hfollowable
    rw [hsplit] at hnul hsize
    simp only [String.toList_append, List.mem_append, not_or,
      String.utf8ByteSize_append] at hnul hsize
    exact ⟨hnul.1.1, hempty, by omega⟩
  · rw [hstart, names, hfound]
    exact hplace

/-- Without its last piece and the idle ones before it a path leads to where its
whole beginning leads. -/
theorem directoryPlace_of_front
    (hrooted : tree.Rooted) (hfollowable : Followable path) {front : List String}
    {last : String} (hpieces : Path.pieces path = front ++ [last])
    (hlast : Path.isIdle last = false)
    (hfront :
      (front.filter fun piece => piece ≠ "").foldlM tree.follow (tree.start path) =
        .ok outer) :
    tree.directoryPlace (Path.directory path) = .ok outer := by
  obtain ⟨kept, idle, rfl, hdropWhile, hidle, hkept⟩ := exists_kept_pieces front
  have hdropped := dropLast_reverse_pieces hpieces hlast hdropWhile
  rcases hkept with rfl | ⟨before, inner, rfl, hinner⟩
  · rw [foldlM_follow_idle hidle hfront]
    exact directoryPlace_of_no_pieces hrooted hdropped
  · rw [List.filter_append] at hfront
    obtain ⟨place, hinside, hrest⟩ := foldlM_follow_append hfront
    rw [foldlM_follow_idle hidle hrest]
    exact directoryPlace_of_pieces hfollowable hinner hpieces hdropped hinside

theorem read_eq_ok_iff {content : ByteArray} :
    tree.read path = .ok content ↔
      ∃ place, tree.locate path = .ok place ∧ tree.node? place = some (.file content) ∧
        Path.endsWithSlash path = false := by
  unfold read
  cases hlocate : tree.locate path with
  | error error =>
      simp [bind, Except.bind]
  | ok place =>
      simp only [bind, Except.bind, Except.ok.injEq, exists_eq_left']
      cases hnode : tree.node? place with
      | none =>
          simp
      | some node =>
          cases node with
          | directory =>
              simp
          | file found =>
              cases hends : Path.endsWithSlash path <;> simp

/-- The directory of a path to a file is the one that the file is in. -/
theorem directoryPlace_directory
    (hrooted : tree.Rooted) {content : ByteArray} (hread : tree.read path = .ok content) :
    ∃ name outer, tree.locate path = .ok (name :: outer) ∧
      tree.directoryPlace (Path.directory path) = .ok outer := by
  obtain ⟨place, hlocate, hfile, hends⟩ := read_eq_ok_iff.mp hread
  obtain ⟨hfollowable, hfollow⟩ := locate_eq_ok_iff.mp hlocate
  obtain ⟨front, last, hpieces, hfilled⟩ := exists_last_piece hfollowable.2.1 hends
  have hnames : names path = (front.filter fun piece => piece ≠ "") ++ [last] := by
    rw [names, hpieces, List.filter_append]
    simp [hfilled]
  rw [hnames] at hfollow
  obtain ⟨outer, hfront, hlast⟩ := foldlM_follow_concat hfollow
  -- a file is neither the directory it was reached from nor the one around it
  obtain ⟨hnode, ⟨-, rfl⟩ | ⟨-, rfl⟩ | ⟨hdot, hdots, -, rfl⟩⟩ := follow_eq_ok_iff.mp hlast
  · rw [hnode] at hfile
    simp at hfile
  · cases outer with
    | nil =>
        simp at hfile
    | cons name around =>
        have haround := hrooted.inside name around (by simp [hnode])
        rw [List.tail_cons, haround] at hfile
        simp at hfile
  · have hidle : Path.isIdle last = false := by simp [Path.isIdle, hfilled, hdot]
    exact
      ⟨last, outer, hlocate,
        directoryPlace_of_front hrooted hfollowable hpieces hidle hfront⟩

end FileTree

end ShaderComposer
