import BrowserSteps.Proofs.Calendar
import BrowserSteps.Proofs.Files.Tree
import BrowserSteps.Run.Capture
import Mathlib.Data.List.Induction

/-!
Where screenshots lie. Whatever a tag and a step are called, the names below the directory of the day are
entries of the directory above them, so a screenshot stays below its day. The tag has one directory of its
own unless it is empty: then there is none, and the directory of the time lies in that of the day.
-/

namespace BrowserSteps

namespace Path

theorem pieces_of_noSlash {s : List Char} (plain : '/' ∉ s) : pieces s = [s] := by
  induction s with
  | nil => rfl
  | cons c rest ih =>
      rw [List.mem_cons, not_or] at plain
      rw [pieces, ih plain.2]
      intro slash
      exact absurd slash.symm plain.1

/-- A text without slashes names one entry, the directory itself if it is empty or a dot. -/
theorem child_of_noSlash (p : Path) {s : String} (plain : '/' ∉ s.toList) :
    p.child s = ⟨p.absolute, p.names ++ if s = "" ∨ s = "." then [] else [s]⟩ := by
  have relative : s.toList.head? ≠ some '/' := by
    intro slash
    exact plain (List.mem_of_mem_head? slash)
  have hname : isName s.toList = true ↔ ¬ (s = "" ∨ s = ".") := by
    have hdot : s.toList = ['.'] ↔ s = "." := by
      rw [show ['.'] = ".".toList from rfl, String.toList_inj]
    simp [isName, hdot]
  simp only [child, append, ofString, relative, decide_false, Bool.false_eq_true, if_false,
    pieces_of_noSlash plain, List.filter_cons, List.filter_nil]
  by_cases here : s = "" ∨ s = "."
  · rw [if_neg (mt hname.mp (not_not.mpr here)), if_pos here, List.map_nil]
  · rw [if_pos (hname.mpr here), if_neg here, List.map_singleton, String.ofList_toList]

theorem parent_concat (absolute : Bool) (names : List String) (name : String) :
    parent ⟨absolute, names ++ [name]⟩ = ⟨absolute, names⟩ := by
  rw [parent, List.dropLast_concat]

theorem parent_ne {p : Path} (named : p.names ≠ []) : p.parent ≠ p := by
  intro same
  have hlength := congrArg (·.names.length) same
  have hnamed := List.length_pos_of_ne_nil named
  simp only [parent, List.length_dropLast] at hlength
  omega

/-- A name of an entry of a directory: it leads neither back nor past that entry. -/
structure IsEntryName (name : String) : Prop where
  some : name ≠ ""
  noDot : name ≠ "."
  noDots : name ≠ ".."
  noSlash : '/' ∉ name.toList

theorem IsEntryName.child {name : String} (h : IsEntryName name) (p : Path) :
    p.child name = ⟨p.absolute, p.names ++ [name]⟩ := by
  rw [child_of_noSlash p h.noSlash, if_neg (not_or.mpr ⟨h.some, h.noDot⟩)]

theorem isEntryName_of_mem {name : String} {c : Char} (member : c ∈ name.toList) (other : c ≠ '.')
    (noSlash : '/' ∉ name.toList) : IsEntryName name := by
  refine ⟨?_, ?_, ?_, noSlash⟩ <;> rintro rfl <;> simp at member <;> exact other member

end Path

/-- Entries below a path lie below the place of the path. -/
theorem FileTree.place_below {tree : FileTree} {path : Path} {names last : List String}
    (forward : ".." ∉ names) (h : tree.place ⟨path.absolute, path.names ++ names⟩ = .ok last) :
    ∃ start, tree.place path = .ok start ∧ last = start ++ names := by
  induction names using List.reverseRecOn generalizing last with
  | nil =>
      rw [List.append_nil] at h
      exact ⟨last, h, (List.append_nil last).symm⟩
  | append_singleton names name ih =>
      rw [List.mem_append, List.mem_singleton, not_or] at forward
      rw [← List.append_assoc] at h
      obtain ⟨between, hbetween, -, rfl⟩ := place_parent h (by simp)
      rw [Path.parent_concat] at hbetween
      obtain ⟨start, hstart, rfl⟩ := ih forward.1 hbetween
      have hname : (path.names ++ names ++ [name]).getLast (by simp) = name := List.getLast_concat
      refine ⟨start, hstart, ?_⟩
      rw [hname, step, if_neg (by simp [Ne.symm forward.2]), List.append_assoc]

/-- What is written below a path lies below the place of the path. -/
theorem FileTree.writeBytes_below_eq_ok {tree written : FileTree} {path : Path} {names : List String}
    {content : Text.Bytes} (forward : ".." ∉ names) :
    let file : Path := ⟨path.absolute, path.names ++ names⟩
    tree.writeBytes file content = .ok written ↔ ∃ start, tree.place path = .ok start ∧
      tree.place file = .ok (start ++ names) ∧ tree.at? (start ++ names) ≠ some .directory ∧
      written = tree.put (start ++ names) (.file content) := by
  intro file
  rw [writeBytes_eq_ok]
  constructor
  · rintro ⟨place, hplace, free, rfl⟩
    obtain ⟨start, hstart, rfl⟩ := place_below forward hplace
    exact ⟨start, hstart, hplace, free, rfl⟩
  · rintro ⟨start, -, hplace, free, rfl⟩
    exact ⟨_, hplace, free, rfl⟩

namespace Capture

open BrowserSteps.Path

theorem isForbidden_fileName {name : String} : ∀ c ∈ (fileName name).toList, isForbidden c = false := by
  intro c member
  unfold fileName at member
  split at member
  · obtain rfl : c = '_' := by simpa using member
    rfl
  · split at member
    · obtain rfl : c = '_' := by simpa using member
      rfl
    · rw [String.toList_ofList, List.mem_map] at member
      obtain ⟨d, -, rfl⟩ := member
      split
      · rfl
      next allowed => exact Bool.eq_false_iff.mpr allowed

/-- A name keeps its length. -/
theorem length_fileName (name : String) : (fileName name).length = name.length := by
  unfold fileName
  split
  next dot =>
    rw [dot]
    decide
  next =>
    split
    next dots =>
      rw [dots]
      decide
    next => rw [String.length_ofList, List.length_map, String.length_toList]

theorem fileName_eq_empty_iff {name : String} : fileName name = "" ↔ name = "" := by
  rw [← String.length_eq_zero_iff, length_fileName, String.length_eq_zero_iff]

theorem noSlash_fileName (name : String) : '/' ∉ (fileName name).toList := by
  intro slash
  cases isForbidden_fileName '/' slash

/-- Replacing characters makes no dots. -/
theorem eq_of_replaced_eq_dots {name dots : String} (only : (dots.toList.all (· = '.')) = true)
    (h : String.ofList (name.toList.map fun c => if isForbidden c then '_' else c) = dots) :
    name = dots := by
  have same : name.toList.map (fun c => if isForbidden c then '_' else c) = name.toList := by
    conv_rhs => rw [← List.map_id name.toList]
    apply List.map_congr_left
    intro c member
    have dot : (if isForbidden c then '_' else c) = '.' := by
      have written := List.mem_map_of_mem (f := fun c => if isForbidden c then '_' else c) member
      rw [← String.toList_ofList (l := List.map _ _), h] at written
      exact of_decide_eq_true (List.all_eq_true.mp only _ written)
    split at dot
    · cases dot
    next allowed => rw [if_neg allowed, id]
  rw [← h, same, String.ofList_toList]

/-- The dots that lead to other directories are no file names. -/
theorem fileName_ne_dots (name : String) : fileName name ≠ "." ∧ fileName name ≠ ".." := by
  unfold fileName
  split
  · decide
  next noDot =>
    split
    · decide
    next noDots =>
      exact ⟨fun dot => noDot (eq_of_replaced_eq_dots (by decide) dot),
        fun dots => noDots (eq_of_replaced_eq_dots (by decide) dots)⟩

theorem isEntryName_fileName {name : String} (some : name ≠ "") : IsEntryName (fileName name) where
  some := fun none => some (fileName_eq_empty_iff.mp none)
  noDot := (fileName_ne_dots name).1
  noDots := (fileName_ne_dots name).2
  noSlash := noSlash_fileName name

theorem child_fileName (p : Path) (name : String) : p.child (fileName name) =
    ⟨p.absolute, p.names ++ if name = "" then [] else [fileName name]⟩ := by
  by_cases none : name = ""
  · rw [child_of_noSlash p (noSlash_fileName name), fileName_eq_empty_iff.mpr none]
    simp [none]
  · rw [(isEntryName_fileName none).child, if_neg none]

theorem isEntryName_shortTime (t : DateTime) : IsEntryName (shortTime t) := by
  have hlength := t.length_clockText
  obtain ⟨c, member⟩ := List.exists_mem_of_length_pos (l := (shortTime t).toList) (by
    rw [shortTime, hlength]
    decide)
  have digit := DateTime.isDigit_of_mem_clockText c member
  apply isEntryName_of_mem member
  · rintro rfl
    cases digit
  · intro slash
    cases DateTime.isDigit_of_mem_clockText '/' slash

theorem isEntryName_dayText (t : DateTime) : IsEntryName t.dayText := by
  have hyear {n : Nat} : '/' ∉ Nat.toDigits 10 n := by
    intro slash
    cases Nat.isDigit_of_mem_toDigits (b := 10) (by decide) (by decide) slash
  have hpadded {n : Nat} : '/' ∉ (DateTime.padded 2 n).toList := by
    intro slash
    cases DateTime.isDigit_of_mem_padded '/' slash
  apply isEntryName_of_mem (c := '-')
  · simp [DateTime.dayText]
  · decide
  · simp [DateTime.dayText, hpadded, hyear]

/-- The name of the file of a screenshot. -/
def screenshotName (stepName : String) (t : DateTime) : String :=
  fileName stepName ++ "_" ++ shortTime t ++ ".png"

theorem isEntryName_screenshotName (stepName : String) (t : DateTime) :
    IsEntryName (screenshotName stepName t) := by
  apply isEntryName_of_mem (c := 'g')
  · simp [screenshotName]
  · decide
  · simp [screenshotName, noSlash_fileName, (isEntryName_shortTime t).noSlash]

/-- The names that lead from the directory of the day to a screenshot. -/
def namesBelowDay (tag stepName : String) (startedAt takenAt : DateTime) : List String :=
  (if tag = "" then [] else [fileName tag]) ++ [shortTime startedAt, screenshotName stepName takenAt]

theorem isForbidden_of_isDigit {c : Char} (digit : c.isDigit = true) : isForbidden c = false := by
  have hbounds := Text.bounds_of_isDigit digit
  have hlisted : ("\\/:*?\"<>|".toList.all fun d => d.toNat < 0x30 || 0x39 < d.toNat) = true := by
    decide
  rw [isForbidden, Bool.or_eq_false_iff, decide_eq_false_iff_not]
  constructor
  · apply Bool.eq_false_iff.mpr
    intro listed
    have outside := List.all_eq_true.mp hlisted c (List.contains_iff_mem.mp listed)
    simp only [Bool.or_eq_true, decide_eq_true_eq] at outside
    omega
  · omega

theorem isForbidden_screenshotName {stepName : String} {t : DateTime} :
    ∀ c ∈ (screenshotName stepName t).toList, isForbidden c = false := by
  intro c member
  simp only [screenshotName, String.toList_append, List.mem_append] at member
  rcases member with ((name | mark) | time) | ending
  · exact isForbidden_fileName c name
  · obtain rfl := List.mem_singleton.mp mark
    rfl
  · exact isForbidden_of_isDigit (DateTime.isDigit_of_mem_clockText c time)
  · have hending : (".png".toList.all fun d => !isForbidden d) = true := by decide
    simpa using List.all_eq_true.mp hending c ending

theorem isEntryName_of_mem_namesBelowDay {tag stepName : String} {startedAt takenAt : DateTime} :
    ∀ name ∈ namesBelowDay tag stepName startedAt takenAt,
      IsEntryName name ∧ ∀ c ∈ name.toList, isForbidden c = false := by
  intro name member
  simp only [namesBelowDay, List.mem_append, List.mem_ite_nil_left, List.mem_cons, List.not_mem_nil,
    or_false] at member
  rcases member with ⟨some, rfl⟩ | rfl | rfl
  · exact ⟨isEntryName_fileName some, isForbidden_fileName⟩
  · exact ⟨isEntryName_shortTime startedAt,
      fun c member => isForbidden_of_isDigit (DateTime.isDigit_of_mem_clockText c member)⟩
  · exact ⟨isEntryName_screenshotName stepName takenAt, isForbidden_screenshotName⟩

/-- The name of the empty text is no entry of its own. -/
theorem child_fileName_eq_self_iff {p : Path} {name : String} :
    p.child (fileName name) = p ↔ name = "" := by
  rw [child_fileName]
  constructor
  · intro same
    by_contra some
    simpa [some] using congrArg (·.names.length) same
  · rintro rfl
    rw [if_pos rfl, List.append_nil]

theorem parent_child_fileName_eq_iff {p : Path} (named : p.names ≠ []) {name : String} :
    (p.child (fileName name)).parent = p ↔ name ≠ "" := by
  constructor
  · intro level none
    rw [child_fileName_eq_self_iff.mpr none] at level
    exact parent_ne named level
  · intro some
    rw [(isEntryName_fileName some).child, parent_concat]

/-- Above the directory of the time is the one of the tag, if there is one. -/
theorem parent_runDirectory (base : Path) (tag : String) (startedAt : DateTime) :
    (runDirectory base tag startedAt).parent =
      (base.child startedAt.dayText).child (fileName tag) := by
  rw [runDirectory, (isEntryName_shortTime startedAt).child, parent_concat]

theorem screenshotPath_eq (directory : Path) (stepName : String) (takenAt : DateTime) :
    screenshotPath directory stepName takenAt =
      ⟨directory.absolute, directory.names ++ [screenshotName stepName takenAt]⟩ :=
  (isEntryName_screenshotName stepName takenAt).child directory

/-- The path of a screenshot leads through the names below the directory of the day. -/
theorem screenshotPath_runDirectory (base : Path) (tag stepName : String)
    (startedAt takenAt : DateTime) :
    let day := base.child startedAt.dayText
    screenshotPath (runDirectory base tag startedAt) stepName takenAt =
      ⟨day.absolute, day.names ++ namesBelowDay tag stepName startedAt takenAt⟩ := by
  rw [screenshotPath_eq, runDirectory, (isEntryName_shortTime startedAt).child, child_fileName]
  simp only [namesBelowDay, List.append_assoc, List.cons_append, List.nil_append]

/-- Where a run that has a tag and started then keeps its screenshot of a step. For every tag and every step the
names below the directory of the day are entries of the directories above them, and none has a forbidden
character; the tag has a level of its own unless it is empty. In every tree of files the directory is
there as soon as it was made, and what is written lies below the directory of the day. -/
theorem screenshot_layout (base : Path) (tag stepName : String) (startedAt takenAt : DateTime) :
    let day := base.child startedAt.dayText
    let directory := runDirectory base tag startedAt
    let file := screenshotPath directory stepName takenAt
    let below := namesBelowDay tag stepName startedAt takenAt
    day = ⟨base.absolute, base.names ++ [startedAt.dayText]⟩ ∧
      file = ⟨base.absolute, day.names ++ below⟩ ∧ file.parent = directory ∧
      (directory.parent.parent = day ↔ tag ≠ "") ∧ (directory.parent = day ↔ tag = "") ∧
      (∀ name ∈ below, IsEntryName name ∧ ∀ c ∈ name.toList, isForbidden c = false) ∧
      (∀ tree : FileTree, (tree.makeDirectories directory).1 = .ok () ↔
        (tree.makeDirectories directory).2.find directory = .ok .directory) ∧
      ∀ (tree : FileTree) (content : Text.Bytes) (written : FileTree),
        tree.writeBytes file content = .ok written ↔ ∃ start, tree.place day = .ok start ∧
          tree.place file = .ok (start ++ below) ∧ tree.at? (start ++ below) ≠ some .directory ∧
          written = tree.put (start ++ below) (.file content) := by
  intro day directory file below
  have hday : day = ⟨base.absolute, base.names ++ [startedAt.dayText]⟩ :=
    (isEntryName_dayText startedAt).child base
  have hdirectory : directory.parent = day.child (fileName tag) :=
    parent_runDirectory base tag startedAt
  have hfile : file = ⟨day.absolute, day.names ++ below⟩ := screenshotPath_runDirectory ..
  have hparent : file.parent = directory := by
    rw [show file = _ from screenshotPath_eq directory stepName takenAt, parent_concat]
  have hnames : ∀ name ∈ below, IsEntryName name ∧ ∀ c ∈ name.toList, isForbidden c = false :=
    isEntryName_of_mem_namesBelowDay
  have forward : ".." ∉ below := fun back => (hnames ".." back).1.noDots rfl
  refine ⟨hday, ?_, hparent, ?_, ?_, hnames, fun tree => tree.makeDirectories_eq_ok directory,
    fun tree content written => ?_⟩
  · rw [hfile, show day.absolute = base.absolute by rw [hday]]
  · rw [hdirectory]
    exact parent_child_fileName_eq_iff (by simp [hday])
  · rw [hdirectory]
    exact child_fileName_eq_self_iff
  · rw [hfile]
    exact FileTree.writeBytes_below_eq_ok forward

/-- Without a tag there is no directory between those of the day and of the time. -/
theorem no_level_without_tag :
    let startedAt : DateTime := .ofParts ⟨2024, 1, 2⟩ ⟨3, 4, 5, 0⟩
    let base := Path.ofString "data"
    let directory := runDirectory base "" startedAt
    directory.parent.parent ≠ base.child startedAt.dayText ∧
      directory.text = "data/2024-01-02/030405" ∧
      (runDirectory base "." startedAt).text = "data/2024-01-02/_/030405" := by
  decide +kernel

end Capture

end BrowserSteps
