import Liz.Base.Text

/-!
# Paths

A path is a text, and where it leads is a list of names from the root of the file system down. A
walk reads the text segment by segment: an empty segment and `.` stay, `..` goes up, anything else
goes down. Joining works on the texts alone, so what is joined can walk anywhere.
-/

namespace Paths

/-- The names from the root of the file system down. -/
abbrev Location := List String

def isSeparator (c : Char) : Bool := c == '/'

def isAbsolute (path : String) : Bool := path.toList.head? == some '/'

/-- An absolute path replaces the path it is joined to; any other goes behind it, with a separator
between them unless there is one. -/
def join (base path : String) : String :=
  if isAbsolute path then path
  else if base.isEmpty || base.toList.getLast? == some '/' then base ++ path
  else base ++ "/" ++ path

def segments (path : String) : List String := Text.splitOn isSeparator path

/-- A step of a walk. -/
def enter (here : Location) (segment : String) : Location :=
  if segment = "" ∨ segment = "." then here
  else if segment = ".." then here.dropLast
  else here ++ [segment]

def walk (here : Location) (path : List String) : Location := path.foldl enter here

/-- Where a path leads. -/
def locate (cwd : Location) (path : String) : Location :=
  walk (if isAbsolute path then [] else cwd) (segments path)

/-- The location is a file or directory of the directory itself. -/
def DirectlyIn (dir location : Location) : Prop := ∃ name, location = dir ++ [name]

/-- The location is the directory or lies anywhere below it. -/
def Under (dir location : Location) : Prop := dir <+: location

instance (dir location : Location) : Decidable (Under dir location) :=
  inferInstanceAs (Decidable (dir <+: location))

/-- A segment that goes down. -/
def Named (segment : String) : Prop := segment ≠ "" ∧ segment ≠ "." ∧ segment ≠ ".."

theorem enter_of_named {segment : String} (h : Named segment) (here : Location) :
    enter here segment = here ++ [segment] := by
  simp [enter, h.1, h.2.1, h.2.2]

theorem walk_append (here : Location) (first second : List String) :
    walk here (first ++ second) = walk (walk here first) second := List.foldl_append

theorem walk_of_named {names : List String} (h : ∀ name ∈ names, Named name) (here : Location) :
    walk here names = here ++ names := by
  induction names generalizing here with
  | nil => exact (List.append_nil here).symm
  | cons name rest ih =>
      have hfirst := enter_of_named (h name List.mem_cons_self) here
      have hrest := ih (fun other hother => h other (List.mem_cons_of_mem name hother))
        (here ++ [name])
      calc walk here (name :: rest) = walk (enter here name) rest := rfl
        _ = here ++ [name] ++ rest := by rw [hfirst, hrest]
        _ = here ++ name :: rest := by rw [List.append_assoc, List.singleton_append]

/-! ### Segments -/

theorem segments_append_separator (first second : String) :
    segments (first ++ "/" ++ second) = segments first ++ segments second := by
  have hlist : (first ++ "/" ++ second).toList = first.toList ++ '/' :: second.toList := by simp
  rw [segments, Text.splitOn, hlist, List.splitOnP_append_cons _ _ (by rfl), List.map_append]
  rfl

theorem segments_eq_singleton {path : String} (h : '/' ∉ path.toList) : segments path = [path] := by
  have hnone : ∀ c ∈ path.toList, isSeparator c = false := by
    intro c hc
    simpa [isSeparator] using fun hslash : c = '/' => h (hslash ▸ hc)
  rw [segments, Text.splitOn, List.splitOnP_eq_singleton hnone, List.map_singleton,
    String.ofList_toList]

/-- Names put together with separators fall apart again. -/
theorem segments_join {names : List String} (h : ∀ name ∈ names, '/' ∉ name.toList)
    (hne : names ≠ []) : segments (Text.join names "/") = names := by
  have hsplit : (['/'].intercalate (names.map String.toList)).splitOn '/' =
      names.map String.toList :=
    List.splitOn_intercalate '/' (by simpa using h) (by simpa using hne)
  have hlist : (Text.join names "/").toList = ['/'].intercalate (names.map String.toList) :=
    String.toList_intercalate
  rw [segments, Text.splitOn, hlist]
  change (List.splitOn '/' _).map String.ofList = names
  rw [hsplit, List.map_map]
  simp

theorem isAbsolute_eq_false {path : String} (h : '/' ∉ path.toList) : isAbsolute path = false := by
  cases hlist : path.toList with
  | nil => simp [isAbsolute, hlist]
  | cons c rest =>
      rw [hlist] at h
      simpa [isAbsolute, hlist] using fun hslash : c = '/' => h (hslash ▸ List.mem_cons_self)

theorem isAbsolute_append {first : String} (h : first ≠ "") (second : String) :
    isAbsolute (first ++ second) = isAbsolute first := by
  cases hlist : first.toList with
  | nil => exact absurd (String.toList_eq_nil_iff.mp hlist) h
  | cons c rest => simp [isAbsolute, hlist]

/-- What stands behind the last separator of a path that has one. -/
theorem exists_last_segment {path : String} (h : '/' ∈ path.toList) :
    ∃ leading last, path = leading ++ "/" ++ last ∧ '/' ∉ last.toList := by
  obtain ⟨last, leading, hsplit, hnone⟩ := List.eq_append_cons_of_mem (List.mem_reverse.mpr h)
  refine ⟨String.ofList leading.reverse, String.ofList last.reverse, ?_, by simpa using hnone⟩
  apply String.toList_inj.mp
  simpa using congrArg List.reverse hsplit

/-! ### Joins -/

/-- A join leads where the second path leads from the first. -/
theorem locate_join (cwd : Location) (base path : String) :
    locate cwd (join base path) =
      walk (if isAbsolute path then [] else locate cwd base) (segments path) := by
  cases habsolute : isAbsolute path with
  | true => simp [join, locate, habsolute]
  | false =>
      simp only [join, habsolute, Bool.false_eq_true, if_false]
      by_cases hempty : base = ""
      · subst hempty
        have hhere : locate cwd "" = cwd := rfl
        have hjoined : (if ("".isEmpty || "".toList.getLast? == some '/') = true then "" ++ path
            else "" ++ "/" ++ path) = path := String.empty_append
        rw [hhere, hjoined, locate, habsolute]
        rfl
      · by_cases hends : base.toList.getLast? = some '/'
        · obtain ⟨leading, hleading⟩ := List.getLast?_eq_some_iff.mp hends
          have hbase : base = String.ofList leading ++ "/" ++ "" := by
            apply String.toList_inj.mp
            simpa using hleading
          have hpath : base ++ path = String.ofList leading ++ "/" ++ path := by
            rw [hbase, String.append_empty]
          simp only [hends, beq_self_eq_true, Bool.or_true, if_true]
          have hsegments : segments base = segments (String.ofList leading) ++ [""] := by
            rw [hbase, segments_append_separator]
            rfl
          rw [locate, locate, isAbsolute_append hempty, hpath, segments_append_separator, hsegments,
            walk_append, walk_append]
          rfl
        · have hplain : (base.isEmpty || base.toList.getLast? == some '/') = false := by
            simp [hempty, hends]
          have hslash : base ++ "/" ≠ "" := by
            intro h
            have hlist := congrArg String.toList h
            simp at hlist
          simp only [hplain, Bool.false_eq_true, if_false]
          rw [locate, locate, isAbsolute_append hslash, isAbsolute_append hempty,
            segments_append_separator, walk_append]

/-- Names behind a path lead down from where it leads. -/
theorem locate_join_names {names : List String}
    (h : ∀ name ∈ names, Named name ∧ '/' ∉ name.toList) (cwd : Location) (base : String) :
    locate cwd (join base (Text.join names "/")) = locate cwd base ++ names := by
  cases names with
  | nil =>
      rw [locate_join]
      exact (List.append_nil _).symm
  | cons first rest =>
      have hrelative : isAbsolute (Text.join (first :: rest) "/") = false := by
        have hfirst := h first List.mem_cons_self
        cases rest with
        | nil =>
            rw [Text.join, String.intercalate_singleton]
            exact isAbsolute_eq_false hfirst.2
        | cons second others =>
            have hjoin : Text.join (first :: second :: others) "/" =
                first ++ ("/" ++ Text.join (second :: others) "/") := by
              rw [Text.join, String.intercalate_cons_cons, String.append_assoc]
              rfl
            rw [hjoin, isAbsolute_append hfirst.1.1]
            exact isAbsolute_eq_false hfirst.2
      rw [locate_join, hrelative, segments_join (fun name hname => (h name hname).2)
        (List.cons_ne_nil _ _)]
      exact walk_of_named (fun name hname => (h name hname).1) _

theorem not_mem_join {c : Char} {base path : String} (hc : c ≠ '/') (hbase : c ∉ base.toList)
    (hpath : c ∉ path.toList) : c ∉ (join base path).toList := by
  unfold join
  split
  · exact hpath
  · split
    · simp [hbase, hpath]
    · simp [hbase, hpath, hc]

theorem join_ne_empty {base path : String} (h : path ≠ "") : join base path ≠ "" := by
  unfold join
  split
  · exact h
  · split <;> simp [h]

end Paths
