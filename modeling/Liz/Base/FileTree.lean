import Liz.Base.Bytes
import Liz.Base.Paths
import Mathlib.Order.Basic
import Mathlib.Data.String.Basic
import Mathlib.Data.List.DropRight

/-!
# File trees

The files and directories of a machine as one tree. A directory keeps its entries in the order of
their names, so a listing in order is a walk through the tree. A path is looked up segment by
segment, and every segment but the last has to lead to a directory.
-/

namespace FileTree

open Paths

/-- The name of a file or directory. -/
structure FileName where
  text : String
  named : Named text
  noSeparator : '/' ∉ text.toList
  noNul : '\x00' ∉ text.toList

instance (segment : String) : Decidable (Named segment) :=
  inferInstanceAs (Decidable (segment ≠ "" ∧ segment ≠ "." ∧ segment ≠ ".."))

/-- A segment that may name a file. -/
def FileName.ofSegment (segment : String) : Option FileName :=
  if h : Named segment ∧ '/' ∉ segment.toList ∧ '\x00' ∉ segment.toList then
    some ⟨segment, h.1, h.2.1, h.2.2⟩
  else none

theorem FileName.text_of_ofSegment {segment : String} {name : FileName}
    (h : ofSegment segment = some name) : name.text = segment := by
  unfold ofSegment at h
  split at h
  next => exact congrArg FileName.text (Option.some.inj h).symm
  next => exact absurd h (by simp)

mutual

/-- What is found under a name. -/
inductive Node
  | file (content : Bytes)
  | dir (entries : Entries)

/-- What a directory holds. -/
inductive Entries
  | nil
  | cons (name : FileName) (node : Node) (rest : Entries)

end

namespace Entries

/-- An induction along one directory. -/
@[elab_as_elim]
theorem along {motive : Entries → Prop} (nil : motive nil)
    (cons : ∀ name node rest, motive rest → motive (cons name node rest)) :
    ∀ entries, motive entries
  | .nil => nil
  | .cons name node rest => cons name node rest (along nil cons rest)

def names : Entries → List String
  | nil => []
  | cons name _ rest => name.text :: rest.names

def find (segment : String) : Entries → Option Node
  | nil => none
  | cons name node rest => if name.text = segment then some node else rest.find segment

/-- What stands at a location. -/
def lookup : Location → Entries → Option Node
  | [], entries => some (.dir entries)
  | segment :: rest, entries =>
      match entries.find segment with
      | some (.dir children) => lookup rest children
      | some (.file content) => if rest = [] then some (.file content) else none
      | none => none

def isDirectory (location : Location) (entries : Entries) : Bool :=
  match entries.lookup location with
  | some (.dir _) => true
  | _ => false

/-- Puts a node under a name, in the place of the one that is there. -/
def put (name : FileName) (node : Node) : Entries → Entries
  | nil => cons name node nil
  | cons other found rest =>
      if other.text = name.text then cons name node rest
      else if name.text < other.text then cons name node (cons other found rest)
      else cons other found (rest.put name node)

/-- Changes the directory under a name. -/
def changeDir (segment : String) (change : Entries → Entries) : Entries → Entries
  | nil => nil
  | cons name (.dir children) rest =>
      if name.text = segment then cons name (.dir (change children)) rest
      else cons name (.dir children) (rest.changeDir segment change)
  | cons name (.file content) rest =>
      if name.text = segment then cons name (.file content) rest
      else cons name (.file content) (rest.changeDir segment change)

/-- Changes the directory at a location. -/
def changeAt (change : Entries → Entries) : Location → Entries → Entries
  | [], entries => change entries
  | segment :: rest, entries => entries.changeDir segment (changeAt change rest)

/-! ### Lookups -/

theorem find_put (name : FileName) (node : Node) (entries : Entries) (segment : String) :
    (entries.put name node).find segment =
      if name.text = segment then some node else entries.find segment := by
  induction entries using along with
  | nil => rfl
  | cons other found rest ih =>
      rw [put]
      split
      next hsame => by_cases hname : name.text = segment <;> simp [find, hsame, hname]
      next hother =>
        split
        next => rfl
        next =>
          by_cases hname : name.text = segment
          · simp [find, ih, hname, hname ▸ hother]
          · simp [find, ih, hname]

theorem find_changeDir (segment : String) (change : Entries → Entries) (entries : Entries)
    (other : String) :
    (entries.changeDir segment change).find other =
      if other = segment then
        match entries.find segment with
        | some (.dir children) => some (.dir (change children))
        | found => found
      else entries.find other := by
  induction entries using along with
  | nil => simp [changeDir, find]
  | cons name node rest ih =>
      by_cases hother : other = segment
      · subst hother
        by_cases hname : name.text = other
        · cases node <;> simp [changeDir, find, hname]
        · cases node <;> simpa [changeDir, find, hname] using ih
      · by_cases hname : name.text = segment
        · have hne : segment ≠ other := fun h => hother h.symm
          cases node <;> simp [changeDir, find, hname, hother, hne]
        · cases node <;> simp [changeDir, find, hname, hother, ih]

theorem isDirectory_cons (segment : String) (rest : Location) (entries : Entries) :
    isDirectory (segment :: rest) entries =
      match entries.find segment with
      | some (.dir children) => isDirectory rest children
      | _ => false := by
  unfold isDirectory
  rw [lookup]
  cases entries.find segment with
  | none => rfl
  | some node =>
      cases node with
      | file content => by_cases hrest : rest = [] <;> simp [hrest]
      | dir children => rfl

/-- A new directory adds itself and nothing else. -/
theorem isDirectory_changeAt_put {here : Location} {name : FileName} {entries : Entries}
    (hhere : isDirectory here entries = true) (hnew : lookup (here ++ [name.text]) entries = none)
    (location : Location) :
    isDirectory location (entries.changeAt (put name (.dir nil)) here) =
      (isDirectory location entries || decide (location = here ++ [name.text])) := by
  induction here generalizing entries location with
  | nil =>
      cases location with
      | nil => rfl
      | cons segment rest =>
          have hfree : entries.find name.text = none := by
            simp only [List.nil_append, lookup] at hnew
            split at hnew <;> simp_all
          rw [changeAt, isDirectory_cons, isDirectory_cons, find_put]
          by_cases hname : name.text = segment
          · subst hname
            rw [if_pos rfl, hfree]
            cases rest <;> simp [isDirectory, lookup, find]
          · have hne : segment ≠ name.text := fun h => hname h.symm
            simp [hname, hne]
  | cons first others ih =>
      rw [isDirectory_cons] at hhere
      cases hfound : entries.find first with
      | none => simp [hfound] at hhere
      | some node =>
          cases node with
          | file content => simp [hfound] at hhere
          | dir children =>
              simp only [hfound] at hhere
              have hbelow : lookup (others ++ [name.text]) children = none := by
                simpa [lookup, hfound] using hnew
              cases location with
              | nil => rfl
              | cons segment rest =>
                  rw [changeAt, isDirectory_cons, isDirectory_cons, find_changeDir]
                  by_cases hsegment : segment = first
                  · subst hsegment
                    simp [hfound, ih hhere hbelow rest]
                  · simp [hsegment]

end Entries

/-! ### Order -/

mutual

/-- The names increase in every directory. -/
def Node.Ordered : Node → Prop
  | .file _ => True
  | .dir entries => entries.Ordered

def Entries.Ordered : Entries → Prop
  | .nil => True
  | .cons name node rest =>
      (∀ other ∈ rest.names, name.text < other) ∧ node.Ordered ∧ rest.Ordered

end

namespace Entries

theorem mem_names_put {name : FileName} {node : Node} {entries : Entries} {other : String}
    (h : other ∈ (entries.put name node).names) : other = name.text ∨ other ∈ entries.names := by
  induction entries using along with
  | nil => exact List.mem_cons.mp h
  | cons first found rest ih =>
      rw [put] at h
      split at h
      next => exact (List.mem_cons.mp h).imp_right (List.mem_cons_of_mem _)
      next =>
        split at h
        next => exact List.mem_cons.mp h
        next =>
          rcases List.mem_cons.mp h with hfirst | hrest
          · exact .inr (List.mem_cons.mpr (.inl hfirst))
          · exact (ih hrest).imp_right (List.mem_cons_of_mem _)

theorem names_changeDir (segment : String) (change : Entries → Entries) (entries : Entries) :
    (entries.changeDir segment change).names = entries.names := by
  induction entries using along with
  | nil => rfl
  | cons name node rest ih =>
      cases node <;> rw [changeDir] <;> split <;> simp [names, ih]

theorem ordered_put {name : FileName} {node : Node} {entries : Entries} (hnode : node.Ordered)
    (h : entries.Ordered) : (entries.put name node).Ordered := by
  induction entries using along with
  | nil => simp [put, Ordered, names, hnode]
  | cons first found rest ih =>
      obtain ⟨hfirst, hfound, hrest⟩ := h
      rw [put]
      split
      next hsame => exact ⟨hsame ▸ hfirst, hnode, hrest⟩
      next hother =>
        split
        next hbefore =>
          refine ⟨fun other hmem => ?_, hnode, hfirst, hfound, hrest⟩
          rcases List.mem_cons.mp hmem with rfl | hmem
          · exact hbefore
          · exact hbefore.trans (hfirst other hmem)
        next hafter =>
          refine ⟨fun other hmem => ?_, hfound, ih hrest⟩
          rcases mem_names_put hmem with rfl | hmem
          · exact lt_of_le_of_ne (not_lt.mp hafter) hother
          · exact hfirst other hmem

theorem ordered_changeDir {segment : String} {change : Entries → Entries} {entries : Entries}
    (hchange : ∀ children : Entries, children.Ordered → (change children).Ordered)
    (h : entries.Ordered) : (entries.changeDir segment change).Ordered := by
  induction entries using along with
  | nil => exact h
  | cons name node rest ih =>
      obtain ⟨hfirst, hnode, hrest⟩ := h
      cases node with
      | file content =>
          rw [changeDir]
          split
          next => exact ⟨hfirst, hnode, hrest⟩
          next => exact ⟨names_changeDir segment change rest ▸ hfirst, hnode, ih hrest⟩
      | dir children =>
          rw [changeDir]
          split
          next => exact ⟨hfirst, hchange children hnode, hrest⟩
          next => exact ⟨names_changeDir segment change rest ▸ hfirst, hnode, ih hrest⟩

theorem ordered_changeAt {change : Entries → Entries} {location : Location} {entries : Entries}
    (hchange : ∀ children : Entries, children.Ordered → (change children).Ordered)
    (h : entries.Ordered) : (entries.changeAt change location).Ordered := by
  induction location generalizing entries with
  | nil => exact hchange entries h
  | cons segment rest ih => exact ordered_changeDir (fun children => ih) h

end Entries

theorem Entries.mem_names_of_find {segment : String} {entries : Entries} {node : Node}
    (h : entries.find segment = some node) : segment ∈ entries.names := by
  induction entries using Entries.along with
  | nil => cases h
  | cons name found rest ih =>
      rw [find] at h
      split at h
      next hname => exact hname ▸ List.mem_cons_self
      next => exact List.mem_cons_of_mem _ (ih h)

/-- What is found in an ordered directory is ordered. -/
theorem Entries.ordered_of_find {segment : String} {entries : Entries} {node : Node}
    (h : entries.Ordered) (hfind : entries.find segment = some node) : node.Ordered := by
  induction entries using Entries.along with
  | nil => cases hfind
  | cons name found rest ih =>
      obtain ⟨-, hfound, hrest⟩ := h
      rw [find] at hfind
      split at hfind
      · rwa [← Option.some.inj hfind]
      · exact ih hrest hfind

theorem Entries.ordered_of_lookup {location : Location} {entries children : Entries}
    (h : entries.Ordered) (hlookup : entries.lookup location = some (.dir children)) :
    children.Ordered := by
  induction location generalizing entries with
  | nil => rwa [← Node.dir.inj (Option.some.inj hlookup)]
  | cons segment rest ih =>
      rw [lookup] at hlookup
      split at hlookup
      next found hfound => exact ih (ordered_of_find h hfound) hlookup
      next => split at hlookup <;> cases hlookup
      next => cases hlookup

/-! ### The files of a directory -/

section Files

variable (skip : FileName → Bool)

mutual

def Node.files (names : List FileName) : Node → List (List FileName × Bytes)
  | .file content => [(names, content)]
  | .dir entries => entries.files names

/-- The files below a directory as a walk comes to them, except for what stands under a name that is
skipped. Each comes with the names that lead to it behind `names`. -/
def Entries.files (names : List FileName) : Entries → List (List FileName × Bytes)
  | .nil => []
  | .cons name node rest =>
      if skip name then rest.files names
      else node.files (names ++ [name]) ++ rest.files names

end

/-- What stands at a location below a node. -/
def Node.lookup (location : Location) : Node → Option Node
  | .dir entries => entries.lookup location
  | .file content => if location = [] then some (.file content) else none

theorem Entries.lookup_cons (segment : String) (rest : Location) (entries : Entries) :
    entries.lookup (segment :: rest) = (entries.find segment).bind (Node.lookup rest) := by
  rw [lookup]
  cases entries.find segment with
  | none => rfl
  | some node => cases node <;> rfl

/-- What stands below a directory is looked up from there. -/
theorem Entries.lookup_append {location : Location} {entries children : Entries}
    (h : entries.lookup location = some (.dir children)) (rest : Location) :
    entries.lookup (location ++ rest) = children.lookup rest := by
  induction location generalizing entries with
  | nil => rw [Node.dir.inj (Option.some.inj h), List.nil_append]
  | cons segment below ih =>
      rw [lookup_cons] at h
      rw [List.cons_append, lookup_cons]
      cases hfound : entries.find segment with
      | none => simp [hfound] at h
      | some node =>
          rw [hfound, Option.bind_some] at h
          rw [Option.bind_some]
          cases node with
          | file content => simp [Node.lookup] at h
          | dir others => exact ih h

variable {skip}

mutual

theorem Node.exists_of_mem_files {names : List FileName} {node : Node}
    {file : List FileName × Bytes} (hordered : node.Ordered) (h : file ∈ node.files skip names) :
    ∃ below, file.1 = names ++ below ∧
      node.lookup (below.map FileName.text) = some (.file file.2) := by
  cases node with
  | file content =>
      obtain rfl := List.mem_singleton.mp h
      exact ⟨[], (List.append_nil names).symm, rfl⟩
  | dir entries =>
      obtain ⟨name, below, hpath, -, hlookup⟩ := Entries.exists_of_mem_files hordered h
      exact ⟨name :: below, hpath, hlookup⟩

/-- A file is found where its names lead. -/
theorem Entries.exists_of_mem_files {names : List FileName} {entries : Entries}
    {file : List FileName × Bytes} (hordered : entries.Ordered)
    (h : file ∈ entries.files skip names) :
    ∃ name below, file.1 = names ++ name :: below ∧ name.text ∈ entries.names ∧
      entries.lookup ((name :: below).map FileName.text) = some (.file file.2) := by
  cases entries with
  | nil => exact absurd h List.not_mem_nil
  | cons name node rest =>
      obtain ⟨hfirst, hnode, hrest⟩ := hordered
      have hlater : file ∈ rest.files skip names → ∃ name' below,
          file.1 = names ++ name' :: below ∧ name'.text ∈ (Entries.cons name node rest).names ∧
            (Entries.cons name node rest).lookup ((name' :: below).map FileName.text) =
              some (.file file.2) := by
        intro hmem
        obtain ⟨name', below, hpath, hname, hlookup⟩ := Entries.exists_of_mem_files hrest hmem
        refine ⟨name', below, hpath, List.mem_cons_of_mem _ hname, ?_⟩
        rw [List.map_cons, Entries.lookup_cons] at hlookup ⊢
        rwa [Entries.find, if_neg (hfirst _ hname).ne]
      rw [Entries.files] at h
      split at h
      · exact hlater h
      · rcases List.mem_append.mp h with hhere | hmem
        · obtain ⟨below, hpath, hlookup⟩ := Node.exists_of_mem_files hnode hhere
          refine ⟨name, below, by rw [hpath, List.append_assoc]; rfl, List.mem_cons_self, ?_⟩
          rw [List.map_cons, Entries.lookup_cons, Entries.find, if_pos rfl]
          exact hlookup
        · exact hlater hmem

end

/-- One file comes before another: at the first name in which they differ, its own is smaller. -/
def Before (file other : List FileName) : Prop :=
  List.Lex (· < ·) (file.map FileName.text) (other.map FileName.text)

theorem Before.asymm {file other : List FileName} (h : Before file other) : ¬ Before other file :=
  fun h' => List.lt_asymm h h'

mutual

theorem Node.pairwise_files {node : Node} (hordered : node.Ordered) (names : List FileName) :
    (node.files skip names).Pairwise fun file other => Before file.1 other.1 := by
  cases node with
  | file content => exact List.pairwise_singleton _ _
  | dir entries => exact Entries.pairwise_files hordered names

/-- A walk comes to the files in the order of their names. -/
theorem Entries.pairwise_files {entries : Entries} (hordered : entries.Ordered)
    (names : List FileName) :
    (entries.files skip names).Pairwise fun file other => Before file.1 other.1 := by
  cases entries with
  | nil => exact List.Pairwise.nil
  | cons name node rest =>
      obtain ⟨hfirst, hnode, hrest⟩ := hordered
      rw [Entries.files]
      split
      · exact Entries.pairwise_files hrest names
      · refine List.pairwise_append.mpr ⟨Node.pairwise_files hnode _,
          Entries.pairwise_files hrest names, fun file hfile other hother => ?_⟩
        obtain ⟨below, hpath, -⟩ := Node.exists_of_mem_files hnode hfile
        obtain ⟨name', below', hpath', hname', -⟩ := Entries.exists_of_mem_files hrest hother
        have hbefore := List.Lex.append_left (· < ·) (@List.Lex.rel _ (· < ·) name.text
          (below.map FileName.text) name'.text (below'.map FileName.text) (hfirst _ hname'))
          (names.map FileName.text)
        simpa [Before, hpath, hpath'] using hbefore

end

end Files

/-! ### Changes -/

theorem Entries.lookup_changeAt {change : Entries → Entries} {here : Location}
    {entries children : Entries} (h : entries.lookup here = some (.dir children)) (rest : Location) :
    (entries.changeAt change here).lookup (here ++ rest) = (change children).lookup rest := by
  induction here generalizing entries with
  | nil => rw [Node.dir.inj (Option.some.inj h), List.nil_append, changeAt]
  | cons segment below ih =>
      rw [lookup_cons] at h
      rw [List.cons_append, lookup_cons, changeAt, find_changeDir, if_pos rfl]
      cases hfound : entries.find segment with
      | none => simp [hfound] at h
      | some node =>
          rw [hfound, Option.bind_some] at h
          cases node with
          | file content => simp [Node.lookup] at h
          | dir others => exact ih h

/-- A file that is put where there is no directory changes no directory. -/
theorem Entries.isDirectory_changeAt_file {here : Location} {name : FileName} {content : Bytes}
    {entries : Entries} (hhere : isDirectory here entries = true)
    (hfree : isDirectory (here ++ [name.text]) entries = false) (location : Location) :
    isDirectory location (entries.changeAt (put name (.file content)) here) =
      isDirectory location entries := by
  induction here generalizing entries location with
  | nil =>
      cases location with
      | nil => rfl
      | cons segment rest =>
          rw [changeAt, isDirectory_cons, isDirectory_cons, find_put]
          by_cases hname : name.text = segment
          · subst hname
            rw [if_pos rfl]
            rw [List.nil_append, isDirectory_cons] at hfree
            cases hfound : entries.find name.text with
            | none => rfl
            | some node =>
                cases node with
                | file content => rfl
                | dir children => simp [hfound, isDirectory, lookup] at hfree
          · rw [if_neg hname]
  | cons first others ih =>
      rw [isDirectory_cons] at hhere
      cases hfound : entries.find first with
      | none => simp [hfound] at hhere
      | some node =>
          cases node with
          | file content => simp [hfound] at hhere
          | dir children =>
              simp only [hfound] at hhere
              have hbelow : isDirectory (others ++ [name.text]) children = false := by
                simpa [isDirectory_cons, hfound] using hfree
              cases location with
              | nil => rfl
              | cons segment rest =>
                  rw [changeAt, isDirectory_cons, isDirectory_cons, find_changeDir]
                  by_cases hsegment : segment = first
                  · subst hsegment
                    simp [hfound, ih hhere hbelow rest]
                  · simp [hsegment]

/-! ### Spelled paths -/

/-- The path below a directory that the names spell. -/
def spelled (names : List FileName) : String := Text.join (names.map FileName.text) "/"

theorem toList_spelled_cons (name : FileName) (rest : List FileName) :
    (spelled (name :: rest)).toList =
      name.text.toList ++ if rest = [] then [] else '/' :: (spelled rest).toList := by
  have hlist : ∀ names : List FileName, (spelled names).toList =
      ['/'].intercalate ((names.map FileName.text).map String.toList) := fun _ =>
    String.toList_intercalate
  cases rest with
  | nil => simp [hlist]
  | cons next rest => simp [hlist, List.intercalate]

theorem isAbsolute_spelled {names : List FileName} (hne : names ≠ []) :
    isAbsolute (spelled names) = false := by
  obtain ⟨name, rest, rfl⟩ := List.exists_cons_of_ne_nil hne
  have hfirst : name.text.toList ≠ [] := by simpa using name.named.1
  rw [isAbsolute, toList_spelled_cons, List.head?_append_of_ne_nil _ hfirst]
  have hhead := List.head_mem hfirst
  rw [List.head?_eq_some_head hfirst]
  simpa using fun heq : name.text.toList.head hfirst = '/' => name.noSeparator (heq ▸ hhead)

theorem segments_spelled {names : List FileName} (hne : names ≠ []) :
    segments (spelled names) = names.map FileName.text := by
  refine segments_join (fun text htext => ?_) (by simpa using hne)
  obtain ⟨name, -, rfl⟩ := List.mem_map.mp htext
  exact name.noSeparator

theorem not_mem_spelled {c : Char} {names : List FileName} (hc : c ≠ '/')
    (h : ∀ name ∈ names, c ∉ name.text.toList) : c ∉ (spelled names).toList := by
  apply Text.not_mem_join
  · intro part hpart
    obtain ⟨name, hname, rfl⟩ := List.mem_map.mp hpart
    exact h name hname
  · simpa using hc

/-- A character taken for a separator. -/
def misread (c : Char) (path : List Char) : List Char := path.map fun x => if x = c then '/' else x

theorem misread_of_not_mem {c : Char} {path : List Char} (h : c ∉ path) : misread c path = path := by
  have hsame : ∀ x ∈ path, (if x = c then '/' else x) = id x := fun x hx =>
    if_neg fun heq : x = c => h (heq ▸ hx)
  exact (List.map_congr_left hsame).trans (List.map_id path)

theorem misread_append (c : Char) (first second : List Char) :
    misread c (first ++ second) = misread c first ++ misread c second := List.map_append

/-- Names that are spelled as the file is misread come before it. -/
theorem before_of_misread {c : Char} {file other : List FileName}
    (hc : ∃ name ∈ file, c ∈ name.text.toList) (hne : other ≠ [])
    (h : misread c (spelled file).toList = (spelled other).toList) : Before other file := by
  induction file generalizing other with
  | nil => simp at hc
  | cons name rest ih =>
      obtain ⟨name', rest', rfl⟩ := List.exists_cons_of_ne_nil hne
      have htail : misread c (if rest = [] then [] else '/' :: (spelled rest).toList) =
          if rest = [] then [] else '/' :: misread c (spelled rest).toList := by
        split
        · rfl
        · simp [misread]
      rw [toList_spelled_cons, toList_spelled_cons, misread_append, htail] at h
      by_cases hname : c ∈ name.text.toList
      · -- the name is misread, so that the other one ends where the character stands
        obtain ⟨first, last, hsplit, hfirst⟩ := List.eq_append_cons_of_mem hname
        have hclean : '/' ∉ first := fun hmem => name.noSeparator (by simp [hsplit, hmem])
        have hread : misread c (c :: last) = '/' :: misread c last := by simp [misread]
        rw [hsplit, misread_append, misread_of_not_mem hfirst, hread, List.append_assoc,
          List.cons_append] at h
        by_cases hrest' : rest' = []
        · rw [if_pos hrest', List.append_nil] at h
          exact absurd (h ▸ List.mem_append_right _ List.mem_cons_self) name'.noSeparator
        · rw [if_neg hrest', Text.append_sep_inj hclean name'.noSeparator] at h
          refine List.Lex.rel (String.lt_iff_toList_lt.mpr ?_)
          rw [← h.1, hsplit]
          simpa using List.Lex.append_left (· < ·) (List.Lex.nil (a := c) (l := last)) first
      · have hrest : rest ≠ [] := by
          rintro rfl
          simp [hname] at hc
        rw [misread_of_not_mem hname, if_neg hrest] at h
        by_cases hrest' : rest' = []
        · rw [if_pos hrest', List.append_nil] at h
          exact absurd (h ▸ List.mem_append_right _ List.mem_cons_self) name'.noSeparator
        · rw [if_neg hrest', Text.append_sep_inj name.noSeparator name'.noSeparator] at h
          have hlater : ∃ name ∈ rest, c ∈ name.text.toList := by simpa [hname] using hc
          have hsame : name'.text = name.text := String.toList_inj.mp h.1.symm
          have hbefore : Before rest' rest := ih hlater hrest' h.2
          rw [Before, List.map_cons, List.map_cons, hsame]
          exact List.Lex.cons hbefore

/-- The files and directories of a machine. -/
structure Tree where
  entries : Entries
  ordered : entries.Ordered

namespace Tree

def lookup (tree : Tree) (location : Location) : Option Node := tree.entries.lookup location

def isDirectory (tree : Tree) (location : Location) : Bool := tree.entries.isDirectory location

/-- The tree with a new directory, or with a file that holds what it should. -/
def put (tree : Tree) (here : Location) (name : FileName) (content : Option Bytes) : Tree :=
  { entries := tree.entries.changeAt
      (Entries.put name (match content with | some bytes => .file bytes | none => .dir .nil)) here
    ordered := Entries.ordered_changeAt (fun _ => Entries.ordered_put (by cases content <;> trivial))
      tree.ordered }

theorem isDirectory_iff {tree : Tree} {location : Location} :
    tree.isDirectory location = true ↔ ∃ entries, tree.lookup location = some (.dir entries) := by
  unfold isDirectory Entries.isDirectory lookup
  split
  next entries hfound => simp [hfound]
  next hfound => simpa using fun entries hdir => hfound entries hdir

end Tree

end FileTree
