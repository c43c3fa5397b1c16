import Liz.Base.FileTree
import Liz.Base.Program

/-!
# File access

What a process does with files through their paths. A relative path starts at the working directory
of the process, and every operation that gets somewhere leaves a note of where it went. There are no
links and no permissions: an operation fails only where the tree or the path is in its way.
-/

namespace FileTree

open Paths Program

/-- Why an operation fails. -/
inductive Fault
  | notFound | notDirectory | isDirectory | taken | notUtf8 | nulByte
  deriving DecidableEq, Repr

def Fault.text : Fault → String
  | notFound => "No such file or directory (os error 2)"
  | notDirectory => "Not a directory (os error 20)"
  | isDirectory => "Is a directory (os error 21)"
  | taken => "File exists (os error 17)"
  | notUtf8 => "stream did not contain valid UTF-8"
  | nulByte => "file name contained an unexpected NUL byte"

inductive AccessKind
  | listed | searched | read | written | entered
  deriving DecidableEq, Repr

structure Access where
  kind : AccessKind
  location : Location
  deriving DecidableEq, Repr

/-- The files as a process sees them, and where it has been. -/
structure Session where
  tree : Tree
  cwd : Location
  accesses : List Access

/-- Where a path starts. -/
def start (cwd : Location) (path : String) : Location := if isAbsolute path then [] else cwd

/-- A step from a directory to something that is there. -/
def step (tree : Tree) (here : Location) (segment : String) : Except Fault Location :=
  match tree.lookup here with
  | none => .error .notFound
  | some (.file _) => .error .notDirectory
  | some (.dir _) =>
      match tree.lookup (enter here segment) with
      | none => .error .notFound
      | some _ => .ok (enter here segment)

def follow (tree : Tree) : Location → List String → Except Fault Location
  | here, [] => .ok here
  | here, segment :: rest =>
      match step tree here segment with
      | .ok next => follow tree next rest
      | .error fault => .error fault

def hasNul (path : String) : Bool := path.toList.contains '\x00'

namespace Session

/-- Where an existing path leads. -/
def resolve (session : Session) (path : String) : Except Fault Location :=
  if path = "" then .error .notFound
  else if hasNul path then .error .nulByte
  else follow session.tree (start session.cwd path) (segments path)

/-- What is found at a path. -/
def nodeAt (session : Session) (path : String) : Except Fault Node :=
  match session.resolve path with
  | .error fault => .error fault
  | .ok location =>
      match session.tree.lookup location with
      | none => .error .notFound
      | some node => .ok node

def pathExists (session : Session) (path : String) : Bool :=
  match session.nodeAt path with
  | .ok _ => true
  | .error _ => false

def isDir (session : Session) (path : String) : Bool :=
  match session.nodeAt path with
  | .ok (.dir _) => true
  | _ => false

def isFile (session : Session) (path : String) : Bool :=
  match session.nodeAt path with
  | .ok (.file _) => true
  | _ => false

/-- The directory and the name of a file to be written. The last segment of the path has to name it,
and it must not be a directory. -/
def target (session : Session) (path : String) : Except Fault (Location × FileName) :=
  if path = "" then .error .notFound
  else if hasNul path then .error .nulByte
  else
    let segments := segments path
    let kept := segments.rdropWhile (· == "")
    match follow session.tree (start session.cwd path) kept.dropLast with
    | .error fault => .error fault
    | .ok here =>
        match session.tree.lookup here with
        | none => .error .notFound
        | some (.file _) => .error .notDirectory
        | some (.dir _) =>
            match kept.getLast?.bind FileName.ofSegment with
            | none => .error .isDirectory
            | some name =>
                if kept.length < segments.length then .error .isDirectory
                else
                  match session.tree.lookup (here ++ [name.text]) with
                  | some (.dir _) => .error .isDirectory
                  | _ => .ok (here, name)

def noted (session : Session) (kind : AccessKind) (location : Location) : Session :=
  { session with accesses := session.accesses ++ [⟨kind, location⟩] }

def notedAll (session : Session) (accesses : List Access) : Session :=
  { session with accesses := session.accesses ++ accesses }

end Session

/-- The names that lead to the directory of a path. -/
def parentComponents (path : String) : List String :=
  ((segments path).filter fun segment => segment ≠ "" ∧ segment ≠ ".").dropLast

/-! ### Operations -/

abbrev FileM := EStateM Fault Session

/-- The contents of a directory. -/
def readDir (kind : AccessKind) (path : String) : FileM (Location × Entries) := do
  let session ← get
  match session.resolve path with
  | .error fault => throw fault
  | .ok location =>
      match session.tree.lookup location with
      | none => throw .notFound
      | some (.file _) => throw .notDirectory
      | some (.dir entries) => do
          set (session.noted kind location)
          pure (location, entries)

/-- A file that is no text has been read all the same. -/
def readToString (path : String) : FileM String := do
  let session ← get
  match session.resolve path with
  | .error fault => throw fault
  | .ok location =>
      match session.tree.lookup location with
      | none => throw .notFound
      | some (.dir _) => throw .isDirectory
      | some (.file content) => do
          set (session.noted .read location)
          match Bytes.toText content with
          | none => throw .notUtf8
          | some text => pure text

/-- Makes the directories that are missing on the way. `made` tells whether one has been made, which
decides what is said about a file that is in the way. -/
def createDirs : Bool → Location → List String → FileM Unit
  | _, _, [] => pure ()
  | made, here, segment :: rest => do
      let session ← get
      match session.tree.lookup here with
      | none => throw .notFound
      | some (.file _) => throw .notDirectory
      | some (.dir _) =>
          let next := enter here segment
          match session.tree.lookup next with
          | some (.dir _) => createDirs made next rest
          | some (.file _) => throw (if made || rest.isEmpty then .taken else .notDirectory)
          | none =>
              match FileName.ofSegment segment with
              | none => throw .notFound
              | some name => do
                  set ({ session with tree := session.tree.put here name none }.noted .written next)
                  createDirs true next rest

/-- Makes the directory of a path with everything above it. -/
def createParent (path : String) : FileM Unit := do
  if (parentComponents path).any hasNul then throw .nulByte
  else createDirs false (start (← get).cwd path) (parentComponents path)

/-- Replaces what a file holds, or makes it. -/
def write (path : String) (content : Bytes) : FileM Unit := do
  let session ← get
  match session.target path with
  | .error fault => throw fault
  | .ok (here, name) =>
      set ({ session with tree := session.tree.put here name (some content) }.noted .written
        (here ++ [name.text]))

/-- The working directory of a new process. -/
def enterDir (path : Option String) : FileM Location := do
  let session ← get
  match path with
  | none => do
      set (session.noted .entered session.cwd)
      pure session.cwd
  | some path =>
      match session.resolve path with
      | .error fault => throw fault
      | .ok location =>
          if session.tree.isDirectory location then do
            set (session.noted .entered location)
            pure location
          else throw .notDirectory

/-! ### Where operations go -/

theorem locate_eq_walk (cwd : Location) (path : String) :
    locate cwd path = walk (start cwd path) (segments path) := rfl

theorem follow_eq {tree : Tree} {here location : Location} {path : List String}
    (h : follow tree here path = .ok location) : location = walk here path := by
  induction path generalizing here with
  | nil => exact (Except.ok.inj h).symm
  | cons segment rest ih =>
      rw [follow] at h
      split at h
      next next hstep =>
        have hnext : next = enter here segment := by
          unfold step at hstep
          split at hstep
          next => cases hstep
          next => cases hstep
          next =>
            split at hstep
            next => cases hstep
            next => exact (Except.ok.inj hstep).symm
        rw [ih h, hnext]
        rfl
      next => cases h

theorem resolve_eq {session : Session} {path : String} {location : Location}
    (h : session.resolve path = .ok location) : location = locate session.cwd path := by
  unfold Session.resolve at h
  split at h
  next => cases h
  next =>
    split at h
    next => cases h
    next => exact follow_eq h

theorem follow_append (tree : Tree) (here : Location) (first second : List String) :
    follow tree here (first ++ second) =
      match follow tree here first with
      | .ok location => follow tree location second
      | .error fault => .error fault := by
  induction first generalizing here with
  | nil => rfl
  | cons segment rest ih =>
      rw [List.cons_append, follow, follow]
      cases step tree here segment with
      | ok next => exact ih next
      | error fault => rfl

/-- Names lead down from a directory to what they are looked up as. -/
theorem follow_names {tree : Tree} {location : Location} {entries : Entries}
    {names : List FileName} {node : Node} (hdir : tree.lookup location = some (.dir entries))
    (hnode : entries.lookup (names.map FileName.text) = some node) :
    follow tree location (names.map FileName.text) = .ok (location ++ names.map FileName.text) := by
  induction names generalizing location entries with
  | nil => rw [List.map_nil, follow, List.append_nil]
  | cons name rest ih =>
      rw [List.map_cons, Entries.lookup_cons] at hnode
      obtain ⟨child, hchild, hbelow⟩ := Option.bind_eq_some_iff.mp hnode
      have hnext : tree.lookup (location ++ [name.text]) = some child := by
        rw [Tree.lookup, Entries.lookup_append hdir, Entries.lookup_cons, hchild]
        cases child <;> rfl
      have hstep : step tree location name.text = .ok (location ++ [name.text]) := by
        simp only [step, hdir, enter_of_named name.named, hnext]
      rw [List.map_cons, follow, hstep]
      dsimp only
      cases child with
      | file content =>
          have hrest : rest = [] := by
            by_contra hne
            simp [Node.lookup, hne] at hbelow
          rw [hrest]
          rfl
      | dir children =>
          rw [ih hnext hbelow, List.append_assoc]
          rfl

/-- A relative path behind another leads on from where that one leads. -/
theorem follow_join {tree : Tree} {cwd location : Location} {base path : String}
    (hpath : isAbsolute path = false) (hbase : base ≠ "")
    (h : follow tree (start cwd base) (segments base) = .ok location) :
    follow tree (start cwd (join base path)) (segments (join base path)) =
      follow tree location (segments path) := by
  have hstart : ∀ more, start cwd (base ++ more) = start cwd base := fun more => by
    rw [start, isAbsolute_append hbase, start]
  by_cases hends : base.toList.getLast? = some '/'
  · obtain ⟨leading, hleading⟩ := List.getLast?_eq_some_iff.mp hends
    have hsplit : base = String.ofList leading ++ "/" ++ "" := by
      apply String.toList_inj.mp
      simp [hleading]
    have hjoin : join base path = base ++ path := by simp [join, hpath, hends]
    have hlead : follow tree (start cwd base) (segments (String.ofList leading)) = .ok location := by
      have hempty : segments "" = [""] := rfl
      rw [hsplit, segments_append_separator, follow_append, ← hsplit, hempty] at h
      cases hlead : follow tree (start cwd base) (segments (String.ofList leading)) with
      | error fault => simp [hlead] at h
      | ok there =>
          rw [hlead] at h
          dsimp only at h
          have hthere : location = there := by
            have hwalk := follow_eq h
            simpa [walk, enter] using hwalk
          rw [hthere]
    have hsegments : segments (base ++ path) = segments (String.ofList leading) ++ segments path := by
      rw [hsplit, String.append_empty, segments_append_separator]
    rw [hjoin, hstart, hsegments, follow_append, hlead]
  · have hjoin : join base path = base ++ "/" ++ path := by simp [join, hpath, hends, hbase]
    rw [hjoin, String.append_assoc, hstart, ← String.append_assoc, segments_append_separator, follow_append, h]

theorem hasNul_eq_false_iff (path : String) : hasNul path = false ↔ '\x00' ∉ path.toList := by
  simp [hasNul]

/-- What is found at a path is where the path leads. -/
theorem Session.exists_of_nodeAt {session : Session} {path : String} {node : Node}
    (h : session.nodeAt path = .ok node) :
    ∃ location, session.resolve path = .ok location ∧ session.tree.lookup location = some node := by
  unfold Session.nodeAt at h
  split at h
  next => cases h
  next location hresolve =>
    split at h
    next => cases h
    next found hlookup =>
      obtain rfl := Except.ok.inj h
      exact ⟨location, hresolve, hlookup⟩

/-- What stands below a directory is found at its path joined to that of the directory. -/
theorem Session.nodeAt_join {session : Session} {root : String} {entries : Entries}
    {names : List FileName} {node : Node} (hroot : session.nodeAt root = .ok (.dir entries))
    (hne : names ≠ []) (hnode : entries.lookup (names.map FileName.text) = some node) :
    session.resolve (join root (spelled names)) =
        .ok (locate session.cwd root ++ names.map FileName.text) ∧
      session.nodeAt (join root (spelled names)) = .ok node := by
  obtain ⟨location, hresolve, hlookup⟩ := Session.exists_of_nodeAt hroot
  obtain rfl := resolve_eq hresolve
  have hjoined : session.resolve (join root (spelled names)) =
      .ok (locate session.cwd root ++ names.map FileName.text) := by
    have hspelled : spelled names ≠ "" := by
      intro hempty
      have hsegments := segments_spelled hne
      rw [hempty] at hsegments
      obtain ⟨name, rest, rfl⟩ := List.exists_cons_of_ne_nil hne
      exact name.named.1 (List.cons.inj hsegments).1.symm
    have hnul : hasNul root = false → hasNul (join root (spelled names)) = false := by
      rw [hasNul_eq_false_iff, hasNul_eq_false_iff]
      exact fun hbase => not_mem_join (by decide) hbase
        (not_mem_spelled (by decide) fun name _ => name.noNul)
    unfold Session.resolve at hresolve ⊢
    rw [if_neg (join_ne_empty hspelled)]
    split at hresolve
    next => cases hresolve
    next hbase =>
      split at hresolve
      next => cases hresolve
      next hclean =>
        rw [if_neg (by simpa using hnul (by simpa using hclean)),
          follow_join (isAbsolute_spelled hne) hbase hresolve, segments_spelled hne]
        exact follow_names hlookup hnode
  refine ⟨hjoined, ?_⟩
  have hbelow : session.tree.lookup (locate session.cwd root ++ names.map FileName.text) = some node := by
    rw [Tree.lookup, Entries.lookup_append hlookup, hnode]
  rw [Session.nodeAt, hjoined]
  dsimp only
  rw [hbelow]

/-- A target is the last segment of its path, in the directory that the others lead to, and no
directory stands there. -/
structure Session.IsTarget (session : Session) (path : String) (here : Location) (name : FileName) :
    Prop where
  nonempty : path ≠ ""
  noNul : hasNul path = false
  leads : ∃ before, segments path = before ++ [name.text] ∧
    follow session.tree (start session.cwd path) before = .ok here
  directory : session.tree.isDirectory here = true
  free : session.tree.isDirectory (here ++ [name.text]) = false

theorem isTarget_of_target {session : Session} {path : String} {here : Location} {name : FileName}
    (h : session.target path = .ok (here, name)) : session.IsTarget path here name := by
  unfold Session.target at h
  split at h
  next => cases h
  next hempty =>
    split at h
    next => cases h
    next hnul =>
      dsimp only at h
      split at h
      next => cases h
      next there hthere =>
        split at h
        next => cases h
        next => cases h
        next entries hentries =>
          split at h
          next => cases h
          next last hlast =>
            split at h
            next => cases h
            next hlength =>
              split at h
              next => cases h
              next hfree =>
                obtain ⟨rfl, rfl⟩ := Prod.mk.inj (Except.ok.inj h)
                have hkept : (segments path).rdropWhile (· == "") = segments path :=
                  (List.rdropWhile_prefix _ _).eq_of_length_le (not_lt.mp hlength)
                rw [hkept] at hthere hlast
                obtain ⟨segment, hsegment, hname⟩ := Option.bind_eq_some_iff.mp hlast
                obtain ⟨before, hbefore⟩ := List.getLast?_eq_some_iff.mp hsegment
                rw [hbefore, List.dropLast_concat] at hthere
                have hleads : segments path = before ++ [last.text] := by
                  rw [hbefore, FileName.text_of_ofSegment hname]
                refine ⟨hempty, Bool.eq_false_iff.mpr hnul, ⟨before, hleads, hthere⟩,
                  Tree.isDirectory_iff.mpr ⟨entries, hentries⟩, Bool.eq_false_iff.mpr ?_⟩
                intro hdir
                obtain ⟨others, hothers⟩ := Tree.isDirectory_iff.mp hdir
                exact hfree others hothers

/-- What is written stands where the path leads. -/
theorem target_eq {session : Session} {path : String} {here : Location} {name : FileName}
    (h : session.target path = .ok (here, name)) :
    here ++ [name.text] = locate session.cwd path := by
  obtain ⟨before, hsegments, hfollow⟩ := (isTarget_of_target h).leads
  rw [locate_eq_walk, hsegments, walk_append, ← follow_eq hfollow]
  exact (enter_of_named name.named here).symm

theorem step_eq_ok_iff {tree : Tree} {here next : Location} {segment : String} :
    step tree here segment = .ok next ↔ tree.isDirectory here = true ∧ next = enter here segment ∧
      ∃ node, tree.lookup next = some node := by
  rw [Tree.isDirectory_iff, step]
  cases hhere : tree.lookup here with
  | none => simp
  | some node =>
      cases node with
      | file content => simp
      | dir entries =>
          cases hnext : tree.lookup (enter here segment) with
          | none =>
              refine iff_of_false (by simp) ?_
              rintro ⟨-, rfl, node, hnode⟩
              simp [hnext] at hnode
          | some node =>
              simp only [Except.ok.injEq]
              constructor
              · rintro rfl
                exact ⟨⟨entries, rfl⟩, rfl, node, hnext⟩
              · exact fun h => h.2.1.symm

/-- What is walked from to a directory is a directory. -/
theorem isDirectory_of_follow {tree : Tree} {here location : Location} {path : List String}
    (hend : tree.isDirectory location = true) (h : follow tree here path = .ok location) :
    tree.isDirectory here = true := by
  cases path with
  | nil => rwa [Except.ok.inj h]
  | cons segment rest =>
      rw [follow] at h
      split at h
      next hstep => exact (step_eq_ok_iff.mp hstep).1
      next => cases h

/-- A walk to a directory is the same in a tree with the same directories. -/
theorem follow_of_directories {tree other : Tree} {here location : Location} {path : List String}
    (hdirs : ∀ location, other.isDirectory location = tree.isDirectory location)
    (hend : tree.isDirectory location = true) (h : follow tree here path = .ok location) :
    follow other here path = .ok location := by
  induction path generalizing here with
  | nil => exact h
  | cons segment rest ih =>
      rw [follow] at h
      split at h
      next next hstep =>
        obtain ⟨hhere, hnext, -⟩ := step_eq_ok_iff.mp hstep
        have hdir := isDirectory_of_follow hend h
        rw [← hdirs] at hhere hdir
        obtain ⟨entries, hentries⟩ := Tree.isDirectory_iff.mp hdir
        have hother : step other here segment = .ok next :=
          step_eq_ok_iff.mpr ⟨hhere, hnext, _, hentries⟩
        rw [follow, hother]
        exact ih h
      next => cases h

/-- All that has been touched is the directory or lies below it. -/
def AllUnder (dir : Location) (accesses : List Access) : Prop :=
  ∀ access ∈ accesses, Under dir access.location

@[simp] theorem allUnder_nil (dir : Location) : AllUnder dir [] := by
  simp [AllUnder]

@[simp] theorem allUnder_cons {dir : Location} {access : Access} {accesses : List Access} :
    AllUnder dir (access :: accesses) ↔ Under dir access.location ∧ AllUnder dir accesses := by
  simp [AllUnder]

@[simp] theorem allUnder_append {dir : Location} {first second : List Access} :
    AllUnder dir (first ++ second) ↔ AllUnder dir first ∧ AllUnder dir second := by
  simp only [AllUnder, List.mem_append, or_imp, forall_and]

/-- The working directory stays, and more has been touched. -/
structure Touches (more : List Access) (s t : Session) : Prop where
  cwd : t.cwd = s.cwd
  accesses : t.accesses = s.accesses ++ more

theorem Touches.refl (s : Session) : Touches [] s s := ⟨rfl, (List.append_nil _).symm⟩

theorem Touches.trans {first second : List Access} {s t u : Session} (h : Touches first s t)
    (h' : Touches second t u) : Touches (first ++ second) s u :=
  ⟨h'.cwd.trans h.cwd, by rw [h'.accesses, h.accesses, List.append_assoc]⟩

theorem Touches.noted (s : Session) (kind : AccessKind) (location : Location) :
    Touches [⟨kind, location⟩] s (s.noted kind location) := ⟨rfl, rfl⟩

theorem Touches.notedAll (s : Session) (accesses : List Access) : Touches accesses s (s.notedAll accesses) :=
  ⟨rfl, rfl⟩

/-- The text of the file at a path. -/
def Session.textAt (session : Session) (path : String) : Option String :=
  match session.nodeAt path with
  | .ok (.file content) => Bytes.toText content
  | _ => none

/-- What a file holds that a path leads to. -/
def Session.fileAt (session : Session) (path : String) : Option Bytes :=
  match session.nodeAt path with
  | .ok (.file content) => some content
  | _ => none

theorem Session.textAt_eq (session : Session) (path : String) :
    session.textAt path = (session.fileAt path).bind Bytes.toText := by
  unfold textAt fileAt
  split <;> simp_all

/-- What reading a path leaves: a note, when there is a file to read. -/
def Session.afterReading (session : Session) (path : String) : Session :=
  if session.isFile path then session.noted .read (locate session.cwd path) else session

theorem wp_readDir (kind : AccessKind) (path : String) (s : Session) :
    wp (readDir kind path) (fun found t => found.1 = locate s.cwd path ∧
      s.nodeAt path = .ok (.dir found.2) ∧ t = s.noted kind (locate s.cwd path))
      (fun _ t => t = s) s := by
  unfold readDir
  rw [wp_bind, wp_get]
  split
  next => rfl
  next location hresolve =>
    obtain rfl := resolve_eq hresolve
    split
    next => rfl
    next => rfl
    next entries hentries =>
      exact ⟨rfl, by rw [Session.nodeAt, hresolve]; simp only [hentries], rfl⟩

theorem wp_readToString (path : String) (s : Session) :
    wp (readToString path) (fun text t => s.textAt path = some text ∧ t = s.afterReading path)
      (fun _ t => s.textAt path = none ∧ t = s.afterReading path) s := by
  unfold readToString
  rw [wp_bind, wp_get]
  cases hresolve : s.resolve path with
  | error fault =>
      have hnode : s.nodeAt path = .error fault := by rw [Session.nodeAt, hresolve]
      exact ⟨by rw [Session.textAt, hnode], by simp [Session.afterReading, Session.isFile, hnode]⟩
  | ok location =>
      obtain rfl := resolve_eq hresolve
      have hnode : s.nodeAt path = match s.tree.lookup (locate s.cwd path) with
          | none => .error .notFound
          | some node => .ok node := by rw [Session.nodeAt, hresolve]
      dsimp only
      split
      next hfound =>
        rw [hfound] at hnode
        exact ⟨by rw [Session.textAt, hnode], by simp [Session.afterReading, Session.isFile, hnode]⟩
      next entries hfound =>
        rw [hfound] at hnode
        exact ⟨by rw [Session.textAt, hnode], by simp [Session.afterReading, Session.isFile, hnode]⟩
      next content hfound =>
        rw [hfound] at hnode
        have hafter : s.afterReading path = s.noted .read (locate s.cwd path) := by
          simp [Session.afterReading, Session.isFile, hnode]
        have htext : s.textAt path = Bytes.toText content := by rw [Session.textAt, hnode]
        rw [wp_bind, wp_set, hafter, htext]
        cases Bytes.toText content <;> exact ⟨rfl, rfl⟩

theorem wp_write (path : String) (content : Bytes) (s : Session) :
    wp (write path content) (fun _ t => Touches [⟨.written, locate s.cwd path⟩] s t) (fun _ t => t = s) s := by
  unfold write
  rw [wp_bind, wp_get]
  split
  next => rfl
  next here name htarget =>
    rw [wp_set, ← target_eq htarget]
    exact ⟨rfl, rfl⟩

/-- What has been written is found at the path. -/
theorem write_written (path : String) (content : Bytes) (s : Session) :
    wp (write path content) (fun _ t => t.fileAt path = some content) (fun _ t => t = s) s := by
  unfold write
  rw [wp_bind, wp_get]
  split
  next => rfl
  next here name htarget =>
    rw [wp_set]
    obtain ⟨hempty, hnul, ⟨before, hsegments, hfollow⟩, hhere, hfree⟩ := isTarget_of_target htarget
    obtain ⟨children, hchildren⟩ := Tree.isDirectory_iff.mp hhere
    have hdirs : ∀ location, (s.tree.put here name (some content)).isDirectory location =
        s.tree.isDirectory location := Entries.isDirectory_changeAt_file hhere hfree
    have hfile : (s.tree.put here name (some content)).lookup (here ++ [name.text]) =
        some (.file content) := by
      rw [Tree.lookup, Tree.put, Entries.lookup_changeAt hchildren, Entries.lookup_cons,
        Entries.find_put, if_pos rfl]
      rfl
    have hstep : step (s.tree.put here name (some content)) here name.text =
        .ok (here ++ [name.text]) :=
      step_eq_ok_iff.mpr ⟨(hdirs here).trans hhere, (enter_of_named name.named here).symm, _, hfile⟩
    have hresolve : follow (s.tree.put here name (some content)) (start s.cwd path)
        (segments path) = .ok (here ++ [name.text]) := by
      rw [hsegments, follow_append, follow_of_directories hdirs hhere hfollow]
      dsimp only
      rw [follow, hstep]
      rfl
    simp [Session.fileAt, Session.nodeAt, Session.resolve, Session.noted, hempty, hnul, hresolve,
      hfile]

theorem wp_enterDir (path : Option String) (s : Session) :
    wp (enterDir path) (fun _ t => Touches [⟨.entered, locate s.cwd (path.getD "")⟩] s t)
      (fun _ t => t = s) s := by
  unfold enterDir
  rw [wp_bind, wp_get]
  cases path with
  | none => exact ⟨rfl, rfl⟩
  | some path =>
      dsimp only
      split
      next => rfl
      next location hresolve =>
        obtain rfl := resolve_eq hresolve
        split
        next => exact ⟨rfl, rfl⟩
        next => rfl

/-! ### Missing directories -/

/-- The directories that a walk comes to. -/
def way : Location → List String → List Location
  | _, [] => []
  | here, segment :: rest => enter here segment :: way (enter here segment) rest

theorem Tree.isDirectory_put {tree : Tree} {here : Location} {name : FileName}
    (hhere : tree.isDirectory here = true) (hnew : tree.lookup (here ++ [name.text]) = none)
    (location : Location) :
    (tree.put here name none).isDirectory location =
      (tree.isDirectory location || decide (location = here ++ [name.text])) :=
  Entries.isDirectory_changeAt_put hhere hnew location

/-- The directories that are made are those on the way that are missing. -/
theorem wp_createDirs (dir : Location) (made : Bool) (here : Location) (path : List String)
    (s : Session) :
    wp (createDirs made here path) (fun _ t => ∃ more, Touches more s t ∧ (AllUnder dir more ↔
      ∀ location ∈ way here path, s.tree.isDirectory location = false → Under dir location))
      (fun _ _ => True) s := by
  induction path generalizing made here s with
  | nil => exact ⟨[], Touches.refl s, by simp [way]⟩
  | cons segment rest ih =>
      rw [createDirs, wp_bind, wp_get]
      split
      next => trivial
      next => trivial
      next entries hentries =>
        have hhere : s.tree.isDirectory here = true := Tree.isDirectory_iff.mpr ⟨entries, hentries⟩
        dsimp only
        split
        next children hnext =>
          have hthere : s.tree.isDirectory (enter here segment) = true :=
            Tree.isDirectory_iff.mpr ⟨children, hnext⟩
          simpa [way, hthere] using ih made (enter here segment) s
        next => trivial
        next hnext =>
          split
          next => trivial
          next name hname =>
            have htext := FileName.text_of_ofSegment hname
            have henter : enter here segment = here ++ [name.text] := by
              rw [htext]
              exact enter_of_named (htext ▸ name.named) here
            have hput := Tree.isDirectory_put hhere (henter ▸ hnext)
            have hmissing : s.tree.isDirectory (enter here segment) = false := by
              rw [Bool.eq_false_iff, Ne, Tree.isDirectory_iff, hnext]
              simp
            rw [wp_bind, wp_set]
            refine wp_mono (ih true (enter here segment) _) ?_ (fun _ _ h => h)
            rintro _ t ⟨more, htouches, hunder⟩
            refine ⟨⟨.written, enter here segment⟩ :: more, ⟨htouches.cwd, ?_⟩, ?_⟩
            · rw [htouches.accesses]
              exact List.append_assoc _ _ _
            · rw [allUnder_cons, hunder]
              simp only [way, List.mem_cons, forall_eq_or_imp, hmissing, forall_const]
              refine and_congr_right fun hfirst => forall₂_congr fun location _ => ?_
              change ((s.tree.put here name none).isDirectory location = false → _) ↔ _
              rw [hput location, ← henter, Bool.or_eq_false_iff, decide_eq_false_iff_not]
              constructor
              · intro h hlocation
                by_cases hsame : location = enter here segment
                · exact hsame ▸ hfirst
                · exact h ⟨hlocation, hsame⟩
              · exact fun h hlocation => h hlocation.1

end FileTree
