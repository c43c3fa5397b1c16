import Liz.Executor.Workspace
import Mathlib.Algebra.GroupWithZero.Nat

/-!
# What the workspace tools touch

A tool that returns has touched what its path leads to, and what lies below. There are two ways out.
A file is written after the directories on its way, which are made where they are missing. And a
search opens the files it has found by their displayed paths, in which a backslash of a name has
become a separator.
-/

namespace Liz

open Paths FileTree Program

namespace Workspace

/-! ### Displayed paths -/

/-- Names one of which is not displayed as it is. -/
def Misread (names : List FileName) : Prop := ∃ name ∈ names, '\\' ∈ name.text.toList

theorem relativeDisplay_of_not_misread {names : List FileName} (h : ¬ Misread names) :
    relativeDisplay names = Text.join (names.map FileName.text) "/" := by
  have hclean : '\\' ∉ (Text.join (names.map FileName.text) "/").toList := by
    apply Text.not_mem_join
    · intro part hpart
      obtain ⟨name, hname, rfl⟩ := List.mem_map.mp hpart
      exact fun hback => h ⟨name, hname, hback⟩
    · decide
  have hpattern : "\\" = String.singleton '\\' := by decide
  rw [relativeDisplay, hpattern]
  exact Text.replace_of_not_mem hclean "/"

theorem locate_relativeDisplay {names : List FileName} (h : ¬ Misread names) (cwd : Location)
    (root : String) :
    locate cwd (join root (relativeDisplay names)) =
      locate cwd root ++ names.map FileName.text := by
  rw [relativeDisplay_of_not_misread h]
  apply locate_join_names
  intro text htext
  obtain ⟨name, _, rfl⟩ := List.mem_map.mp htext
  exact ⟨name.named, name.noSeparator⟩

theorem under_append {dir location : Location} (h : Under dir location) (names : List String) :
    Under dir (location ++ names) := List.IsPrefix.trans h (List.prefix_append _ _)

/-- Entries of a directory lie below it. -/
theorem allUnder_below {dir location : Location} (h : Under dir location) (kind : AccessKind)
    (found : List (List FileName)) :
    AllUnder dir (found.map fun names => ⟨kind, location ++ names.map FileName.text⟩) := by
  intro access haccess
  obtain ⟨names, _, rfl⟩ := List.mem_map.mp haccess
  exact under_append h _

/-! ### Steps the tools share -/

@[simp] theorem wp_orFail {α : Type} (code doing : String) (p : FileM α) (Q : α → Session → Prop)
    (s : Session) : wp (orFail code doing p) Q (fun _ _ => True) s ↔ wp p Q (fun _ _ => True) s := by
  rw [orFail, wp_adaptExcept]

theorem wp_ensureDirectory (path : String) (s : Session) :
    wp (ensureDirectory path) (fun _ t => t = s) (fun _ _ => True) s := by
  unfold ensureDirectory
  rw [wp_bind, wp_get]
  split
  next => trivial
  next =>
    split
    next => trivial
    next => rfl

theorem wp_ensureFile (path : String) (s : Session) :
    wp (ensureFile path) (fun _ t => t = s ∧ s.isFile path = true) (fun _ _ => True) s := by
  unfold ensureFile
  rw [wp_bind, wp_get]
  split
  next => trivial
  next =>
    split
    next => trivial
    next hfile => exact ⟨rfl, by simpa using hfile⟩

/-- The tools that walk through a directory fail if there is none at their root. -/
theorem wp_openDirectory {α : Type} {root code doing : String} {kind : AccessKind} {s : Session}
    {next : Location × Entries → WorkspaceM α} {Q : α → Session → Prop}
    {E : RuntimeError → Session → Prop}
    (hdir : ∀ entries, s.nodeAt root = .ok (.dir entries) →
      wp (next (locate s.cwd root, entries)) Q E (s.noted kind (locate s.cwd root)))
    (hother : (∀ entries, s.nodeAt root ≠ .ok (.dir entries)) → ∀ e, E e s) :
    wp (do ensureDirectory root; let found ← orFail code doing (readDir kind root); next found)
      Q E s := by
  rw [wp_bind, ensureDirectory, wp_bind, wp_get]
  split
  next habsent =>
    refine hother (fun entries hnode => ?_) _
    simp [Session.pathExists, hnode] at habsent
  next =>
    split
    next hnone =>
      refine hother (fun entries hnode => ?_) _
      simp [Session.isDir, hnode] at hnone
    next hsome =>
      obtain ⟨entries, hnode⟩ : ∃ entries, s.nodeAt root = .ok (.dir entries) := by
        unfold Session.isDir at hsome
        split at hsome
        next entries hnode => exact ⟨entries, hnode⟩
        next => simp at hsome
      rw [wp_pure, wp_bind, orFail, wp_adaptExcept]
      obtain ⟨location, hresolve, hlookup⟩ := Session.exists_of_nodeAt hnode
      obtain rfl := resolve_eq hresolve
      simp only [readDir, wp_bind, wp_get, hresolve, hlookup, wp_set, wp_pure]
      exact hdir entries hnode

/-! ### Listing -/

theorem wp_list (dir : Location) (root : String) (recursive includeHidden : Bool)
    (maxEntries : Option Nat) (s : Session) :
    wp (list root recursive includeHidden maxEntries) (fun _ t => ∃ more, Touches more s t ∧
      (AllUnder dir more ↔ Under dir (locate s.cwd root))) (fun _ _ => True) s := by
  unfold list
  rw [wp_bind]
  refine wp_mono (wp_ensureDirectory root s) ?_ (fun _ _ h => h)
  rintro _ s rfl
  rw [wp_bind, wp_orFail]
  refine wp_mono (wp_readDir .listed root _) ?_ (fun _ _ _ => trivial)
  rintro ⟨location, entries⟩ _ ⟨hlocation, _, rfl⟩
  obtain rfl : location = _ := hlocation
  simp only [wp_bind, wp_modify, wp_pure]
  refine ⟨_, (Touches.noted _ _ _).trans (Touches.notedAll _ _), ?_⟩
  rw [allUnder_append, allUnder_cons]
  constructor
  · exact fun h => h.1.1
  · exact fun h => ⟨⟨h, allUnder_nil dir⟩, allUnder_below h _ _⟩

/-! ### Searching -/

/-- How many lines of a file a query finds. -/
def hitsIn (s : Session) (query : Query) (root file : String) : Nat :=
  match s.textAt (join root file) with
  | some content => (Text.lines content).countP query.matchesLine
  | none => 0

/-- The lines found add up until there are enough. -/
theorem length_searchLines (query : Query) (file : String) (number : Nat) (lines : List String)
    (found : Found) (h : found.hits.length < query.maxResults) :
    (searchLines query file number lines found).hits.length =
      min query.maxResults (found.hits.length + lines.countP query.matchesLine) := by
  induction lines generalizing number found with
  | nil =>
      rw [searchLines, List.countP_nil]
      omega
  | cons line rest ih =>
      rw [searchLines]
      by_cases hmatch : query.matchesLine line = true
      · rw [if_pos hmatch, List.countP_cons_of_pos hmatch]
        dsimp only
        by_cases henough : query.maxResults ≤ (found.hits ++ [WorkspaceSearchMatch.mk file number line]).length
        · rw [if_pos henough]
          dsimp only
          rw [List.length_append, List.length_singleton] at henough ⊢
          omega
        · rw [if_neg henough, ih _ _ (not_le.mp henough)]
          dsimp only
          rw [List.length_append, List.length_singleton]
          omega
      · rw [if_neg hmatch, List.countP_cons_of_neg hmatch]
        exact ih _ _ h

/-- A property of every element and what stands before it, along a list. -/
theorem forall_split_cons {α : Type} {P : List α → α → Prop} {first : α} {rest : List α} :
    (∀ before x after, first :: rest = before ++ x :: after → P before x) ↔
      P [] first ∧ ∀ before x after, rest = before ++ x :: after → P (first :: before) x := by
  constructor
  · intro h
    refine ⟨h [] first rest rfl, fun before x after hsplit => ?_⟩
    exact h (first :: before) x after (by rw [hsplit, List.cons_append])
  · rintro ⟨hfirst, hrest⟩ before x after hsplit
    cases before with
    | nil =>
        obtain ⟨rfl, rfl⟩ := List.cons.inj hsplit
        exact hfirst
    | cons y before =>
        obtain ⟨rfl, hafter⟩ := List.cons.inj hsplit
        exact hrest before x after hafter

/-- The files that are opened before there are results enough lie under the directory; `count` have
been found already. -/
def OpensUnder (dir : Location) (s : Session) (query : Query) (root : String) (count : Nat)
    (files : List String) : Prop :=
  ∀ before file after, files = before ++ file :: after →
    count + (before.map (hitsIn s query root)).sum < query.maxResults →
    s.isFile (join root file) = true → Under dir (locate s.cwd (join root file))

theorem openUnder_of_enough {dir : Location} {s : Session} {query : Query} {root : String}
    {count : Nat} (h : query.maxResults ≤ count) (files : List String) :
    OpensUnder dir s query root count files := by
  intro before file after _ hcount
  omega

/-- The first file is opened, and the others with what it has shown. -/
theorem opensUnder_cons {dir : Location} {s : Session} {query : Query} {root : String}
    {count : Nat} (h : count < query.maxResults) (file : String) (rest : List String) :
    OpensUnder dir s query root count (file :: rest) ↔
      (s.isFile (join root file) = true → Under dir (locate s.cwd (join root file))) ∧
        OpensUnder dir s query root (count + hitsIn s query root file) rest := by
  unfold OpensUnder
  rw [forall_split_cons]
  simp only [List.map_nil, List.sum_nil, Nat.add_zero, h, forall_const, List.map_cons,
    List.sum_cons, Nat.add_assoc]

/-- Only whether there are enough matters of what has been found. -/
theorem opensUnder_min {dir : Location} {s : Session} {query : Query} {root : String}
    (count : Nat) (files : List String) :
    OpensUnder dir s query root (min query.maxResults count) files ↔
      OpensUnder dir s query root count files := by
  by_cases henough : query.maxResults ≤ count
  · rw [Nat.min_eq_left henough]
    exact iff_of_true (openUnder_of_enough le_rfl files) (openUnder_of_enough henough files)
  · rw [Nat.min_eq_right (not_le.mp henough).le]

theorem touches_afterReading (s : Session) (path : String) :
    Touches (if s.isFile path then [⟨.read, locate s.cwd path⟩] else []) s (s.afterReading path) := by
  unfold Session.afterReading
  split
  next => exact Touches.noted _ _ _
  next => exact Touches.refl s

theorem allUnder_read {dir : Location} {s : Session} {path : String} :
    AllUnder dir (if s.isFile path then [⟨.read, locate s.cwd path⟩] else []) ↔
      (s.isFile path = true → Under dir (locate s.cwd path)) := by
  by_cases hfile : s.isFile path = true <;> simp [hfile]

/-- A note changes nothing of what is opened. -/
theorem opensUnder_afterReading {dir : Location} {s : Session} {path : String} {query : Query}
    {root : String} {count : Nat} {files : List String} :
    OpensUnder dir (s.afterReading path) query root count files ↔
      OpensUnder dir s query root count files := by
  unfold Session.afterReading
  split
  next => exact Iff.rfl
  next => exact Iff.rfl

theorem wp_searchFiles (dir : Location) (query : Query) (root : String) (files : List String)
    (found : Found) (s : Session) :
    wp (searchFiles query root files found) (fun _ t => ∃ more, Touches more s t ∧
      (AllUnder dir more ↔ OpensUnder dir s query root found.hits.length files))
      (fun _ _ => True) s := by
  induction files generalizing found s with
  | nil => exact ⟨[], Touches.refl s, by simp [OpensUnder]⟩
  | cons file rest ih =>
      rw [searchFiles]
      split
      next henough =>
        exact ⟨[], Touches.refl s, iff_of_true (allUnder_nil dir) (openUnder_of_enough henough _)⟩
      next hmore =>
        have hlength := not_le.mp hmore
        -- what the rest touches comes behind the note of the file
        have hrest : ∀ found' : Found, found'.hits.length =
            min query.maxResults (found.hits.length + hitsIn s query root file) →
            wp (searchFiles query root rest found') (fun _ t => ∃ more, Touches more s t ∧
              (AllUnder dir more ↔ OpensUnder dir s query root found.hits.length (file :: rest)))
              (fun _ _ => True) (s.afterReading (join root file)) := by
          intro found' hfound'
          refine wp_mono (ih found' _) ?_ (fun _ _ h => h)
          rintro _ t ⟨more, htouches, hunder⟩
          refine ⟨_, (touches_afterReading s _).trans htouches, ?_⟩
          rw [allUnder_append, allUnder_read, hunder, hfound', opensUnder_min,
            opensUnder_afterReading, opensUnder_cons hlength]
        rw [wp_bind, wp_attempt]
        refine wp_mono (wp_readToString (join root file) s) ?_ ?_
        · rintro content _ ⟨htext, rfl⟩
          apply hrest
          rw [length_searchLines _ _ _ _ _ hlength, hitsIn, htext]
        · rintro _ _ ⟨htext, rfl⟩
          apply hrest
          rw [hitsIn, htext]
          dsimp only
          omega

/-- The files a search finds, in the order in which it opens them. -/
def filesFound (s : Session) (root : String) (includeHidden : Bool) : List (List FileName) :=
  match s.nodeAt root with
  | .ok (.dir entries) => (collectFiles includeHidden [] entries ⟨[], []⟩).files
  | _ => []

/-- The files with a backslash in a name that are opened before there are results enough lie under
the directory when they are found at all. -/
def MisreadUnder (dir : Location) (s : Session) (query : Query) (root : String)
    (files : List (List FileName)) : Prop :=
  ∀ before names after, files = before ++ names :: after → Misread names →
    ((before.map relativeDisplay).map (hitsIn s query root)).sum < query.maxResults →
    s.isFile (join root (relativeDisplay names)) = true →
    Under dir (locate s.cwd (join root (relativeDisplay names)))

/-- A name without a backslash leads below the root. -/
theorem opensUnder_iff_misread {dir : Location} {s : Session} {query : Query} {root : String}
    (hroot : Under dir (locate s.cwd root)) (files : List (List FileName)) :
    OpensUnder dir s query root 0 (files.map relativeDisplay) ↔
      MisreadUnder dir s query root files := by
  constructor
  · intro h before names after hsplit _ hcount
    refine h (before.map relativeDisplay) (relativeDisplay names) (after.map relativeDisplay) ?_ ?_
    · rw [hsplit, List.map_append, List.map_cons]
    · rwa [Nat.zero_add]
  · intro h before file after hsplit hcount hfile
    obtain ⟨first, others, rfl, rfl, hothers⟩ := List.map_eq_append_iff.mp hsplit
    obtain ⟨names, last, rfl, rfl, rfl⟩ := List.map_eq_cons_iff.mp hothers
    by_cases hnames : Misread names
    · exact h first names last rfl hnames (by rwa [Nat.zero_add] at hcount) hfile
    · rw [locate_relativeDisplay hnames]
      exact under_append hroot _

theorem wp_search (dir : Location) (root pattern : String) (caseSensitive includeHidden : Bool)
    (maxResults : Option Nat) (s : Session) :
    wp (search root pattern caseSensitive includeHidden maxResults) (fun _ t => ∃ more,
      Touches more s t ∧ (AllUnder dir more ↔ Under dir (locate s.cwd root) ∧
        MisreadUnder dir s ⟨pattern, caseSensitive, maxResults.getD usizeMax⟩ root
          (filesFound s root includeHidden))) (fun _ _ => True) s := by
  unfold search
  rw [wp_bind]
  refine wp_mono (wp_ensureDirectory root s) ?_ (fun _ _ h => h)
  rintro _ s rfl
  rw [wp_bind, wp_orFail]
  refine wp_mono (wp_readDir .searched root _) ?_ (fun _ _ _ => trivial)
  rintro ⟨location, entries⟩ _ ⟨hlocation, hentries, rfl⟩
  obtain rfl : location = _ := hlocation
  simp only [wp_bind, wp_modify]
  refine wp_mono (wp_searchFiles dir _ root _ _ _) ?_ (fun _ _ h => h)
  rintro found t ⟨more, htouches, hunder⟩
  refine ⟨_, ((Touches.noted _ _ _).trans (Touches.notedAll _ _)).trans htouches, ?_⟩
  have hfiles : filesFound s root includeHidden =
      (collectFiles includeHidden [] entries ⟨[], []⟩).files := by
    rw [filesFound, hentries]
  rw [allUnder_append, allUnder_append, allUnder_cons, hfiles]
  constructor
  · rintro ⟨⟨⟨hroot, _⟩, _⟩, hmore⟩
    exact ⟨hroot, (opensUnder_iff_misread hroot _).mp (hunder.mp hmore)⟩
  · rintro ⟨hroot, hfound⟩
    refine ⟨⟨⟨hroot, allUnder_nil dir⟩, allUnder_below hroot _ _⟩, hunder.mpr ?_⟩
    exact (opensUnder_iff_misread hroot _).mpr hfound

/-! ### Reading and writing -/

theorem wp_read (dir : Location) (path : String) (startLine endLine : Option Nat) (s : Session) :
    wp (read path startLine endLine) (fun _ t => ∃ more, Touches more s t ∧
      (AllUnder dir more ↔ Under dir (locate s.cwd path))) (fun _ _ => True) s := by
  unfold read
  rw [wp_bind]
  refine wp_mono (wp_ensureFile path s) ?_ (fun _ _ h => h)
  rintro _ s ⟨rfl, hfile⟩
  rw [wp_bind, wp_orFail]
  refine wp_mono (wp_readToString path _) ?_ (fun _ _ _ => trivial)
  rintro content _ ⟨_, rfl⟩
  refine ⟨_, touches_afterReading _ path, ?_⟩
  rw [allUnder_read]
  simp only [hfile, forall_const]

/-- The directories on the way of a path that are missing. -/
def MissingUnder (dir : Location) (s : Session) (path : String) : Prop :=
  ∀ location ∈ way (start s.cwd path) (parentComponents path),
    s.tree.isDirectory location = false → Under dir location

theorem wp_createParent (dir : Location) (path : String) (s : Session) :
    wp (createParent path) (fun _ t => ∃ more, Touches more s t ∧
      (AllUnder dir more ↔ MissingUnder dir s path)) (fun _ _ => True) s := by
  unfold createParent
  split
  next => trivial
  next =>
    rw [wp_bind, wp_get]
    exact wp_createDirs dir false (start s.cwd path) (parentComponents path) s

theorem wp_writeText (dir : Location) (path content : String) (s : Session) :
    wp (writeText path content) (fun _ t => ∃ more, Touches more s t ∧
      (AllUnder dir more ↔ Under dir (locate s.cwd path) ∧ MissingUnder dir s path))
      (fun _ _ => True) s := by
  have hmissing : MissingUnder dir (s.afterReading path) path ↔ MissingUnder dir s path := by
    unfold Session.afterReading
    split
    next => exact Iff.rfl
    next => exact Iff.rfl
  -- what follows is the same whether there has been something to read or not
  have hwrite : ∀ before : String, wp (do
      orFail "workspace_write_parent_failed" ("failed to create parent directories for " ++ path)
        (createParent path)
      orFail "workspace_write_failed" ("failed to write " ++ path)
        (write path (Bytes.ofText content))
      pure (Execution.mk (WorkspaceWriteTextResult.mk path (before != content)
        content.utf8ByteSize) before content)) (fun _ t => ∃ more, Touches more s t ∧
      (AllUnder dir more ↔ Under dir (locate s.cwd path) ∧ MissingUnder dir s path))
      (fun _ _ => True) (s.afterReading path) := by
    intro before
    rw [wp_bind, wp_orFail]
    refine wp_mono (wp_createParent dir path _) ?_ (fun _ _ h => h)
    rintro _ t ⟨made, hmade, hunder⟩
    rw [wp_bind, wp_orFail]
    refine wp_mono (wp_write path _ t) ?_ (fun _ _ _ => trivial)
    intro _ u hwritten
    have hread := touches_afterReading s path
    refine ⟨_, (hread.trans hmade).trans hwritten, ?_⟩
    rw [hmade.cwd, hread.cwd, allUnder_append, allUnder_append, allUnder_read, hunder, hmissing]
    simp only [allUnder_cons, allUnder_nil, and_true]
    constructor
    · exact fun h => ⟨h.2, h.1.2⟩
    · exact fun h => ⟨⟨fun _ => h.1, h.2⟩, h.1⟩
  unfold writeText
  rw [wp_bind, wp_attempt]
  refine wp_mono (wp_readToString path s) ?_ ?_
  · rintro text _ ⟨_, rfl⟩
    exact hwrite text
  · rintro _ _ ⟨_, rfl⟩
    exact hwrite ""

theorem wp_applyPatch (dir : Location) (path search into : String) (replaceAll : Bool)
    (s : Session) :
    wp (applyPatch path search into replaceAll) (fun _ t => ∃ more, Touches more s t ∧
      (AllUnder dir more ↔ Under dir (locate s.cwd path))) (fun _ _ => True) s := by
  unfold applyPatch
  rw [wp_bind]
  refine wp_mono (wp_ensureFile path s) ?_ (fun _ _ h => h)
  rintro _ s ⟨rfl, hfile⟩
  rw [wp_bind, wp_orFail]
  refine wp_mono (wp_readToString path _) ?_ (fun _ _ _ => trivial)
  rintro before _ ⟨_, rfl⟩
  dsimp only
  split
  next => trivial
  next =>
    rw [wp_bind, wp_orFail]
    refine wp_mono (wp_write path _ _) ?_ (fun _ _ _ => trivial)
    intro _ u hwritten
    have hread := touches_afterReading s path
    refine ⟨_, hread.trans hwritten, ?_⟩
    rw [hread.cwd, allUnder_append, allUnder_read]
    simp [hfile]

/-- A session in which these directories and files have been made, one after another. -/
def sessionOver (made : List (Location × String × Option Bytes)) : Session :=
  { tree := made.foldl (fun tree item =>
      match FileName.ofSegment item.2.1 with
      | some name => tree.put item.1 name item.2.2
      | none => tree) ⟨.nil, trivial⟩
    cwd := []
    accesses := [] }

end Workspace

end Liz
