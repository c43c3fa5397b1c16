import Liz.Base.FileAccess
import Liz.Protocol.ToolOutputs
import Liz.Runtime.Basic

/-!
# Workspace tools

The five tools that work on files. Each takes the path of its request as it is written, relative to
the working directory of the server; neither the mount nor the thread of the call comes in.
-/

namespace Liz

open Paths FileTree Program

namespace Workspace

/-- The largest `usize`. -/
def usizeMax : Nat := 2 ^ 64 - 1

/-- A failing operation becomes an error of the runtime. -/
def orFail {α : Type} (code doing : String) (p : FileM α) : EStateM RuntimeError Session α :=
  EStateM.adaptExcept (fun fault => .invalidState code (doing ++ ": " ++ fault.text)) p

abbrev WorkspaceM := EStateM RuntimeError Session

def ensureDirectory (path : String) : WorkspaceM Unit := do
  let session ← get
  if !session.pathExists path then
    throw (.notFound "workspace_root_not_found" ("workspace root " ++ path ++ " does not exist"))
  else if !session.isDir path then
    throw (.invalidState "workspace_root_not_directory"
      ("workspace root " ++ path ++ " is not a directory"))
  else pure ()

def ensureFile (path : String) : WorkspaceM Unit := do
  let session ← get
  if !session.pathExists path then
    throw (.notFound "workspace_file_not_found" ("workspace file " ++ path ++ " does not exist"))
  else if !session.isFile path then
    throw (.invalidState "workspace_path_not_file" ("workspace path " ++ path ++ " is not a file"))
  else pure ()

/-- The path of an entry below the root, for display: a backslash in a name becomes a separator. -/
def relativeDisplay (names : List FileName) : String :=
  Text.replace (Text.join (names.map FileName.text) "/") "\\" "/"

def isHidden (name : FileName) : Bool := name.text.toList.head? == some '.'

def isDirNode : Node → Bool
  | .dir _ => true
  | .file _ => false

/-! ### Listing -/

/-- The entries listed so far, and the names that lead to them. -/
structure Listing where
  entries : List WorkspaceListEntry
  truncated : Bool
  listed : List (List FileName)

def Listing.push (listing : Listing) (names : List FileName) (node : Node) : Listing :=
  { listing with
    entries := listing.entries ++ [⟨relativeDisplay names, isDirNode node⟩]
    listed := listing.listed ++ [names] }

section

variable (recursive includeHidden : Bool) (maxEntries : Nat)

mutual

/-- Goes on below an entry that has been listed. -/
def collectBelow (names : List FileName) : Node → Listing → Listing
  | .file _, listing => listing
  | .dir children, listing => if recursive then collectEntries names children listing else listing

/-- Lists a directory; `names` lead to it from the root. -/
def collectEntries (names : List FileName) : Entries → Listing → Listing
  | .nil, listing => listing
  | .cons name node rest, listing =>
      if maxEntries ≤ listing.entries.length then { listing with truncated := true }
      else if !includeHidden && isHidden name then collectEntries names rest listing
      else
        let below := collectBelow (names ++ [name]) node (listing.push (names ++ [name]) node)
        if below.truncated then below else collectEntries names rest below

end

end

def list (root : String) (recursive includeHidden : Bool) (maxEntries : Option Nat) :
    WorkspaceM WorkspaceListResult := do
  ensureDirectory root
  let (location, entries) ← orFail "workspace_list_failed" ("failed to enumerate " ++ root)
    (readDir .listed root)
  let listing := collectEntries recursive includeHidden (maxEntries.getD usizeMax) [] entries
    ⟨[], false, []⟩
  modify fun session => session.notedAll <| listing.listed.map fun names =>
    ⟨.listed, location ++ names.map FileName.text⟩
  pure { root := root, entries := listing.entries, truncated := listing.truncated }

/-! ### Searching -/

/-- The files found so far, and everything that has been looked at. -/
structure Gathering where
  files : List (List FileName)
  searched : List (List FileName)

section

variable (includeHidden : Bool)

mutual

def collectNode (names : List FileName) : Node → Gathering → Gathering
  | .file _, gathering =>
      { files := gathering.files ++ [names], searched := gathering.searched ++ [names] }
  | .dir children, gathering =>
      collectFiles names children { gathering with searched := gathering.searched ++ [names] }

def collectFiles (names : List FileName) : Entries → Gathering → Gathering
  | .nil, gathering => gathering
  | .cons name node rest, gathering =>
      if !includeHidden && isHidden name then collectFiles names rest gathering
      else collectFiles names rest (collectNode (names ++ [name]) node gathering)

end

end

/-- What a search looks for. -/
structure Query where
  pattern : String
  caseSensitive : Bool
  maxResults : Nat

def Query.matchesLine (query : Query) (line : String) : Bool :=
  if query.caseSensitive then Text.contains line query.pattern
  else Text.containsIgnoreCase line query.pattern

structure Found where
  hits : List WorkspaceSearchMatch
  truncated : Bool

/-- Looks through the lines of a file, which has shown `found` up to here. -/
def searchLines (query : Query) (file : String) : Nat → List String → Found → Found
  | _, [], found => found
  | number, line :: rest, found =>
      if query.matchesLine line then
        let hits := found.hits ++ [⟨file, number, line⟩]
        if query.maxResults ≤ hits.length then { hits := hits, truncated := true }
        else searchLines query file (number + 1) rest { found with hits := hits }
      else searchLines query file (number + 1) rest found

/-- Opens the files by their displayed paths until there are results enough. -/
def searchFiles (query : Query) (root : String) : List String → Found → WorkspaceM Found
  | [], found => pure found
  | file :: rest, found => do
      if query.maxResults ≤ found.hits.length then pure { found with truncated := true }
      else
        match ← attempt (readToString (join root file)) with
        | .error _ => searchFiles query root rest found
        | .ok content =>
            searchFiles query root rest (searchLines query file 1 (Text.lines content) found)

def search (root pattern : String) (caseSensitive includeHidden : Bool) (maxResults : Option Nat) :
    WorkspaceM WorkspaceSearchResult := do
  ensureDirectory root
  let (location, entries) ← orFail "workspace_search_failed" ("failed to enumerate " ++ root)
    (readDir .searched root)
  let gathering := collectFiles includeHidden [] entries ⟨[], []⟩
  modify fun session => session.notedAll <| gathering.searched.map fun names =>
    ⟨.searched, location ++ names.map FileName.text⟩
  let found ← searchFiles ⟨pattern, caseSensitive, maxResults.getD usizeMax⟩ root
    (gathering.files.map relativeDisplay) ⟨[], false⟩
  pure { root := root, pattern := pattern, hits := found.hits, truncated := found.truncated }

/-! ### Reading and writing -/

def read (path : String) (startLine endLine : Option Nat) : WorkspaceM WorkspaceReadResult := do
  ensureFile path
  let content ← orFail "workspace_read_failed" ("failed to read " ++ path) (readToString path)
  let lines := Text.lines content
  let totalLines := max lines.length 1
  let startLine := max (startLine.getD 1) 1
  let endLine := max (endLine.getD (max lines.length 1)) startLine
  let content :=
    if lines.isEmpty then ""
    else Text.join ((lines.take endLine).drop (startLine - 1)) "\n"
  pure
    { path := path
      content := content
      startLine := startLine
      endLine := min endLine totalLines
      totalLines := totalLines }

/-- A result with the text before and after. -/
structure Execution (ρ : Type) where
  result : ρ
  before : String
  after : String

/-- A file that cannot be read counts as empty. -/
def writeText (path content : String) : WorkspaceM (Execution WorkspaceWriteTextResult) := do
  let before := match ← attempt (readToString path) with
    | .ok text => text
    | .error _ => ""
  orFail "workspace_write_parent_failed" ("failed to create parent directories for " ++ path)
    (createParent path)
  orFail "workspace_write_failed" ("failed to write " ++ path) (write path (Bytes.ofText content))
  pure
    { result :=
        { path := path
          changed := before != content
          byteLength := content.utf8ByteSize }
      before := before
      after := content }

def applyPatch (path search into : String) (replaceAll : Bool) :
    WorkspaceM (Execution WorkspaceApplyPatchResult) := do
  ensureFile path
  let before ← orFail "workspace_patch_read_failed" ("failed to read " ++ path) (readToString path)
  let occurrences := Text.countMatches before search
  if occurrences = 0 then
    throw (.notFound "workspace_patch_search_not_found"
      ("patch target was not found in " ++ path))
  else
    let after :=
      if replaceAll then Text.replaceAll before search into
      else Text.replaceFirst before search into
    orFail "workspace_patch_write_failed" ("failed to write " ++ path)
      (write path (Bytes.ofText after))
    pure
      { result :=
          { path := path
            replacements := if replaceAll then occurrences else 1
            changed := before != after }
        before := before
        after := after }

end Workspace

end Liz
