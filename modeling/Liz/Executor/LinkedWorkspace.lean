import Liz.Base.LinkedTree
import Liz.Executor.Workspace

/-!
# Walks among links

How a listing and a search walk through a tree with symbolic links. An entry is looked at through its
link, so a link to a directory is walked into like a directory, and no walk remembers where it has
been. It may not come to an end, and therefore runs with fuel for the directories on its way down.
-/

namespace Liz

open Paths FileTree

namespace Workspace

namespace Linked

/-- A run that returns, fails, or goes deeper than its fuel lasts. -/
abbrev Descent := ExceptT RuntimeError Option

def Descent.outOfFuel {α : Type} : Descent α := (none : Option (Except RuntimeError α))

/-- A failing operation becomes an error of the runtime. -/
def Descent.orFail {α : Type} (code doing : String) : Except FileTree.Fault α → Descent α
  | .ok found => pure found
  | .error fault => throw (.invalidState code (doing ++ ": " ++ fault.text))

/-- What a walk has found, and the files and directories it has visited. -/
structure Walked (σ : Type) where
  found : σ
  visited : List Location

/-- What sets the walks of a listing and of a search apart. -/
structure Traversal (σ : Type) where
  code : String
  recursive : Bool
  /-- The walk stops at the next entry. -/
  full : σ → Bool
  stop : σ → σ
  /-- The walk has stopped somewhere below. -/
  stopped : σ → Bool
  /-- What is found with an entry, which may be a directory. -/
  take : List FileName → Bool → σ → σ

def Traversal.visit {σ : Type} (traversal : Traversal σ) (names : List FileName) (place : Location)
    (isDir : Bool) (walked : Walked σ) : Walked σ :=
  { found := traversal.take names isDir walked.found
    visited := walked.visited ++ [place] }

/-- The path of an entry as it is reached from the root. -/
def pathOf (root : String) (names : List FileName) : String :=
  names.foldl (fun path name => join path name.text) root

section

variable {σ : Type} (traversal : Traversal σ) (disk : LinkedTree) (root : String)
  (includeHidden : Bool)

/-- Goes through the entries of a directory and into each of them that is one; `names` lead to it from
the root. -/
def walkEntries (descend : List FileName → Location → Walked σ → Descent (Walked σ))
    (names : List FileName) (here : Location) : Entries → Walked σ → Descent (Walked σ)
  | .nil, walked => pure walked
  | .cons name _ rest, walked =>
      if traversal.full walked.found then
        pure { walked with found := traversal.stop walked.found }
      else if !includeHidden && isHidden name then walkEntries descend names here rest walked
      else do
        let place ← Descent.orFail traversal.code
          ("failed to stat " ++ pathOf root (names ++ [name])) (disk.step here name.text)
        let isDir := disk.tree.isDirectory place
        let walked := traversal.visit (names ++ [name]) place isDir walked
        if traversal.recursive && isDir then do
          let below ← descend (names ++ [name]) place walked
          if traversal.stopped below.found then pure below
          else walkEntries descend names here rest below
        else walkEntries descend names here rest walked

def walkDirectory : Nat → List FileName → Location → Walked σ → Descent (Walked σ)
  | 0, _, _, _ => Descent.outOfFuel
  | fuel + 1, names, here, walked => do
      let entries ← Descent.orFail traversal.code ("failed to enumerate " ++ pathOf root names)
        (disk.readDir here)
      walkEntries traversal disk root includeHidden (walkDirectory fuel) names here entries walked

end

/-- The walk of a listing: it stops at the limit, files and directories are listed. -/
def listing (recursive : Bool) (maxEntries : Nat) : Traversal Listing :=
  { code := "workspace_list_failed"
    recursive := recursive
    full := fun found => decide (maxEntries ≤ found.entries.length)
    stop := fun found => { found with truncated := true }
    stopped := fun found => found.truncated
    take := fun names isDir found =>
      { found with
        entries := found.entries ++ [⟨relativeDisplay names, isDir⟩]
        listed := found.listed ++ [names] } }

/-- The walk of a search: it goes through everything, the files are gathered. -/
def gathering : Traversal Gathering :=
  { code := "workspace_search_failed"
    recursive := true
    full := fun _ => false
    stop := fun found => found
    stopped := fun _ => false
    take := fun names isDir found =>
      { files := if isDir then found.files else found.files ++ [names]
        searched := found.searched ++ [names] } }

variable (disk : LinkedTree) (cwd : Location) (root : String)

def collectEntries (recursive includeHidden : Bool) (maxEntries fuel : Nat) :
    List FileName → Location → Walked Listing → Descent (Walked Listing) :=
  walkDirectory (listing recursive maxEntries) disk root includeHidden fuel

def collectFiles (includeHidden : Bool) (fuel : Nat) :
    List FileName → Location → Walked Gathering → Descent (Walked Gathering) :=
  walkDirectory gathering disk root includeHidden fuel

def ensureDirectory : Descent Unit :=
  match disk.resolve cwd root with
  | .error _ =>
      throw (.notFound "workspace_root_not_found" ("workspace root " ++ root ++ " does not exist"))
  | .ok top =>
      if disk.tree.isDirectory top then pure ()
      else throw (.invalidState "workspace_root_not_directory"
        ("workspace root " ++ root ++ " is not a directory"))

def listResult (found : Listing) : WorkspaceListResult :=
  { root := root, entries := found.entries, truncated := found.truncated }

def list (recursive includeHidden : Bool) (maxEntries : Option Nat) (fuel : Nat) :
    Descent (Walked WorkspaceListResult) := do
  ensureDirectory disk cwd root
  let top ← Descent.orFail "workspace_list_failed" ("failed to enumerate " ++ root)
    (disk.resolve cwd root)
  let walked ← collectEntries disk root recursive includeHidden (maxEntries.getD usizeMax) fuel []
    top ⟨⟨[], false, []⟩, [top]⟩
  pure { found := listResult root walked.found, visited := walked.visited }

/-- Opens the files by their displayed paths until there are results enough. -/
def searchFiles (query : Query) : List String → Found → Found
  | [], found => found
  | file :: rest, found =>
      if query.maxResults ≤ found.hits.length then { found with truncated := true }
      else
        match disk.readText cwd (join root file) with
        | none => searchFiles query rest found
        | some content =>
            searchFiles query rest (searchLines query file 1 (Text.lines content) found)

def searchResult (query : Query) (found : Gathering) : WorkspaceSearchResult :=
  let hits := searchFiles disk cwd root query (found.files.map relativeDisplay) ⟨[], false⟩
  { root := root, pattern := query.pattern, hits := hits.hits, truncated := hits.truncated }

def search (pattern : String) (caseSensitive includeHidden : Bool) (maxResults : Option Nat)
    (fuel : Nat) : Descent (Walked WorkspaceSearchResult) := do
  ensureDirectory disk cwd root
  let top ← Descent.orFail "workspace_search_failed" ("failed to enumerate " ++ root)
    (disk.resolve cwd root)
  let walked ← collectFiles disk root includeHidden fuel [] top ⟨⟨[], []⟩, [top]⟩
  let query := ⟨pattern, caseSensitive, maxResults.getD usizeMax⟩
  pure { found := searchResult disk cwd root query walked.found, visited := walked.visited }

end Linked

end Workspace

end Liz
