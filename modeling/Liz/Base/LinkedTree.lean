import Liz.Base.FileAccess
import Mathlib.Data.Set.Finite.Lattice

/-!
# File trees with symbolic links

Some leaves of a tree may be symbolic links. A link leads to a file or a directory of the tree, which
may be a directory it lies in, or to nothing. A path follows the links it meets, however many they
are, and whoever looks at an entry is told of what the link leads to.
-/

namespace FileTree

open Paths

/-- A tree and its links, with what each of them leads to in the end. -/
structure LinkedTree where
  tree : Tree
  links : List (Location × Option Location)
  leaves : ∀ link ∈ links,
    (tree.lookup link.1).isSome = true ∧ tree.isDirectory link.1 = false
  leads : ∀ link ∈ links, ∀ place ∈ link.2,
    (tree.lookup place).isSome = true ∧ place ∉ links.map Prod.fst

namespace LinkedTree

/-- What stands at a location, once a link is followed. -/
def place (disk : LinkedTree) (location : Location) : Option Location :=
  (disk.links.lookup location).getD (some location)

/-- A step from a directory to something that is there. -/
def step (disk : LinkedTree) (here : Location) (segment : String) : Except Fault Location :=
  match FileTree.step disk.tree here segment with
  | .error fault => .error fault
  | .ok location =>
      match disk.place location with
      | some place => .ok place
      | none => .error .notFound

def follow (disk : LinkedTree) : Location → List String → Except Fault Location
  | here, [] => .ok here
  | here, segment :: rest =>
      match disk.step here segment with
      | .ok next => disk.follow next rest
      | .error fault => .error fault

/-- Where an existing path leads. -/
def resolve (disk : LinkedTree) (cwd : Location) (path : String) : Except Fault Location :=
  if path = "" then .error .notFound
  else if hasNul path then .error .nulByte
  else disk.follow (start cwd path) (segments path)

/-- The contents of a directory. -/
def readDir (disk : LinkedTree) (here : Location) : Except Fault Entries :=
  match disk.tree.lookup here with
  | none => .error .notFound
  | some (.file _) => .error .notDirectory
  | some (.dir entries) => .ok entries

/-- The text of a file, if it can be read. -/
def readText (disk : LinkedTree) (cwd : Location) (path : String) : Option String :=
  match disk.resolve cwd path with
  | .error _ => none
  | .ok location =>
      match disk.tree.lookup location with
      | some (.file content) => Bytes.toText content
      | _ => none

theorem readDir_eq_ok_iff {disk : LinkedTree} {here : Location} {entries : Entries} :
    disk.readDir here = .ok entries ↔ disk.tree.lookup here = some (.dir entries) := by
  rw [readDir]
  split
  next hnone => simp [hnone]
  next content hfile => simp [hfile]
  next found hdir => simp [hdir]

/-- A step comes to a file or a directory. -/
theorem isSome_of_step {disk : LinkedTree} {here next : Location} {segment : String}
    (h : disk.step here segment = .ok next) : (disk.tree.lookup next).isSome = true := by
  rw [step] at h
  split at h
  next => cases h
  next location hstep =>
    obtain ⟨-, -, node, hnode⟩ := step_eq_ok_iff.mp hstep
    rw [place] at h
    cases hlink : disk.links.lookup location with
    | none =>
        rw [hlink] at h
        obtain rfl : location = next := Except.ok.inj h
        rw [hnode]
        rfl
    | some target =>
        rw [hlink] at h
        obtain ⟨before, after, hlinks, -⟩ := List.lookup_eq_some_iff.mp hlink
        have hmem : (location, target) ∈ disk.links := hlinks ▸ List.mem_append_cons_self
        cases target with
        | none => cases h
        | some other =>
            obtain rfl : other = next := Except.ok.inj h
            exact (disk.leads _ hmem other rfl).1

/-! ### Without links -/

theorem step_of_no_links {disk : LinkedTree} (h : disk.links = []) :
    disk.step = FileTree.step disk.tree := by
  funext here segment
  rw [step]
  split
  next fault hstep => exact hstep.symm
  next location hstep => simp [place, h, hstep]

theorem follow_of_no_links {disk : LinkedTree} (h : disk.links = []) :
    disk.follow = FileTree.follow disk.tree := by
  funext here path
  induction path generalizing here with
  | nil => rfl
  | cons segment rest ih =>
      rw [follow, FileTree.follow, step_of_no_links h]
      cases FileTree.step disk.tree here segment with
      | ok next => exact ih next
      | error fault => rfl

theorem resolve_of_no_links {disk : LinkedTree} (h : disk.links = []) {session : Session}
    (htree : session.tree = disk.tree) (path : String) :
    disk.resolve session.cwd path = session.resolve path := by
  rw [resolve, Session.resolve, follow_of_no_links h, htree]

end LinkedTree

/-! ### There are finitely many files and directories -/

mutual

theorem Node.finite_locations (node : Node) :
    {location | (node.lookup location).isSome = true}.Finite := by
  cases node with
  | file content =>
      refine (Set.finite_singleton []).subset (fun location hlocation => ?_)
      by_contra hne
      have hne : location ≠ [] := hne
      simp [Node.lookup, hne] at hlocation
  | dir entries => exact entries.finite_locations

theorem Entries.finite_locations (entries : Entries) :
    {location | (entries.lookup location).isSome = true}.Finite := by
  cases entries with
  | nil =>
      refine (Set.finite_singleton []).subset (fun location hlocation => ?_)
      cases location with
      | nil => rfl
      | cons segment rest => simp [Entries.lookup, Entries.find] at hlocation
  | cons name node rest =>
      have hnode := node.finite_locations.image (List.cons name.text)
      refine (hnode.union rest.finite_locations).subset (fun location hlocation => ?_)
      cases location with
      | nil => exact .inr rfl
      | cons segment below =>
          have hsome : (((Entries.cons name node rest).find segment).bind
              (Node.lookup below)).isSome = true := Entries.lookup_cons .. ▸ hlocation
          rw [Entries.find] at hsome
          split at hsome
          next hname => exact .inl ⟨below, hsome, by rw [hname]⟩
          next => exact .inr (by rwa [Set.mem_ofPred_eq, Entries.lookup_cons])

end

theorem Tree.finite_locations (tree : Tree) :
    {location | (tree.lookup location).isSome = true}.Finite := tree.entries.finite_locations

end FileTree
