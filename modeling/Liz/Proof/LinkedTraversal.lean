import Liz.Base.Descents
import Liz.Executor.LinkedWorkspace
import Liz.Proof.BoundedListing
import Liz.Proof.WorkspaceAccess

/-!
# Walks that end

A walk goes through links and does not remember where it has been. What it comes to decides whether
it ends, and whether it comes anywhere twice: the entries that are not hidden have to lead somewhere,
and no two of them to the same file or directory, nor any to the root. Otherwise a link to nothing
makes the whole walk fail, a link back up keeps it going down for ever, and what a second link leads
to is visited again.
-/

namespace Liz

open Paths FileTree Descents

namespace Workspace

namespace Linked

/-! ### Runs that return -/

theorem pure_inj {α : Type} {a b : α} : (pure a : Descent α) = pure b ↔ a = b := by
  constructor
  · intro h
    exact Except.ok.inj (Option.some.inj h)
  · exact congrArg pure

/-- A run returns if both its parts do. -/
theorem bind_eq_pure_iff {α β : Type} {p : Descent α} {f : α → Descent β} {b : β} :
    p >>= f = pure b ↔ ∃ a, p = pure a ∧ f a = pure b := by
  constructor
  · intro h
    rcases p with _ | e | a
    · cases h
    · cases h
    · exact ⟨a, rfl, h⟩
  · rintro ⟨a, rfl, hf⟩
    rw [pure_bind, hf]

theorem orFail_eq_pure_iff {α : Type} {code doing : String} {found : Except FileTree.Fault α} {a : α} :
    Descent.orFail code doing found = pure a ↔ found = .ok a := by
  cases found with
  | ok b => rw [Descent.orFail, pure_inj, Except.ok.injEq]
  | error fault =>
      refine iff_of_false (fun h => ?_) (by simp)
      cases Option.some.inj h

/-- With enough fuel a run returns this. -/
def Finishes {α : Type} (run : Nat → Descent α) (a : α) : Prop :=
  ∃ fuel, ∀ n, fuel ≤ n → run n = pure a

/-! ### What a walk comes to -/

section

variable (disk : LinkedTree) (includeHidden : Bool)

/-- Where the entries of a directory lead that are not passed over. -/
def entriesMet (here : Location) : Entries → List (Option Location)
  | .nil => []
  | .cons name _ rest =>
      if !includeHidden && isHidden name then entriesMet here rest
      else (disk.step here name.text).toOption :: entriesMet here rest

/-- Where one comes from a place; there are no ways on from a file. -/
def placesBelow (here : Location) : List (Option Location) :=
  match disk.tree.lookup here with
  | some (.dir entries) => entriesMet disk includeHidden here entries
  | _ => []

end

section

variable {disk : LinkedTree} {includeHidden : Bool}

theorem placesBelow_of_lookup {here : Location} {entries : Entries}
    (h : disk.tree.lookup here = some (.dir entries)) :
    placesBelow disk includeHidden here = entriesMet disk includeHidden here entries := by
  rw [placesBelow, h]

theorem placesBelow_of_not_directory {here : Location} (h : disk.tree.isDirectory here = false) :
    placesBelow disk includeHidden here = [] := by
  rw [placesBelow]
  split
  next entries hdir => simp [Tree.isDirectory_iff.mpr ⟨entries, hdir⟩] at h
  next => rfl

theorem step_of_mem_entriesMet {here place : Location} {entries : Entries}
    (h : some place ∈ entriesMet disk includeHidden here entries) :
    ∃ segment, disk.step here segment = .ok place := by
  induction entries using Entries.along with
  | nil => simp [entriesMet] at h
  | cons name node rest ih =>
      rw [entriesMet] at h
      split at h
      next => exact ih h
      next =>
        rcases List.mem_cons.mp h with hhere | hrest
        · refine ⟨name.text, ?_⟩
          cases hstep : disk.step here name.text with
          | error fault => simp [hstep, Except.toOption] at hhere
          | ok found => simpa [hstep, Except.toOption] using hhere.symm
        · exact ih hrest

theorem finite_reached (top : Location) :
    {place | Reaches (placesBelow disk includeHidden) top place}.Finite := by
  refine ((Set.finite_singleton top).union disk.tree.finite_locations).subset ?_
  intro place hplace
  rcases Relation.ReflTransGen.cases_tail hplace with rfl | ⟨here, -, hchild⟩
  · exact .inl rfl
  · rw [Child, placesBelow] at hchild
    split at hchild
    next entries hdir =>
      obtain ⟨segment, hstep⟩ := step_of_mem_entriesMet hchild
      exact .inr (LinkedTree.isSome_of_step hstep)
    next => simp at hchild

end

/-! ### What a walk visits -/

section

variable {σ : Type} {traversal : Traversal σ} {disk : LinkedTree} {root : String}
  {includeHidden : Bool} {cut : Prop}

/-- The run adds a walk through these entries to what has been visited. -/
def Visits (disk : LinkedTree) (includeHidden : Bool) (cut : Prop) (entries : List (Option Location))
    (s t : Walked σ) : Prop :=
  ∃ visited, t.visited = s.visited ++ visited ∧
    Walk (placesBelow disk includeHidden) cut entries visited

theorem walkEntries_visits (hrecursive : traversal.recursive = true)
    (hcut : ∀ found, traversal.full found = true ∨ traversal.stopped found = true → cut)
    {descend : List FileName → Location → Walked σ → Descent (Walked σ)}
    (hdescend : ∀ names place s t, descend names place s = pure t →
      Visits disk includeHidden cut (placesBelow disk includeHidden place) s t)
    (names : List FileName) (here : Location) (entries : Entries) (s t : Walked σ)
    (h : walkEntries traversal disk root includeHidden descend names here entries s = pure t) :
    Visits disk includeHidden cut (entriesMet disk includeHidden here entries) s t := by
  induction entries using Entries.along generalizing s with
  | nil =>
      obtain rfl := pure_inj.mp h
      exact ⟨[], (List.append_nil _).symm, .done⟩
  | cons name node rest ih =>
      rw [walkEntries] at h
      rw [entriesMet]
      split at h
      next hfull =>
        obtain rfl := pure_inj.mp h
        exact ⟨[], (List.append_nil _).symm, .stop _ (hcut _ (.inl hfull))⟩
      next =>
        split at h
        next hhidden =>
          rw [if_pos hhidden]
          exact ih s h
        next hhidden =>
          rw [if_neg hhidden]
          obtain ⟨place, hstep, h⟩ := bind_eq_pure_iff.mp h
          rw [orFail_eq_pure_iff.mp hstep, Except.toOption]
          dsimp only at h
          rw [hrecursive, Bool.true_and] at h
          split at h
          next hdir =>
            obtain ⟨u, hu, h⟩ := bind_eq_pure_iff.mp h
            obtain ⟨below, hbelow, hwalk⟩ := hdescend _ _ _ _ hu
            split at h
            next hstopped =>
              obtain rfl := pure_inj.mp h
              refine ⟨place :: (below ++ []), ?_, hwalk.enter (.stop _ ?_)⟩
              · simp [hbelow, Traversal.visit]
              · exact hcut _ (.inr hstopped)
            next =>
              obtain ⟨after, hafter, hrest⟩ := ih u h
              refine ⟨place :: (below ++ after), ?_, hwalk.enter hrest⟩
              simp [hafter, hbelow, Traversal.visit]
          next hfile =>
            obtain ⟨after, hafter, hrest⟩ := ih _ h
            have hnone := @placesBelow_of_not_directory disk includeHidden place (by simpa using hfile)
            refine ⟨place :: ([] ++ after), by simp [hafter, Traversal.visit], .enter ?_ hrest⟩
            rw [hnone]
            exact .done

/-- A walk that returns has gone down from place to place. -/
theorem walkDirectory_visits (hrecursive : traversal.recursive = true)
    (hcut : ∀ found, traversal.full found = true ∨ traversal.stopped found = true → cut)
    {fuel : Nat} {names : List FileName} {here : Location} {s t : Walked σ}
    (h : walkDirectory traversal disk root includeHidden fuel names here s = pure t) :
    Visits disk includeHidden cut (placesBelow disk includeHidden here) s t := by
  induction fuel generalizing names here s t with
  | zero => cases h
  | succ fuel ih =>
      obtain ⟨entries, hentries, h⟩ := bind_eq_pure_iff.mp h
      have hlookup := LinkedTree.readDir_eq_ok_iff.mp (orFail_eq_pure_iff.mp hentries)
      rw [placesBelow_of_lookup hlookup]
      exact walkEntries_visits hrecursive hcut (fun _ _ _ _ => ih) names here entries s t h

/-! ### How long it takes -/

@[simp] theorem Traversal.visit_found (names : List FileName) (place : Location) (isDir : Bool)
    (s : Walked σ) :
    (traversal.visit names place isDir s).found = traversal.take names isDir s.found := rfl

theorem walkEntries_visit {descend : List FileName → Location → Walked σ → Descent (Walked σ)}
    {names : List FileName} {here place : Location} {name : FileName} {node : Node} {rest : Entries}
    {s : Walked σ} (hfull : ¬ traversal.full s.found = true)
    (hhidden : ¬ (!includeHidden && isHidden name) = true)
    (hstep : disk.step here name.text = .ok place) :
    walkEntries traversal disk root includeHidden descend names here (.cons name node rest) s =
      if (traversal.recursive && disk.tree.isDirectory place) = true then
        descend (names ++ [name]) place
            (traversal.visit (names ++ [name]) place (disk.tree.isDirectory place) s) >>= fun below =>
          if traversal.stopped below.found = true then pure below
          else walkEntries traversal disk root includeHidden descend names here rest below
      else
        walkEntries traversal disk root includeHidden descend names here rest
          (traversal.visit (names ++ [name]) place (disk.tree.isDirectory place) s) := by
  rw [walkEntries, if_neg hfull, if_neg hhidden, hstep]
  rfl

theorem walkEntries_ends {descend : Nat → List FileName → Location → Walked σ → Descent (Walked σ)}
    {here : Location} {entries : Entries} (hpresent : none ∉ entriesMet disk includeHidden here entries)
    (hbelow : ∀ place, some place ∈ entriesMet disk includeHidden here entries →
      disk.tree.isDirectory place = true →
        ∃ fuel, ∀ names s, ∃ t, ∀ n, fuel ≤ n → descend n names place s = pure t) :
    ∃ fuel, ∀ names s, ∃ t, ∀ n, fuel ≤ n →
      walkEntries traversal disk root includeHidden (descend n) names here entries s = pure t := by
  induction entries using Entries.along with
  | nil => exact ⟨0, fun names s => ⟨s, fun n _ => rfl⟩⟩
  | cons name node rest ih =>
      rw [entriesMet] at hpresent hbelow
      by_cases hhidden : (!includeHidden && isHidden name) = true
      · rw [if_pos hhidden] at hpresent hbelow
        obtain ⟨fuel, hrest⟩ := ih hpresent hbelow
        refine ⟨fuel, fun names s => ?_⟩
        by_cases hfull : traversal.full s.found = true
        · exact ⟨_, fun n _ => by rw [walkEntries, if_pos hfull]⟩
        · obtain ⟨t, ht⟩ := hrest names s
          exact ⟨t, fun n hn => by rw [walkEntries, if_neg hfull, if_pos hhidden, ht n hn]⟩
      · rw [if_neg hhidden] at hpresent hbelow
        obtain ⟨fuel, hrest⟩ := ih (fun h => hpresent (List.mem_cons_of_mem _ h))
          (fun place h => hbelow place (List.mem_cons_of_mem _ h))
        cases hstep : disk.step here name.text with
        | error fault =>
            rw [hstep, Except.toOption] at hpresent
            exact absurd List.mem_cons_self hpresent
        | ok place =>
            rw [hstep, Except.toOption] at hbelow
            by_cases hdir : (traversal.recursive && disk.tree.isDirectory place) = true
            · have hisDir : disk.tree.isDirectory place = true := (Bool.and_eq_true_iff.mp hdir).2
              obtain ⟨more, hdescend⟩ := hbelow place List.mem_cons_self hisDir
              refine ⟨max fuel more, fun names s => ?_⟩
              by_cases hfull : traversal.full s.found = true
              · exact ⟨_, fun n _ => by rw [walkEntries, if_pos hfull]⟩
              · obtain ⟨u, hu⟩ := hdescend (names ++ [name])
                  (traversal.visit (names ++ [name]) place (disk.tree.isDirectory place) s)
                by_cases hstopped : traversal.stopped u.found = true
                · refine ⟨u, fun n hn => ?_⟩
                  rw [walkEntries_visit hfull hhidden hstep, if_pos hdir,
                    hu n (le_of_max_le_right hn), pure_bind, if_pos hstopped]
                · obtain ⟨t, ht⟩ := hrest names u
                  refine ⟨t, fun n hn => ?_⟩
                  rw [walkEntries_visit hfull hhidden hstep, if_pos hdir,
                    hu n (le_of_max_le_right hn), pure_bind, if_neg hstopped,
                    ht n (le_of_max_le_left hn)]
            · refine ⟨fuel, fun names s => ?_⟩
              by_cases hfull : traversal.full s.found = true
              · exact ⟨_, fun n _ => by rw [walkEntries, if_pos hfull]⟩
              · obtain ⟨t, ht⟩ := hrest names
                  (traversal.visit (names ++ [name]) place (disk.tree.isDirectory place) s)
                refine ⟨t, fun n hn => ?_⟩
                rw [walkEntries_visit hfull hhidden hstep, if_neg hdir, ht n hn]

/-- A directory takes the fuel of its entries and one more. -/
theorem walkDirectory_of_entries {fuel : Nat} {names : List FileName} {here : Location}
    {entries : Entries} {s t : Walked σ} (hlookup : disk.tree.lookup here = some (.dir entries))
    (h : ∀ n, fuel ≤ n →
      walkEntries traversal disk root includeHidden
        (walkDirectory traversal disk root includeHidden n) names here entries s = pure t) :
    ∀ n, fuel + 1 ≤ n →
      walkDirectory traversal disk root includeHidden n names here s = pure t := by
  intro n hn
  cases n with
  | zero => omega
  | succ m =>
      rw [walkDirectory, LinkedTree.readDir_eq_ok_iff.mpr hlookup]
      exact h m (by omega)

/-- In a tree a walk comes to its end. -/
theorem walkDirectory_ends {top : Location}
    (htree : Treelike (placesBelow disk includeHidden) top)
    (hdir : disk.tree.isDirectory top = true) :
    ∃ fuel, ∀ names s, ∃ t, ∀ n, fuel ≤ n →
      walkDirectory traversal disk root includeHidden n names top s = pure t := by
  refine htree.induction (finite_reached top)
    (motive := fun place => disk.tree.isDirectory place = true → ∃ fuel, ∀ names s, ∃ t, ∀ n,
      fuel ≤ n → walkDirectory traversal disk root includeHidden n names place s = pure t) ?_ hdir
  intro here hreach ih hhere
  obtain ⟨entries, hlookup⟩ := Tree.isDirectory_iff.mp hhere
  have hmet := @placesBelow_of_lookup disk includeHidden here entries hlookup
  have hpresent := htree.present here hreach
  rw [hmet] at hpresent
  obtain ⟨fuel, hfuel⟩ := @walkEntries_ends σ traversal disk root includeHidden
    (walkDirectory traversal disk root includeHidden) here entries hpresent
    (fun place hplace => ih place (by rwa [Child, hmet]))
  refine ⟨fuel + 1, fun names s => ?_⟩
  obtain ⟨t, ht⟩ := hfuel names s
  exact ⟨t, walkDirectory_of_entries hlookup ht⟩

end

/-! ### The two walks -/

section

variable {disk : LinkedTree} {cwd : Location} {root : String} {includeHidden : Bool}

/-- The walks begin once the root turns out to be a directory. -/
theorem opened_iff {α : Type} {code doing : String} {next : Location → Descent α} {a : α} :
    (do ensureDirectory disk cwd root
        let top ← Descent.orFail code doing (disk.resolve cwd root)
        next top) = pure a ↔
      ∃ top, disk.resolve cwd root = .ok top ∧ disk.tree.isDirectory top = true ∧
        next top = pure a := by
  rw [ensureDirectory]
  cases hresolve : disk.resolve cwd root with
  | error fault =>
      refine iff_of_false (fun h => ?_) (by simp)
      cases h
  | ok top =>
      simp only [Except.ok.injEq, exists_eq_left']
      cases hdir : disk.tree.isDirectory top with
      | false =>
          refine iff_of_false (fun h => ?_) (by simp)
          cases h
      | true =>
          simp only [true_and]
          exact Iff.rfl

/-- With enough fuel the walk returns, and it visits no file or directory twice. -/
def EndsOnce {α : Type} (run : Nat → Descent (Walked α)) : Prop :=
  ∃ walked, Finishes run walked ∧ walked.visited.Nodup

theorem endsOnce_walk {σ : Type} {traversal : Traversal σ} {found : σ} {top : Location}
    (hrecursive : traversal.recursive = true) (hdir : disk.tree.isDirectory top = true)
    (htree : Treelike (placesBelow disk includeHidden) top) :
    EndsOnce fun fuel =>
      walkDirectory traversal disk root includeHidden fuel [] top ⟨found, [top]⟩ := by
  obtain ⟨fuel, hfuel⟩ := @walkDirectory_ends σ traversal disk root includeHidden top htree hdir
  obtain ⟨walked, hwalked⟩ := hfuel [] ⟨found, [top]⟩
  obtain ⟨visited, hvisited, hwalk⟩ :=
    @walkDirectory_visits σ traversal disk root includeHidden True hrecursive (fun _ _ => trivial)
      _ _ _ _ _ (hwalked fuel le_rfl)
  refine ⟨walked, ⟨fuel, hwalked⟩, ?_⟩
  rw [hvisited]
  exact htree.nodup hwalk

theorem treelike_of_walk {σ : Type} {traversal : Traversal σ} {found : σ} {top : Location}
    {fuel : Nat} {walked : Walked σ} (hrecursive : traversal.recursive = true)
    (hgoesOn : ∀ found, traversal.full found = false ∧ traversal.stopped found = false)
    (h : walkDirectory traversal disk root includeHidden fuel [] top ⟨found, [top]⟩ = pure walked)
    (hnodup : walked.visited.Nodup) : Treelike (placesBelow disk includeHidden) top := by
  obtain ⟨visited, hvisited, hwalk⟩ :=
    @walkDirectory_visits σ traversal disk root includeHidden False hrecursive
      (by simp [hgoesOn]) _ _ _ _ _ h
  rw [hvisited] at hnodup
  exact hwalk.treelike hnodup

variable {α β : Type} {code doing : String} {run : Location → Nat → Descent (Walked α)}
  {result : α → β}

theorem endsOnce_opened {top : Location} (hresolve : disk.resolve cwd root = .ok top)
    (hdir : disk.tree.isDirectory top = true) (h : EndsOnce (run top)) :
    EndsOnce (fun fuel => do
      ensureDirectory disk cwd root
      let top ← Descent.orFail code doing (disk.resolve cwd root)
      let walked ← run top fuel
      pure { found := result walked.found, visited := walked.visited }) := by
  obtain ⟨walked, ⟨fuel, hfuel⟩, hnodup⟩ := h
  refine ⟨⟨result walked.found, walked.visited⟩, ⟨fuel, fun n hn => ?_⟩, hnodup⟩
  exact opened_iff.mpr ⟨top, hresolve, hdir, bind_eq_pure_iff.mpr ⟨walked, hfuel n hn, rfl⟩⟩

theorem exists_of_opened
    (h : EndsOnce (fun fuel => do
      ensureDirectory disk cwd root
      let top ← Descent.orFail code doing (disk.resolve cwd root)
      let walked ← run top fuel
      pure { found := result walked.found, visited := walked.visited })) :
    ∃ top, disk.resolve cwd root = .ok top ∧ disk.tree.isDirectory top = true ∧
      ∃ fuel walked, run top fuel = pure walked ∧ walked.visited.Nodup := by
  obtain ⟨walked, ⟨fuel, hfuel⟩, hnodup⟩ := h
  obtain ⟨top, hresolve, hdir, hrun⟩ := opened_iff.mp (hfuel fuel le_rfl)
  obtain ⟨found, hfound, hresult⟩ := bind_eq_pure_iff.mp hrun
  obtain rfl := pure_inj.mp hresult
  exact ⟨top, hresolve, hdir, fuel, found, hfound, hnodup⟩

/-- A search that ends and comes nowhere twice has gone through a tree. -/
theorem treelike_of_search {pattern : String} {caseSensitive : Bool} {maxResults : Option Nat}
    (h : EndsOnce (search disk cwd root pattern caseSensitive includeHidden maxResults)) :
    ∃ top, disk.resolve cwd root = .ok top ∧ disk.tree.isDirectory top = true ∧
      Treelike (placesBelow disk includeHidden) top := by
  obtain ⟨top, hresolve, hdir, fuel, walked, hwalked, hnodup⟩ := exists_of_opened h
  exact ⟨top, hresolve, hdir, treelike_of_walk rfl (fun _ => ⟨rfl, rfl⟩) hwalked hnodup⟩

/-- A listing and a search of everything below a root end, and neither comes anywhere twice, if and
only if what is below the root is a tree: every entry that is not passed over leads somewhere, and each
place has one such entry. -/
theorem traversal_once_iff (disk : LinkedTree) (cwd : Location) (root pattern : String)
    (caseSensitive includeHidden : Bool) (maxEntries maxResults : Option Nat) :
    (EndsOnce (list disk cwd root true includeHidden maxEntries) ∧
        EndsOnce (search disk cwd root pattern caseSensitive includeHidden maxResults)) ↔
      ∃ top, disk.resolve cwd root = .ok top ∧ disk.tree.isDirectory top = true ∧
        Treelike (placesBelow disk includeHidden) top := by
  constructor
  · exact fun h => treelike_of_search h.2
  · rintro ⟨top, hresolve, hdir, htree⟩
    constructor
    · exact endsOnce_opened hresolve hdir (endsOnce_walk rfl hdir htree)
    · exact endsOnce_opened hresolve hdir (endsOnce_walk rfl hdir htree)

end

/-- A directory with a file, and with a link to nothing. -/
def danglingLink : LinkedTree where
  tree := (sessionOver [([], "w", none), (["w"], "notes", some []), (["w"], "old", some [])]).tree
  links := [(["w", "old"], none)]
  leaves := by decide +kernel
  leads := by decide +kernel

/-- The link makes both walks fail. -/
theorem dangling_link_fails :
    ¬ ∀ (disk : LinkedTree) (cwd : Location) (root pattern : String)
        (caseSensitive includeHidden : Bool) (maxEntries maxResults : Option Nat),
      (∃ top, disk.resolve cwd root = .ok top ∧ disk.tree.isDirectory top = true) →
        EndsOnce (list disk cwd root true includeHidden maxEntries) ∧
          EndsOnce (search disk cwd root pattern caseSensitive includeHidden maxResults) := by
  intro h
  have hresolve : danglingLink.resolve [] "w" = .ok ["w"] := by decide +kernel
  have hdir : danglingLink.tree.isDirectory ["w"] = true := by decide +kernel
  obtain ⟨top, htop, -, htree⟩ := treelike_of_search
    (h danglingLink [] "w" "x" true false none none ⟨["w"], hresolve, hdir⟩).2
  obtain rfl : ["w"] = top := Except.ok.inj (hresolve.symm.trans htop)
  have hnone : none ∈ placesBelow danglingLink false ["w"] := by decide +kernel
  exact htree.present ["w"] .refl hnone

end Linked

end Workspace

/-! ### Walks without links

Where there are no links a walk goes down the tree and ends, and it finds what the walks of the tools
find that go down the tree of a session. So a listing returns the same either way.
-/

open Paths FileTree Program

namespace Workspace

namespace Linked

section

variable {σ : Type} (traversal : Traversal σ) (includeHidden : Bool)

mutual

/-- What a walk finds below an entry when there are no links. -/
def foundBelow (names : List FileName) : Node → σ → σ
  | .file _, found => found
  | .dir children, found => if traversal.recursive then foundIn names children found else found

def foundIn (names : List FileName) : Entries → σ → σ
  | .nil, found => found
  | .cons name node rest, found =>
      if traversal.full found then traversal.stop found
      else if !includeHidden && isHidden name then foundIn names rest found
      else
        let below := foundBelow (names ++ [name]) node
          (traversal.take (names ++ [name]) (isDirNode node) found)
        if traversal.recursive && isDirNode node && traversal.stopped below then below
        else foundIn names rest below

end

end

section

variable {σ : Type} {traversal : Traversal σ} {disk : LinkedTree} {root : String}
  {includeHidden : Bool}

theorem isDirectory_of_lookup {tree : Tree} {place : Location} {node : Node}
    (h : tree.lookup place = some node) : tree.isDirectory place = isDirNode node := by
  cases node with
  | file content =>
      have hnot : ¬ tree.isDirectory place = true := by
        rw [Tree.isDirectory_iff, h]
        simp
      simpa [isDirNode] using hnot
  | dir entries => exact Tree.isDirectory_iff.mpr ⟨entries, h⟩

mutual

theorem walkDirectory_of_no_links (hlinks : disk.links = []) {place : Location} {node : Node}
    (hnode : disk.tree.lookup place = some node) (hordered : node.Ordered) (children : Entries)
    (hdir : node = .dir children) :
    ∃ fuel, ∀ names s, ∃ visited, ∀ n, fuel ≤ n →
      walkDirectory traversal disk root includeHidden n names place s =
        pure ⟨foundIn traversal includeHidden names children s.found, visited⟩ := by
  cases node with
  | file content => cases hdir
  | dir entries =>
      obtain rfl := Node.dir.inj hdir
      obtain ⟨fuel, hfuel⟩ := walkEntries_of_no_links hlinks hnode entries (fun _ _ h => h) hordered
      refine ⟨fuel + 1, fun names s => ?_⟩
      obtain ⟨visited, hvisited⟩ := hfuel names s
      exact ⟨visited, walkDirectory_of_entries hnode hvisited⟩

/-- Where there are no links a walk goes along the tree. -/
theorem walkEntries_of_no_links (hlinks : disk.links = []) {here : Location} {all : Entries}
    (hhere : disk.tree.lookup here = some (.dir all)) (entries : Entries)
    (hfind : ∀ segment node, entries.find segment = some node → all.find segment = some node)
    (hordered : entries.Ordered) :
    ∃ fuel, ∀ names s, ∃ visited, ∀ n, fuel ≤ n →
      walkEntries traversal disk root includeHidden
          (walkDirectory traversal disk root includeHidden n) names here entries s =
        pure ⟨foundIn traversal includeHidden names entries s.found, visited⟩ := by
  cases entries with
  | nil => exact ⟨0, fun names s => ⟨s.visited, fun n _ => rfl⟩⟩
  | cons name node rest =>
      obtain ⟨hfirst, hnode, hrestOrdered⟩ := hordered
      have hrestFind : ∀ segment found, rest.find segment = some found →
          all.find segment = some found := by
        intro segment found hfound
        have hother := (hfirst segment (Entries.mem_names_of_find hfound)).ne
        exact hfind segment found (by rw [Entries.find, if_neg hother, hfound])
      have hlookup : disk.tree.lookup (here ++ [name.text]) = some node := by
        rw [Tree.lookup, Entries.lookup_append hhere, Entries.lookup_cons,
          hfind name.text node (by rw [Entries.find, if_pos rfl])]
        cases node <;> rfl
      have hstep : disk.step here name.text = .ok (here ++ [name.text]) := by
        rw [LinkedTree.step_of_no_links hlinks, FileTree.step, hhere]
        simp only [enter_of_named name.named, hlookup]
      obtain ⟨fuel, hrest⟩ := walkEntries_of_no_links hlinks hhere rest hrestFind hrestOrdered
      have hbelow : ∃ fuel, ∀ names s, ∃ visited, ∀ n, fuel ≤ n →
          (traversal.recursive && isDirNode node) = true →
            walkDirectory traversal disk root includeHidden n names (here ++ [name.text]) s =
              pure ⟨foundBelow traversal includeHidden names node s.found, visited⟩ := by
        cases node with
        | file content => exact ⟨0, fun names s => ⟨[], fun n _ hdir => by simp [isDirNode] at hdir⟩⟩
        | dir children =>
            obtain ⟨more, hmore⟩ := walkDirectory_of_no_links hlinks hlookup hnode children rfl
            refine ⟨more, fun names s => ?_⟩
            obtain ⟨visited, hvisited⟩ := hmore names s
            refine ⟨visited, fun n hn hdir => ?_⟩
            rw [foundBelow, if_pos (Bool.and_eq_true_iff.mp hdir).1]
            exact hvisited n hn
      obtain ⟨more, hmore⟩ := hbelow
      refine ⟨max fuel more, fun names s => ?_⟩
      rw [foundIn]
      by_cases hfull : traversal.full s.found = true
      · exact ⟨s.visited, fun n _ => by rw [walkEntries, if_pos hfull, if_pos hfull]⟩
      · rw [if_neg hfull]
        by_cases hhidden : (!includeHidden && isHidden name) = true
        · obtain ⟨visited, hvisited⟩ := hrest names s
          refine ⟨visited, fun n hn => ?_⟩
          rw [walkEntries, if_neg hfull, if_pos hhidden, if_pos hhidden]
          exact hvisited n (le_of_max_le_left hn)
        · rw [if_neg hhidden]
          dsimp only
          have hvisit := fun n => @walkEntries_visit σ traversal disk root includeHidden
            (walkDirectory traversal disk root includeHidden n) names here _ name node rest s hfull
            hhidden hstep
          simp only [isDirectory_of_lookup hlookup] at hvisit
          obtain ⟨below, hbelow⟩ := hmore (names ++ [name])
            (traversal.visit (names ++ [name]) (here ++ [name.text]) (isDirNode node) s)
          by_cases hdir : (traversal.recursive && isDirNode node) = true
          · rw [hdir, Bool.true_and]
            simp only [hdir, forall_const, Traversal.visit_found, if_true] at hbelow hvisit
            generalize foundBelow traversal includeHidden (names ++ [name]) node
              (traversal.take (names ++ [name]) (isDirNode node) s.found) = found at hbelow ⊢
            obtain ⟨visited, hvisited⟩ := hrest names ⟨found, below⟩
            by_cases hstopped : traversal.stopped found = true
            · refine ⟨below, fun n hn => ?_⟩
              rw [hvisit n, hbelow n (le_of_max_le_right hn), pure_bind, if_pos hstopped,
                if_pos hstopped]
            · refine ⟨visited, fun n hn => ?_⟩
              rw [hvisit n, hbelow n (le_of_max_le_right hn), pure_bind, if_neg hstopped,
                if_neg hstopped]
              exact hvisited n (le_of_max_le_left hn)
          · have hsame : ∀ found, foundBelow traversal includeHidden (names ++ [name]) node found =
                found := by
              intro found
              cases node with
              | file content => rfl
              | dir children => rw [foundBelow, if_neg (by simpa [isDirNode] using hdir)]
            obtain ⟨visited, hvisited⟩ := hrest names
              (traversal.visit (names ++ [name]) (here ++ [name.text]) (isDirNode node) s)
            refine ⟨visited, fun n hn => ?_⟩
            rw [hvisit n, if_neg hdir, hsame, if_neg (by simp [hdir])]
            exact hvisited n (le_of_max_le_left hn)

end

mutual

theorem foundBelow_listing {recursive : Bool} {maxEntries : Nat} (names : List FileName) (node : Node)
    (found : Listing) (hfound : found.truncated = false) :
    foundBelow (listing recursive maxEntries) includeHidden names node found =
      collectBelow recursive includeHidden maxEntries names node found := by
  cases node with
  | file content => rfl
  | dir children =>
      rw [foundBelow, collectBelow]
      split
      next hdown =>
        exact (foundIn_listing names children found hfound).trans (if_pos hdown).symm
      next hflat => exact (if_neg hflat).symm

/-- What a listing finds is listed. -/
theorem foundIn_listing {recursive : Bool} {maxEntries : Nat} (names : List FileName)
    (entries : Entries) (found : Listing) (hfound : found.truncated = false) :
    foundIn (listing recursive maxEntries) includeHidden names entries found =
      Workspace.collectEntries recursive includeHidden maxEntries names entries found := by
  cases entries with
  | nil => rfl
  | cons name node rest =>
      have hfull : (listing recursive maxEntries).full found =
          decide (maxEntries ≤ found.entries.length) := rfl
      have htake : (listing recursive maxEntries).take (names ++ [name]) (isDirNode node) found =
          found.push (names ++ [name]) node := rfl
      rw [foundIn, Workspace.collectEntries, hfull, htake]
      simp only [decide_eq_true_eq]
      split
      · rfl
      · split
        · exact foundIn_listing names rest found hfound
        · have hpush : (found.push (names ++ [name]) node).truncated = false := hfound
          rw [foundBelow_listing (names ++ [name]) node _ hpush]
          have hflat : (recursive && isDirNode node) = false →
              (collectBelow recursive includeHidden maxEntries (names ++ [name]) node
                (found.push (names ++ [name]) node)).truncated = false := by
            intro hnot
            cases node with
            | file content => exact hpush
            | dir children => rwa [collectBelow, if_neg (by simpa [isDirNode] using hnot)]
          generalize collectBelow recursive includeHidden maxEntries (names ++ [name]) node
            (found.push (names ++ [name]) node) = below at hflat ⊢
          cases hstopped : below.truncated with
          | false =>
              have hgoesOn : (listing recursive maxEntries).stopped below = false := hstopped
              rw [hgoesOn, Bool.and_false, if_neg Bool.false_ne_true, if_neg Bool.false_ne_true]
              exact foundIn_listing names rest below hstopped
          | true =>
              have hdown : (recursive && isDirNode node) = true := by
                by_contra hnot
                simp [hflat (Bool.not_eq_true _ ▸ hnot)] at hstopped
              have hcut : ((listing recursive maxEntries).recursive && isDirNode node &&
                  (listing recursive maxEntries).stopped below) = true := by
                rw [Bool.and_eq_true_iff]
                exact ⟨hdown, hstopped⟩
              rw [if_pos hcut, if_pos rfl]

end

mutual

theorem foundBelow_gathering (names : List FileName) (node : Node) (found : Gathering) :
    foundBelow gathering includeHidden names node
        (gathering.take names (isDirNode node) found) =
      collectNode includeHidden names node found := by
  cases node with
  | file content => rfl
  | dir children => exact foundIn_gathering names children _

theorem foundIn_gathering (names : List FileName) (entries : Entries) (found : Gathering) :
    foundIn gathering includeHidden names entries found =
      Workspace.collectFiles includeHidden names entries found := by
  cases entries with
  | nil => rfl
  | cons name node rest =>
      have hfull : gathering.full found = false := rfl
      have hstopped : ∀ found, gathering.stopped found = false := fun _ => rfl
      rw [foundIn, Workspace.collectFiles, hfull, foundBelow_gathering (names ++ [name]) node]
      simp only [hstopped, Bool.and_false, Bool.false_eq_true, if_false]
      split
      · exact foundIn_gathering names rest found
      · exact foundIn_gathering names rest _

end

end

/-! ### The same walks -/

section

variable {disk : LinkedTree} {root : String} {includeHidden : Bool} {here : Location}
  {entries : Entries}

/-- Enough fuel for a walk through a directory without links. -/
theorem finishes_of_no_links {σ : Type} (traversal : Traversal σ) (hlinks : disk.links = [])
    (hhere : disk.tree.lookup here = some (.dir entries)) (names : List FileName) (s : Walked σ) :
    ∃ visited, Finishes
      (fun fuel => walkDirectory traversal disk root includeHidden fuel names here s)
      ⟨foundIn traversal includeHidden names entries s.found, visited⟩ := by
  have hordered : (Node.dir entries).Ordered := Entries.ordered_of_lookup disk.tree.ordered hhere
  obtain ⟨fuel, hfuel⟩ := @walkDirectory_of_no_links σ traversal disk root includeHidden hlinks here _
    hhere hordered entries rfl
  obtain ⟨visited, hvisited⟩ := hfuel names s
  exact ⟨visited, fuel, hvisited⟩

/-- A search gathers the files of the tree. -/
theorem collectFiles_of_no_links (hlinks : disk.links = [])
    (hhere : disk.tree.lookup here = some (.dir entries)) (names : List FileName)
    (s : Walked Gathering) :
    ∃ visited, Finishes (fun fuel => collectFiles disk root includeHidden fuel names here s)
      ⟨Workspace.collectFiles includeHidden names entries s.found, visited⟩ := by
  rw [← foundIn_gathering]
  exact finishes_of_no_links gathering hlinks hhere names s

/-- A listing of a root in a session returns the same from the walk that would follow links. -/
theorem list_of_no_links (hlinks : disk.links = []) {s : Session} (htree : s.tree = disk.tree)
    {recursive : Bool} {maxEntries : Option Nat} {found : WorkspaceListResult}
    (h : result (Workspace.list root recursive includeHidden maxEntries) s = some found) :
    ∃ visited, Finishes (list disk s.cwd root recursive includeHidden maxEntries)
      ⟨found, visited⟩ := by
  obtain ⟨entries, hnode, rfl⟩ :=
    wp_of_result (list_listed root recursive includeHidden maxEntries s) h
  obtain ⟨top, hresolve, hlookup⟩ := Session.exists_of_nodeAt hnode
  rw [htree] at hlookup
  obtain ⟨visited, fuel, hfuel⟩ := @finishes_of_no_links disk root includeHidden top entries Listing
    (listing recursive (maxEntries.getD usizeMax)) hlinks hlookup [] ⟨⟨[], false, []⟩, [top]⟩
  refine ⟨visited, fuel, fun n hn => ?_⟩
  refine opened_iff.mpr ⟨top, ?_, Tree.isDirectory_iff.mpr ⟨entries, hlookup⟩, ?_⟩
  · rw [LinkedTree.resolve_of_no_links hlinks htree, hresolve]
  · refine bind_eq_pure_iff.mpr ⟨_, hfuel n hn, ?_⟩
    rw [foundIn_listing [] entries _ rfl]
    rfl

end

end Linked

end Workspace

end Liz
