import Liz.Base.Limits
import Liz.Proof.WorkspaceAccess

/-!
# Listings with a limit

A listing meets the children of the directories in order, hidden ones too, and stops at the first it
meets when it has as many entries as it may have. Its entries are those of the full listing up to the
limit. It says that it was cut off even when the child it stopped at is hidden and nothing else is to
come.
-/

namespace Liz

open Paths FileTree Program Limits

namespace Workspace

/-! ### The children that are met -/

section

variable (recursive includeHidden : Bool)

mutual

/-- What is met below an entry. -/
def metBelow (names : List FileName) : Node → List (Option (List FileName × Node))
  | .file _ => []
  | .dir children => if recursive then childrenMet names children else []

/-- The children that a full listing meets, one that it passes over as none. -/
def childrenMet (names : List FileName) : Entries → List (Option (List FileName × Node))
  | .nil => []
  | .cons name node rest =>
      if !includeHidden && isHidden name then none :: childrenMet names rest
      else
        some (names ++ [name], node) :: (metBelow (names ++ [name]) node ++ childrenMet names rest)

end

end

/-- The listing of these items. -/
def Listing.of (items : List (List FileName × Node)) (truncated : Bool) : Listing :=
  { entries := items.map fun item => ⟨relativeDisplay item.1, isDirNode item.2⟩
    truncated := truncated
    listed := items.map Prod.fst }

section

variable {recursive includeHidden : Bool} {limit : Nat}

theorem Listing.push_of (items : List (List FileName × Node)) (names : List FileName) (node : Node) :
    (Listing.of items false).push names node = Listing.of (items ++ [(names, node)]) false := by
  simp [Listing.of, Listing.push]

mutual

theorem collectBelow_eq (names : List FileName) (node : Node)
    (items : List (List FileName × Node)) :
    collectBelow recursive includeHidden limit names node (.of items false) =
      Listing.of (collect limit (metBelow recursive includeHidden names node) items).1
        (collect limit (metBelow recursive includeHidden names node) items).2 := by
  cases node with
  | file content => rfl
  | dir children =>
      rw [collectBelow, metBelow]
      split
      · exact collectEntries_eq names children items
      · rfl

/-- A listing collects what is met. -/
theorem collectEntries_eq (names : List FileName) (entries : Entries)
    (items : List (List FileName × Node)) :
    collectEntries recursive includeHidden limit names entries (.of items false) =
      Listing.of (collect limit (childrenMet recursive includeHidden names entries) items).1
        (collect limit (childrenMet recursive includeHidden names entries) items).2 := by
  cases entries with
  | nil => rfl
  | cons name node rest =>
      have hlength : (Listing.of items false).entries.length = items.length := List.length_map _
      rw [collectEntries, childrenMet, hlength]
      by_cases hhidden : (!includeHidden && isHidden name) = true
      · rw [if_pos hhidden, if_pos hhidden, collect]
        split
        · rfl
        · rw [Option.toList_none, List.append_nil]
          exact collectEntries_eq names rest items
      · rw [if_neg hhidden, if_neg hhidden, collect]
        split
        · rfl
        · rw [Listing.push_of, collectBelow_eq (names ++ [name]) node, Option.toList_some,
            collect_append]
          cases hcut : (collect limit (metBelow recursive includeHidden (names ++ [name]) node)
              (items ++ [(names ++ [name], node)])).2 with
          | true => simp [Listing.of, hcut]
          | false =>
              dsimp only [Listing.of]
              exact collectEntries_eq names rest _

end

end

/-! ### The limit -/

/-- The result of a listing of this directory. -/
def listed (root : String) (recursive includeHidden : Bool) (limit : Nat) (entries : Entries) :
    WorkspaceListResult :=
  let listing := collectEntries recursive includeHidden limit [] entries ⟨[], false, []⟩
  { root := root, entries := listing.entries, truncated := listing.truncated }

theorem list_listed (root : String) (recursive includeHidden : Bool) (maxEntries : Option Nat)
    (s : Session) :
    wp (list root recursive includeHidden maxEntries)
      (fun found _ => ∃ entries, s.nodeAt root = .ok (.dir entries) ∧
        found = listed root recursive includeHidden (maxEntries.getD usizeMax) entries)
      (fun _ _ => ∀ entries, s.nodeAt root ≠ .ok (.dir entries)) s := by
  refine wp_openDirectory (fun entries hnode => ?_) (fun hnone _ => hnone)
  simp only [wp_bind, wp_modify, wp_pure]
  exact ⟨entries, hnode, rfl⟩

/-- The entries of a listing are the first ones that are met and not passed over. -/
theorem listed_eq (root : String) (recursive includeHidden : Bool) (limit : Nat)
    (entries : Entries) :
    (listed root recursive includeHidden limit entries).entries =
        ((kept (childrenMet recursive includeHidden [] entries)).map fun item =>
          ⟨relativeDisplay item.1, isDirNode item.2⟩).take limit ∧
      ((listed root recursive includeHidden limit entries).truncated = true ↔
        MetAfter limit (childrenMet recursive includeHidden [] entries)) := by
  have heq := @collectEntries_eq recursive includeHidden limit [] entries []
  have hstart : Listing.of [] false = ⟨[], false, []⟩ := rfl
  rw [hstart] at heq
  simp only [listed, heq, Listing.of]
  rw [collect_eq_take, List.map_take]
  exact ⟨rfl, stopped_iff_metAfter _ _⟩

/-- With exactly `n` entries to be listed, no child is met after the last of them. -/
def EndsInTime (recursive includeHidden : Bool) (n : Nat) (entries : Entries) : Prop :=
  n = min (kept (childrenMet recursive includeHidden [] entries)).length usizeMax →
    ¬ MetAfter n (childrenMet recursive includeHidden [] entries)

theorem endsInTime_iff {recursive includeHidden : Bool} {n : Nat} (hn : n ≤ usizeMax)
    (entries : Entries) :
    EndsInTime recursive includeHidden n entries ↔
      (MetAfter n (childrenMet recursive includeHidden [] entries) ↔
        n < min (kept (childrenMet recursive includeHidden [] entries)).length usizeMax) := by
  rw [EndsInTime]
  generalize childrenMet recursive includeHidden [] entries = met
  rcases Nat.lt_trichotomy n (min (kept met).length usizeMax) with hless | hsame | hmore
  · have hmet : MetAfter n met := metAfter_of_lt (lt_min_iff.mp hless).1
    exact iff_of_true (fun heq => absurd heq hless.ne) (iff_of_true hmet hless)
  · constructor
    · intro h
      exact iff_of_false (h hsame) hsame.not_lt
    · exact fun h _ hmet => absurd (h.mp hmet) hsame.not_lt
  · have hnot : ¬ MetAfter n met := not_metAfter_of_lt (by omega)
    exact iff_of_true (fun _ => hnot) (iff_of_false hnot hmore.not_gt)

/-- The result is that of the full listing, cut off behind `n` entries. -/
structure CutOff (n : Nat) (full bounded : WorkspaceListResult) : Prop where
  entries : bounded.entries = full.entries.take n
  truncated : bounded.truncated = true ↔ n < full.entries.length

/-- A listing with a limit is the full one cut off behind the limit, and says so, if and only if it
does not stop at a child behind its last entry. -/
theorem bounded_listing_iff (s : Session) (root : String) (recursive includeHidden : Bool) (n : Nat)
    (hn : n ≤ usizeMax) (full : WorkspaceListResult)
    (hfull : result (list root recursive includeHidden none) s = some full) :
    (∃ bounded, result (list root recursive includeHidden (some n)) s = some bounded ∧
        CutOff n full bounded) ↔
      ∀ entries, s.nodeAt root = .ok (.dir entries) →
        EndsInTime recursive includeHidden n entries := by
  obtain ⟨entries, hnode, rfl⟩ := wp_of_result (list_listed root recursive includeHidden none s) hfull
  have hbounded : result (list root recursive includeHidden (some n)) s =
      some (listed root recursive includeHidden n entries) := by
    rw [← wp_run (R := fun found _ => found = some (listed root recursive includeHidden n entries))]
    refine wp_mono (list_listed root recursive includeHidden (some n) s) ?_ ?_
    · rintro _ _ ⟨again, hagain, rfl⟩
      obtain rfl : entries = again := by simpa using hnode.symm.trans hagain
      rfl
    · exact fun _ _ hnone => absurd hnode (hnone entries)
  obtain ⟨hentries, htruncated⟩ := listed_eq root recursive includeHidden n entries
  obtain ⟨hfullEntries, -⟩ := listed_eq root recursive includeHidden usizeMax entries
  have hcut : CutOff n (listed root recursive includeHidden usizeMax entries)
      (listed root recursive includeHidden n entries) ↔
        EndsInTime recursive includeHidden n entries := by
    have hleads : (listed root recursive includeHidden n entries).entries =
        (listed root recursive includeHidden usizeMax entries).entries.take n := by
      rw [hentries, hfullEntries, List.take_take, min_eq_left hn]
    have hcount : (listed root recursive includeHidden usizeMax entries).entries.length =
        min (kept (childrenMet recursive includeHidden [] entries)).length usizeMax := by
      rw [hfullEntries, List.length_take, List.length_map, min_comm]
    have hflag := @endsInTime_iff recursive includeHidden n hn entries
    rw [← hcount, ← htruncated] at hflag
    exact ⟨fun h => hflag.mpr h.truncated, fun h => ⟨hleads, hflag.mp h⟩⟩
  rw [hbounded]
  constructor
  · rintro ⟨bounded, hsome, hcutOff⟩ again hagain
    obtain rfl := Option.some.inj hsome
    obtain rfl : entries = again := by simpa using hnode.symm.trans hagain
    exact hcut.mp hcutOff
  · intro h
    exact ⟨_, rfl, hcut.mpr (h entries hnode)⟩

/-- A directory with nothing in it but a hidden file. -/
def keptDirectory : Session :=
  sessionOver [([], "w", none), (["w"], "src", none), (["w", "src"], ".keep", some [])]

/-- The full listing of it. -/
def keptListing : WorkspaceListResult :=
  { root := "w", entries := [⟨"src", true⟩], truncated := false }

theorem empty_prefix_cut_off :
    (∃ bounded, result (list "w" true false (some 0)) keptDirectory = some bounded ∧
        CutOff 0 keptListing bounded) ↔
      ∀ entries, keptDirectory.nodeAt "w" = .ok (.dir entries) → EndsInTime true false 0 entries :=
  bounded_listing_iff keptDirectory "w" true false 0 (by decide) keptListing (by decide +kernel)

/-- All entries are listed, and the listing is said to be cut off at the hidden file. -/
theorem complete_listing_truncated :
    ¬ ∀ (s : Session) (root : String) (recursive includeHidden : Bool) (n : Nat), n ≤ usizeMax →
      ∀ full, result (list root recursive includeHidden none) s = some full →
        ∃ bounded, result (list root recursive includeHidden (some n)) s = some bounded ∧
          CutOff n full bounded := by
  intro h
  obtain ⟨bounded, hbounded, hcut⟩ :=
    h keptDirectory "w" true false 1 (by decide) keptListing (by decide +kernel)
  have htruncated : (result (list "w" true false (some 1)) keptDirectory).map
      WorkspaceListResult.truncated = some true := by decide +kernel
  rw [hbounded, Option.map_some, Option.some.injEq] at htruncated
  exact absurd (hcut.truncated.mp htruncated) (by decide)

end Workspace

end Liz
