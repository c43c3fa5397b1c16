import Liz.Base.Limits
import Liz.Proof.WorkspaceAccess

/-!
# What a search finds

A search walks through the files and opens each of them by its displayed path. What it should find
are the matching lines of the files themselves, up to the limit. It does find them as long as no file
that is displayed under another path brings a line before the limit, and it tells rightly whether
there are more unless there are exactly as many as it may return.
-/

namespace Liz

open Paths FileTree Program Limits

namespace Workspace

/-! ### What there is to find -/

/-- A matching line of a file, and the names that lead to the file. -/
structure LineFound where
  names : List FileName
  number : Nat
  line : String

/-- The matching lines of a text, each with its number. -/
def Query.linesIn (query : Query) (number : Nat) (lines : List String) : List (String × Nat) :=
  (lines.zipIdx number).filter fun line => query.matchesLine line.1

def Query.found (query : Query) (file : List FileName × Bytes) : List LineFound :=
  match Bytes.toText file.2 with
  | some text => (query.linesIn 1 (Text.lines text)).map fun line => ⟨file.1, line.2, line.1⟩
  | none => []

/-- The files of a directory that are searched. -/
def searchedFiles (includeHidden : Bool) (entries : Entries) : List (List FileName × Bytes) :=
  entries.files (fun name => !includeHidden && isHidden name) []

/-- All the lines that match, in the order of the walk. -/
def linesFound (query : Query) (files : List (List FileName × Bytes)) : List LineFound :=
  files.flatMap query.found

def LineFound.hit (found : LineFound) : WorkspaceSearchMatch :=
  ⟨spelled found.names, found.number, found.line⟩

/-- The hit says where the line stands, and its path leads from the root to the file. -/
structure Reports (s : Session) (root : String) (found : LineFound) (hit : WorkspaceSearchMatch) :
    Prop where
  same : hit = found.hit
  leads : s.resolve (join root hit.path) =
    .ok (locate s.cwd root ++ found.names.map FileName.text)

/-- The result has the first lines that are found, and tells whether there are more. -/
structure FindsExactly (s : Session) (root : String) (limit : Nat) (found : List LineFound)
    (result : WorkspaceSearchResult) : Prop where
  hits : List.Forall₂ (Reports s root) (found.take limit) result.hits
  truncated : result.truncated = true ↔ limit < found.length

/-! ### The walk -/

section

variable {includeHidden : Bool}

mutual

theorem collectNode_files (names : List FileName) (node : Node) (gathering : Gathering) :
    (collectNode includeHidden names node gathering).files =
      gathering.files ++
        (node.files (fun name => !includeHidden && isHidden name) names).map Prod.fst := by
  cases node with
  | file content => rfl
  | dir children => exact collectFiles_files names children _

/-- The files that are gathered are those of the directory. -/
theorem collectFiles_files (names : List FileName) (entries : Entries) (gathering : Gathering) :
    (collectFiles includeHidden names entries gathering).files =
      gathering.files ++
        (entries.files (fun name => !includeHidden && isHidden name) names).map Prod.fst := by
  cases entries with
  | nil => exact (List.append_nil _).symm
  | cons name node rest =>
      rw [collectFiles, Entries.files]
      split
      · exact collectFiles_files names rest gathering
      · rw [collectFiles_files names rest, collectNode_files (names ++ [name]) node,
          List.map_append, List.append_assoc]

end

end

/-! ### Lines and files -/

/-- The hits in the lines of a file that is displayed so. -/
def Query.hits (query : Query) (file : String) (number : Nat) (lines : List String) :
    List WorkspaceSearchMatch :=
  (query.linesIn number lines).map fun line => ⟨file, line.2, line.1⟩

theorem Query.hits_cons (query : Query) (file : String) (number : Nat) (line : String)
    (rest : List String) :
    query.hits file number (line :: rest) =
      (if query.matchesLine line then [⟨file, number, line⟩] else []) ++
        query.hits file (number + 1) rest := by
  rw [hits, linesIn, List.zipIdx_cons, List.filter_cons]
  split
  · rfl
  · rfl

/-- A file adds its hits up to the limit. -/
theorem searchLines_eq (query : Query) (file : String) (number : Nat) (lines : List String)
    (found : Found) (hfound : found.hits.length < query.maxResults) :
    searchLines query file number lines found =
      { hits := (found.hits ++ query.hits file number lines).take query.maxResults
        truncated := found.truncated ||
          decide (query.maxResults ≤ (found.hits ++ query.hits file number lines).length) } := by
  induction lines generalizing number found with
  | nil =>
      have hless : ¬ query.maxResults ≤ found.hits.length := not_le.mpr hfound
      have hnone : query.hits file number [] = [] := rfl
      rw [searchLines, hnone, List.append_nil, List.take_of_length_le hfound.le]
      simp [hless]
  | cons line rest ih =>
      rw [searchLines, query.hits_cons]
      split
      · rw [← List.append_assoc]
        have hnext : (found.hits ++ [(⟨file, number, line⟩ : WorkspaceSearchMatch)]).length =
            found.hits.length + 1 := by simp
        dsimp only
        split
        next henough =>
          have hlength : (found.hits ++ [(⟨file, number, line⟩ : WorkspaceSearchMatch)]).length =
              query.maxResults := by omega
          have hmore : query.maxResults ≤ (found.hits ++ [(⟨file, number, line⟩ : WorkspaceSearchMatch)] ++
              query.hits file (number + 1) rest).length := by
            rw [List.length_append]
            omega
          rw [← hlength, List.take_left, hlength, decide_eq_true hmore, Bool.or_true]
        next hmore =>
          exact ih (number + 1) _ (not_le.mp hmore)
      · exact ih (number + 1) found hfound

/-- The hits in the file that a displayed path leads to. -/
def hitsAt (s : Session) (query : Query) (root file : String) : List WorkspaceSearchMatch :=
  match s.textAt (join root file) with
  | some content => query.hits file 1 (Text.lines content)
  | none => []

theorem hitsAt_afterReading (s : Session) (path : String) (query : Query) (root file : String) :
    hitsAt (s.afterReading path) query root file = hitsAt s query root file := by
  unfold Session.afterReading
  split <;> rfl

theorem take_take_append {α : Type} (limit : Nat) (first second : List α) :
    (first.take limit ++ second).take limit = (first ++ second).take limit := by
  rw [List.take_append, List.take_append, List.take_take, min_self, List.length_take]
  rcases Nat.le_total limit first.length with h | h
  · rw [min_eq_left h, Nat.sub_self, Nat.sub_eq_zero_of_le h]
  · rw [min_eq_right h]

/-- The files add their hits up to the limit. -/
theorem searchFiles_finds (query : Query) (root : String) (files : List String) (found : Found)
    (s : Session) (hfound : found.hits.length ≤ query.maxResults) :
    wp (searchFiles query root files found) (fun result _ =>
      result.hits = (found.hits ++ files.flatMap (hitsAt s query root)).take query.maxResults ∧
        (result.truncated = true ↔ found.truncated = true ∨
          if found.hits.length < query.maxResults then
            query.maxResults ≤ (found.hits ++ files.flatMap (hitsAt s query root)).length
          else files ≠ []))
      (fun _ _ => False) s := by
  induction files generalizing found s with
  | nil =>
      refine ⟨by simpa using (List.take_of_length_le hfound).symm, ?_⟩
      by_cases hless : found.hits.length < query.maxResults
      · simp [hless]
      · simp [hless]
  | cons file rest ih =>
      rw [searchFiles, List.flatMap_cons, ← List.append_assoc]
      split
      next henough =>
        have hlength := le_antisymm hfound henough
        refine ⟨?_, ?_⟩
        · rw [← hlength, List.append_assoc, List.take_left]
        · simp [hlength]
      next hmore =>
        have hless := not_le.mp hmore
        have hrest : ∀ (found' : Found) (added : List WorkspaceSearchMatch),
            hitsAt s query root file = added →
            found'.hits = (found.hits ++ added).take query.maxResults →
            (found'.truncated = true ↔ found.truncated = true ∨
              query.maxResults ≤ (found.hits ++ added).length) →
            wp (searchFiles query root rest found') (fun result _ =>
              result.hits = (found.hits ++ hitsAt s query root file ++
                  rest.flatMap (hitsAt s query root)).take query.maxResults ∧
                (result.truncated = true ↔ found.truncated = true ∨
                  if found.hits.length < query.maxResults then
                    query.maxResults ≤ (found.hits ++ hitsAt s query root file ++
                      rest.flatMap (hitsAt s query root)).length
                  else file :: rest ≠ []))
              (fun _ _ => False) (s.afterReading (join root file)) := by
          rintro found' _ rfl hhits htruncated
          have hread : hitsAt (s.afterReading (join root file)) query root = hitsAt s query root :=
            funext (hitsAt_afterReading s _ query root)
          have hlength : found'.hits.length =
              min query.maxResults (found.hits ++ hitsAt s query root file).length := by
            rw [hhits, List.length_take]
          refine wp_mono (ih found' _ (hlength ▸ min_le_left _ _)) ?_ (fun _ _ h => h)
          rintro result _ ⟨hresult, hflag⟩
          rw [hread] at hresult hflag
          refine ⟨by rw [hresult, hhits, take_take_append], ?_⟩
          rw [hflag, htruncated, if_pos hless]
          by_cases hfull : query.maxResults ≤ (found.hits ++ hitsAt s query root file).length
          · refine iff_of_true (.inl (.inr hfull)) (.inr ?_)
            rw [List.length_append]
            omega
          · have hall := List.take_of_length_le (not_le.mp hfull).le
            rw [if_pos (by omega), hhits, hall, or_iff_left hfull]
        rw [wp_bind, wp_attempt]
        refine wp_mono (wp_readToString (join root file) s) ?_ ?_
        · rintro content _ ⟨htext, rfl⟩
          refine hrest _ (query.hits file 1 (Text.lines content)) (by rw [hitsAt, htext]) ?_ ?_
          · rw [searchLines_eq _ _ _ _ _ hless]
          · rw [searchLines_eq _ _ _ _ _ hless]
            simp
        · rintro _ _ ⟨htext, rfl⟩
          refine hrest _ [] (by rw [hitsAt, htext]) ?_ ?_
          · rw [List.append_nil, List.take_of_length_le hfound]
          · simp [hmore]

/-! ### Displayed paths -/

theorem toList_relativeDisplay (names : List FileName) :
    (relativeDisplay names).toList = misread '\\' (spelled names).toList := by
  exact String.toList_ofList.trans (Text.replaceChars_singleton '\\' '/' _)

theorem not_mem_relativeDisplay (names : List FileName) : '\\' ∉ (relativeDisplay names).toList := by
  rw [toList_relativeDisplay, misread, List.mem_map]
  rintro ⟨x, -, hx⟩
  split at hx
  · exact absurd hx (by decide)
  · next hne => exact hne hx

theorem mem_spelled {c : Char} {names : List FileName}
    (h : ∃ name ∈ names, c ∈ name.text.toList) : c ∈ (spelled names).toList := by
  induction names with
  | nil => simp at h
  | cons name rest ih =>
      rw [toList_spelled_cons, List.mem_append]
      by_cases hname : c ∈ name.text.toList
      · exact .inl hname
      · have hrest : ∃ name ∈ rest, c ∈ name.text.toList := by simpa [hname] using h
        have hne : rest ≠ [] := by
          rintro rfl
          simp at hrest
        rw [if_neg hne]
        exact .inr (List.mem_cons_of_mem _ (ih hrest))

/-- The hits that a file should bring. -/
def ownHits (query : Query) (file : List FileName × Bytes) : List WorkspaceSearchMatch :=
  (query.found file).map LineFound.hit

/-- The hits that it does bring. -/
def shownHits (s : Session) (query : Query) (root : String) (file : List FileName × Bytes) :
    List WorkspaceSearchMatch :=
  hitsAt s query root (relativeDisplay file.1)

theorem ownHits_eq (query : Query) (file : List FileName × Bytes) :
    ownHits query file =
      match Bytes.toText file.2 with
      | some text => query.hits (spelled file.1) 1 (Text.lines text)
      | none => [] := by
  rw [ownHits, Query.found]
  cases Bytes.toText file.2 with
  | none => rfl
  | some text => exact List.map_map

theorem Query.names_of_mem_found {query : Query} {file : List FileName × Bytes} {line : LineFound}
    (h : line ∈ query.found file) : line.names = file.1 := by
  rw [Query.found] at h
  split at h
  · obtain ⟨_, -, rfl⟩ := List.mem_map.mp h
    rfl
  · exact absurd h List.not_mem_nil

theorem Query.path_of_mem_hits {query : Query} {file : String} {number : Nat} {lines : List String}
    {hit : WorkspaceSearchMatch} (h : hit ∈ query.hits file number lines) : hit.path = file := by
  obtain ⟨line, -, rfl⟩ := List.mem_map.mp h
  rfl

theorem path_of_mem_ownHits {query : Query} {file : List FileName × Bytes}
    {hit : WorkspaceSearchMatch} (h : hit ∈ ownHits query file) : hit.path = spelled file.1 := by
  rw [ownHits_eq] at h
  split at h
  · exact Query.path_of_mem_hits h
  · exact absurd h List.not_mem_nil

theorem path_of_mem_shownHits {s : Session} {query : Query} {root : String}
    {file : List FileName × Bytes} {hit : WorkspaceSearchMatch}
    (h : hit ∈ shownHits s query root file) : hit.path = relativeDisplay file.1 := by
  rw [shownHits, hitsAt] at h
  split at h
  · exact Query.path_of_mem_hits h
  · exact absurd h List.not_mem_nil

section Root

variable {s : Session} {root : String} {includeHidden : Bool} {entries : Entries}

theorem ordered_of_nodeAt (hroot : s.nodeAt root = .ok (.dir entries)) : entries.Ordered := by
  obtain ⟨location, -, hlookup⟩ := Session.exists_of_nodeAt hroot
  exact Entries.ordered_of_lookup s.tree.ordered hlookup

/-- A file that is searched is found at its own path. -/
theorem leads_of_mem (hroot : s.nodeAt root = .ok (.dir entries)) {file : List FileName × Bytes}
    (hfile : file ∈ searchedFiles includeHidden entries) :
    file.1 ≠ [] ∧
      s.resolve (join root (spelled file.1)) =
        .ok (locate s.cwd root ++ file.1.map FileName.text) ∧
      s.nodeAt (join root (spelled file.1)) = .ok (.file file.2) := by
  obtain ⟨name, below, hpath, -, hlookup⟩ :=
    Entries.exists_of_mem_files (ordered_of_nodeAt hroot) hfile
  rw [List.nil_append] at hpath
  rw [hpath]
  exact ⟨List.cons_ne_nil _ _, Session.nodeAt_join hroot (List.cons_ne_nil _ _) hlookup⟩

theorem shownHits_eq_ownHits (hroot : s.nodeAt root = .ok (.dir entries)) (query : Query)
    {file : List FileName × Bytes} (hfile : file ∈ searchedFiles includeHidden entries)
    (hplain : ¬ Misread file.1) : shownHits s query root file = ownHits query file := by
  have hdisplay : relativeDisplay file.1 = spelled file.1 := relativeDisplay_of_not_misread hplain
  rw [shownHits, hdisplay, hitsAt, ownHits_eq, Session.textAt, (leads_of_mem hroot hfile).2.2]

/-- The hits of a search and those that there should be agree up to the limit exactly if the files
that are displayed under other paths bring nothing before it. -/
theorem take_hits_eq_iff (hroot : s.nodeAt root = .ok (.dir entries)) (query : Query) (limit : Nat) :
    ((searchedFiles includeHidden entries).flatMap (shownHits s query root)).take limit =
        ((searchedFiles includeHidden entries).flatMap (ownHits query)).take limit ↔
      Harmless (ownHits query) (shownHits s query root) (fun file => Misread file.1) limit
        (searchedFiles includeHidden entries) := by
  refine take_flatMap_eq_iff (fun file => shownHits_eq_ownHits hroot query) ?_ ?_ limit
  · intro file other hmisread hit hhit hit' hhit' heq
    have hback := mem_spelled hmisread
    rw [← path_of_mem_ownHits hhit, heq, path_of_mem_shownHits hhit'] at hback
    exact not_mem_relativeDisplay other.1 hback
  · have hsorted := @Entries.pairwise_files (fun name => !includeHidden && isHidden name)
      entries (ordered_of_nodeAt hroot) []
    refine hsorted.imp_of_mem ?_
    intro file other _ hother hbefore hmisread hit hhit hit' hhit' heq
    have hsame : misread '\\' (spelled file.1).toList = (spelled other.1).toList := by
      rw [← toList_relativeDisplay, ← path_of_mem_shownHits hhit, heq, path_of_mem_ownHits hhit']
    exact hbefore.asymm (before_of_misread hmisread (leads_of_mem hroot hother).1 hsame)

end Root

/-! ### The search -/

/-- No file that is displayed under another path brings a line before the limit, neither its own nor
one of what is found under that path; and there are not exactly as many lines as the limit, unless
there is nothing to search and nothing asked for. -/
structure SearchedInTime (s : Session) (query : Query) (root : String)
    (files : List (List FileName × Bytes)) : Prop where
  plain : ∀ before file after, files = before ++ file :: after → Misread file.1 →
    (linesFound query before).length < query.maxResults →
    query.found file = [] ∧ hitsAt s query root (relativeDisplay file.1) = []
  strict : (linesFound query files).length = query.maxResults → query.maxResults = 0 ∧ files = []

theorem search_finds (s : Session) (query : Query) (root : String) (includeHidden : Bool)
    {entries : Entries} (hroot : s.nodeAt root = .ok (.dir entries)) :
    wp (search root query.pattern query.caseSensitive includeHidden (some query.maxResults))
      (fun result _ =>
        result.hits = ((searchedFiles includeHidden entries).flatMap
            (shownHits s query root)).take query.maxResults ∧
          (result.truncated = true ↔ if 0 < query.maxResults then
              query.maxResults ≤ ((searchedFiles includeHidden entries).flatMap
                (shownHits s query root)).length
            else searchedFiles includeHidden entries ≠ []))
      (fun _ _ => False) s := by
  refine wp_openDirectory (fun again hagain => ?_) (fun hnone _ => hnone entries hroot)
  obtain rfl : entries = again := by simpa using hroot.symm.trans hagain
  simp only [wp_bind, wp_modify]
  refine wp_mono (searchFiles_finds query root _ ⟨[], false⟩ _ (Nat.zero_le _)) ?_ (fun _ _ h => h)
  rintro found _ ⟨hhits, htruncated⟩
  have hfiles : (collectFiles includeHidden [] entries ⟨[], []⟩).files =
      (searchedFiles includeHidden entries).map Prod.fst := collectFiles_files [] entries _
  have hshown : ((collectFiles includeHidden [] entries ⟨[], []⟩).files.map
      relativeDisplay).flatMap (hitsAt s query root) =
        (searchedFiles includeHidden entries).flatMap (shownHits s query root) := by
    rw [hfiles, List.map_map, List.flatMap_map]
    rfl
  refine ⟨hhits.trans (congrArg (List.take query.maxResults) hshown), ?_⟩
  have hempty : (collectFiles includeHidden [] entries ⟨[], []⟩).files.map relativeDisplay ≠ [] ↔
      searchedFiles includeHidden entries ≠ [] := by
    rw [hfiles]
    simp
  rw [← hshown, ← hempty]
  simp only [Bool.false_eq_true, false_or, List.length_nil, List.nil_append] at htruncated
  exact htruncated

theorem linesFound_map_hit (query : Query) (files : List (List FileName × Bytes)) :
    (linesFound query files).map LineFound.hit = files.flatMap (ownHits query) := by
  rw [linesFound, List.map_flatMap]
  rfl

theorem harmless_iff {s : Session} {query : Query} {root : String}
    {files : List (List FileName × Bytes)} :
    Harmless (ownHits query) (shownHits s query root) (fun file => Misread file.1) query.maxResults
        files ↔
      ∀ before file after, files = before ++ file :: after → Misread file.1 →
        (linesFound query before).length < query.maxResults →
        query.found file = [] ∧ hitsAt s query root (relativeDisplay file.1) = [] := by
  simp only [Harmless, ← linesFound_map_hit, List.length_map, ownHits, List.map_eq_nil_iff]
  rfl

theorem findsExactly_iff {s : Session} {root : String} {limit : Nat} {found : List LineFound}
    {result : WorkspaceSearchResult}
    (hleads : ∀ line ∈ found, s.resolve (join root (spelled line.names)) =
      .ok (locate s.cwd root ++ line.names.map FileName.text)) :
    FindsExactly s root limit found result ↔
      result.hits = (found.map LineFound.hit).take limit ∧
        (result.truncated = true ↔ limit < found.length) := by
  have hhits : List.Forall₂ (Reports s root) (found.take limit) result.hits ↔
      result.hits = (found.map LineFound.hit).take limit := by
    rw [← List.map_take]
    constructor
    · intro h
      have hsame := h.imp fun _ _ hreports => hreports.same.symm
      rw [← List.forall₂_map_left_iff, List.forall₂_eq_eq_eq] at hsame
      exact hsame.symm
    · intro h
      rw [h, List.forall₂_map_right_iff, List.forall₂_same]
      exact fun line hline => ⟨rfl, hleads line (List.mem_of_mem_take hline)⟩
  exact ⟨fun h => ⟨hhits.mp h.hits, h.truncated⟩, fun h => ⟨hhits.mpr h.1, h.2⟩⟩

/-- Where the hits are those of the lines, the flag is right if and only if the limit is not met
exactly. -/
theorem truncated_iff {α : Type} {limit shown found : Nat} {files : List α}
    (hcount : min limit shown = min limit found) (hnothing : files = [] → found = 0) :
    ((if 0 < limit then limit ≤ shown else files ≠ []) ↔ limit < found) ↔
      (found = limit → limit = 0 ∧ files = []) := by
  split
  next hlimit =>
    have hshown : limit ≤ shown ↔ limit ≤ found := by omega
    rw [hshown]
    exact ⟨fun h heq => by omega, fun h => by omega⟩
  next hzero =>
    obtain rfl : limit = 0 := by omega
    constructor
    · intro h heq
      exact ⟨rfl, not_not.mp fun hfiles => absurd (h.mp hfiles) (by omega)⟩
    · intro h
      refine ⟨fun hfiles => ?_, fun hpos hfiles => ?_⟩
      · exact Nat.pos_of_ne_zero fun heq => hfiles (h heq).2
      · rw [hnothing hfiles] at hpos
        exact absurd hpos (Nat.lt_irrefl 0)

/-- A search finds exactly the matching lines up to its limit, each under the path of its file, and
tells rightly whether there are more, if and only if it searches in time. -/
theorem search_exact_iff (s : Session) (query : Query) (root : String) (includeHidden : Bool)
    (entries : Entries) (hroot : s.nodeAt root = .ok (.dir entries)) :
    (∃ result, Program.result
        (search root query.pattern query.caseSensitive includeHidden (some query.maxResults)) s =
          some result ∧
        FindsExactly s root query.maxResults (linesFound query (searchedFiles includeHidden entries))
          result) ↔
      SearchedInTime s query root (searchedFiles includeHidden entries) := by
  have hfinds := search_finds s query root includeHidden hroot
  obtain ⟨result, hresult⟩ := Option.isSome_iff_exists.mp (isSome_result_of_wp hfinds)
  obtain ⟨hhits, htruncated⟩ := wp_of_result hfinds hresult
  have hleads : ∀ line ∈ linesFound query (searchedFiles includeHidden entries),
      s.resolve (join root (spelled line.names)) =
        .ok (locate s.cwd root ++ line.names.map FileName.text) := by
    intro line hline
    obtain ⟨file, hfile, hfound⟩ := List.mem_flatMap.mp hline
    rw [Query.names_of_mem_found hfound]
    exact (leads_of_mem hroot hfile).2.1
  have hagree :=
    (@take_hits_eq_iff s root includeHidden entries hroot query query.maxResults).trans
      harmless_iff
  rw [← hhits, ← linesFound_map_hit] at hagree
  have hnothing : searchedFiles includeHidden entries = [] →
      (linesFound query (searchedFiles includeHidden entries)).length = 0 := by
    intro hempty
    rw [hempty]
    rfl
  have hflag : result.hits = ((linesFound query (searchedFiles includeHidden entries)).map
      LineFound.hit).take query.maxResults →
      ((result.truncated = true ↔
          query.maxResults < (linesFound query (searchedFiles includeHidden entries)).length) ↔
        ((linesFound query (searchedFiles includeHidden entries)).length = query.maxResults →
          query.maxResults = 0 ∧ searchedFiles includeHidden entries = [])) := by
    intro hsame
    have hcount := congrArg List.length (hhits.symm.trans hsame)
    rw [List.length_take, List.length_take, List.length_map] at hcount
    rw [htruncated]
    exact truncated_iff hcount hnothing
  rw [hresult]
  constructor
  · rintro ⟨_, hsome, hfound⟩
    obtain rfl := Option.some.inj hsome
    obtain ⟨hsame, htruncated⟩ := (findsExactly_iff hleads).mp hfound
    exact ⟨hagree.mp hsame, (hflag hsame).mp htruncated⟩
  · intro h
    have hsame := hagree.mpr h.plain
    exact ⟨result, rfl, (findsExactly_iff hleads).mpr ⟨hsame, (hflag hsame).mpr h.strict⟩⟩

/-- A directory with one file, which has one line. -/
def oneLine : Session := sessionOver [([], "w", none), (["w"], "a", some [120])]

def oneFile : Entries := .cons ⟨"a", by decide, by decide, by decide⟩ (.file [120]) .nil

theorem oneLine_root : oneLine.nodeAt "w" = .ok (.dir oneFile) := by rfl

theorem second_line_asked_for :
    (∃ result, Program.result (search "w" "x" true false (some 2)) oneLine = some result ∧
        FindsExactly oneLine "w" 2 (linesFound ⟨"x", true, 2⟩ (searchedFiles false oneFile))
          result) ↔
      SearchedInTime oneLine ⟨"x", true, 2⟩ "w" (searchedFiles false oneFile) :=
  search_exact_iff oneLine ⟨"x", true, 2⟩ "w" false oneFile oneLine_root

/-- All lines are returned, and the result is said to be cut off. -/
theorem complete_search_truncated :
    ¬ ∀ (s : Session) (query : Query) (root : String) (includeHidden : Bool) (entries : Entries),
      s.nodeAt root = .ok (.dir entries) →
      ∃ result, Program.result
          (search root query.pattern query.caseSensitive includeHidden (some query.maxResults)) s =
            some result ∧
          FindsExactly s root query.maxResults
            (linesFound query (searchedFiles includeHidden entries)) result := by
  intro h
  obtain ⟨result, hresult, hfound⟩ := h oneLine ⟨"x", true, 1⟩ "w" false oneFile oneLine_root
  have htruncated : (Program.result (search "w" "x" true false (some 1)) oneLine).map
      WorkspaceSearchResult.truncated = some true := by decide +kernel
  rw [hresult, Option.map_some, Option.some.injEq] at htruncated
  exact absurd (hfound.truncated.mp htruncated) (by decide +kernel)

end Workspace

end Liz
