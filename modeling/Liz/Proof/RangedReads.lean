import Liz.Proof.WorkspaceAccess

/-!
# Reading a part of a file

A read asks for the lines from one number to another, and both are optional. What is returned is cut
out of the lines of the file, and the numbers of its first and last line are returned with it. The
last number is brought back into the file; the first one is not.
-/

/-! ### Ranges of a list -/

namespace Ranges

variable {α : Type} {items : List α} {first last : Nat}

/-- `items[first..last]`: there is none unless the bounds are in order and within the list. -/
def slice? (items : List α) (first last : Nat) : Option (List α) :=
  if first ≤ last ∧ last ≤ items.length then some ((items.take last).drop first) else none

/-- The items whose numbers are in the range, the first item having the number 1. -/
def numbered (first last : Nat) (items : List α) : List α :=
  ((items.zipIdx 1).filter fun item => first ≤ item.2 ∧ item.2 ≤ last).map Prod.fst

theorem numbered_eq (first last : Nat) (items : List α) :
    numbered first last items = (items.take last).drop (first - 1) := by
  have hfrom : ∀ n, ((items.zipIdx (n + 1)).filter fun item => first ≤ item.2 ∧ item.2 ≤ last).map
      Prod.fst = (items.take (last - n)).drop (first - (n + 1)) := by
    induction items with
    | nil => simp
    | cons item rest ih =>
        intro n
        rw [List.zipIdx_cons]
        by_cases hbefore : first ≤ n + 1
        · by_cases hbehind : n + 1 ≤ last
          · obtain ⟨more, hmore⟩ : ∃ more, last - n = more + 1 := ⟨last - n - 1, by omega⟩
            have hnext : last - (n + 1) = more := by omega
            have hzero : first - (n + 1) = 0 := by omega
            have hzero' : first - (n + 1 + 1) = 0 := by omega
            rw [List.filter_cons_of_pos (by simp [hbefore, hbehind]), List.map_cons, ih (n + 1),
              hmore, hnext, hzero, hzero', List.take_succ_cons]
            rfl
          · have hnone : last - n = 0 := by omega
            have hnone' : last - (n + 1) = 0 := by omega
            rw [List.filter_cons_of_neg (by simp [hbehind]), ih (n + 1), hnone, hnone']
            simp
        · obtain ⟨more, hmore⟩ : ∃ more, first - (n + 1) = more + 1 := ⟨first - n - 2, by omega⟩
          have hnext : first - (n + 1 + 1) = more := by omega
          rw [List.filter_cons_of_neg (by simp [hbefore]), ih (n + 1), hmore, hnext]
          cases hcount : last - n with
          | zero =>
              have hnone : last - (n + 1) = 0 := by omega
              simp [hnone]
          | succ count =>
              have hcount' : last - (n + 1) = count := by omega
              rw [hcount', List.take_succ_cons, List.drop_succ_cons]
  exact hfrom 0

/-- Bounds that are brought back into the list cut out what they would cut out as they are. -/
theorem slice?_clamped (items : List α) (hordered : first ≤ last) :
    slice? items (min first items.length) (min last items.length) =
      some ((items.take last).drop first) := by
  have htake : items.take (min last items.length) = items.take last := by
    rw [List.take_eq_take_iff]
    omega
  rw [slice?, if_pos (by omega), htake]
  congr 1
  rcases Nat.le_total first items.length with hfirst | hfirst
  · rw [Nat.min_eq_left hfirst]
  · rw [Nat.min_eq_right hfirst, List.drop_eq_nil_of_le (by simp), List.drop_eq_nil_of_le (by simp; omega)]

end Ranges

namespace Liz

open FileTree Program Ranges

namespace Workspace

/-! ### What is cut out -/

/-- The content as it is cut out of the lines. There is none when cutting it out panics. -/
def slicedContent (lines : List String) (startLine endLine : Option Nat) : Option String :=
  let startLine := max (startLine.getD 1) 1
  let endLine := max (endLine.getD (max lines.length 1)) startLine
  if lines.isEmpty then some ""
  else (slice? lines (min (startLine - 1) lines.length) (min endLine lines.length)).map
    fun kept => Text.join kept "\n"

/-- What a read returns of a text. -/
def readResult (path text : String) (startLine endLine : Option Nat) : WorkspaceReadResult :=
  let lines := Text.lines text
  let first := max (startLine.getD 1) 1
  let last := max (endLine.getD (max lines.length 1)) first
  { path := path
    content := Text.join ((lines.take last).drop (first - 1)) "\n"
    startLine := first
    endLine := min last (max lines.length 1)
    totalLines := max lines.length 1 }

variable {path text : String} {s : Session} {startLine endLine : Option Nat}

/-- Cutting out never panics. -/
theorem slicedContent_eq (path text : String) (startLine endLine : Option Nat) :
    slicedContent (Text.lines text) startLine endLine =
      some (readResult path text startLine endLine).content := by
  unfold slicedContent readResult
  dsimp only
  split
  next hempty =>
    rw [List.isEmpty_iff.mp hempty]
    simp [Text.join]
  next => rw [slice?_clamped _ (by omega), Option.map_some]

/-- A file that holds a text is read. -/
theorem read_eq (hfile : s.textAt path = some text) (startLine endLine : Option Nat) :
    read path startLine endLine s =
      .ok (readResult path text startLine endLine) (s.afterReading path) := by
  have hnode : ∃ content, s.nodeAt path = .ok (.file content) := by
    unfold Session.textAt at hfile
    split at hfile
    next content hnode => exact ⟨content, hnode⟩
    next => cases hfile
  obtain ⟨content, hnode⟩ := hnode
  have hread : wp (read path startLine endLine)
      (fun result t => result = readResult path text startLine endLine ∧ t = s.afterReading path)
      (fun _ _ => False) s := by
    unfold read ensureFile
    simp only [wp_bind, wp_get, Session.pathExists, Session.isFile, hnode, Bool.not_true,
      Bool.false_eq_true, if_false, wp_pure]
    rw [orFail, wp_adaptExcept]
    refine wp_mono (wp_readToString path s) ?_ ?_
    · rintro found t ⟨hfound, rfl⟩
      obtain rfl := Option.some.inj (hfile.symm.trans hfound)
      refine ⟨?_, rfl⟩
      unfold readResult
      dsimp only
      split
      next hempty =>
        rw [List.isEmpty_iff.mp hempty]
        simp [Text.join]
      next => rfl
    · rintro _ _ ⟨hnone, -⟩
      rw [hfile] at hnone
      cases hnone
  obtain ⟨result, t, hrun, rfl, rfl⟩ := exists_ok_of_wp hread
  exact hrun

theorem textAt_afterReading (s : Session) (read path : String) :
    (s.afterReading read).textAt path = s.textAt path := by
  unfold Session.afterReading
  split <;> rfl

/-! ### Whether the numbers say what has been cut out -/

/-- The numbers that are returned are those of lines of the file, and the content is these lines. -/
structure Exact (text : String) (result : WorkspaceReadResult) : Prop where
  first : 1 ≤ result.startLine
  ordered : result.startLine ≤ result.endLine
  last : result.endLine ≤ result.totalLines
  content : result.content =
    Text.join (numbered result.startLine result.endLine (Text.lines text)) "\n"

/-- A read that starts within the file says which lines it returns. -/
theorem readResult_exact_iff (path text : String) (startLine endLine : Option Nat) :
    Exact text (readResult path text startLine endLine) ↔
      startLine.getD 1 ≤ max (Text.lines text).length 1 := by
  constructor
  · intro h
    have hordered := h.ordered
    unfold readResult at hordered
    dsimp only at hordered
    omega
  · intro hstart
    unfold readResult
    dsimp only
    constructor
    case first => exact Nat.le_max_right _ _
    case ordered =>
      dsimp only
      omega
    case last => exact Nat.min_le_right _ _
    case content =>
      dsimp only
      rw [numbered_eq]
      congr 2
      rw [List.take_eq_take_iff]
      omega

/-- The file read in two parts, with the lines up to the `k`th in the first one. -/
def readInTwo (path : String) (k : Nat) : WorkspaceM String := do
  let first ← read path (some 1) (some k)
  let second ← read path (some (k + 1)) (some first.totalLines)
  pure (Text.join [first.content, second.content] "\n")

/-- Two parts joined are the whole. -/
theorem readInTwo_eq (hfile : s.textAt path = some text) {k : Nat} (hk : 1 ≤ k)
    (hlines : k < (readResult path text none none).totalLines) :
    wp (readInTwo path k) (fun content _ => content = (readResult path text none none).content)
      (fun _ _ => False) s := by
  have hsecond := (textAt_afterReading s path path).trans hfile
  unfold readInTwo
  rw [wp_bind, wp_iff_of_ok (read_eq hfile _ _), wp_bind, wp_iff_of_ok (read_eq hsecond _ _), wp_pure]
  unfold readResult at hlines ⊢
  dsimp only [Option.getD_some, Option.getD_none] at hlines ⊢
  have hcount : max (Text.lines text).length 1 = (Text.lines text).length := by omega
  rw [hcount] at hlines ⊢
  have hbounds : max 1 1 = 1 ∧ max k 1 = k ∧ max (k + 1) 1 = k + 1 ∧
      max (Text.lines text).length (k + 1) = (Text.lines text).length ∧
      max (Text.lines text).length 1 = (Text.lines text).length := by omega
  obtain ⟨hone, hend, hstart, hlast, hwhole⟩ := hbounds
  rw [hone, hend, hstart, hlast, hwhole, Nat.sub_self, Nat.add_sub_cancel, List.drop_zero,
    List.drop_zero, List.take_length]
  have hleft : (Text.lines text).take k ≠ [] := by
    rw [← List.length_pos_iff, List.length_take]
    omega
  have hright : (Text.lines text).drop k ≠ [] := by
    rw [← List.length_pos_iff, List.length_drop]
    omega
  unfold Text.join
  rw [String.intercalate_cons_cons, String.intercalate_singleton,
    ← String.intercalate_append_of_ne_nil hleft hright, List.take_append_drop]

/-- A read of the text cuts out its content without panicking and says which lines it returns, and
the text can be read in two parts. -/
def ReadsExactly (s : Session) (path text : String) (startLine endLine : Option Nat) : Prop :=
  wp (read path startLine endLine)
    (fun result _ => slicedContent (Text.lines text) startLine endLine = some result.content ∧
      Exact text result)
    (fun _ _ => False) s ∧
  wp (read path none none)
    (fun whole t => ∀ k, 1 ≤ k → k < whole.totalLines →
      wp (readInTwo path k) (fun content _ => content = whole.content) (fun _ _ => False) t)
    (fun _ _ => False) s

/-- A text is read exactly if and only if the read starts within the file. -/
theorem readsExactly_iff (hfile : s.textAt path = some text) :
    ReadsExactly s path text startLine endLine ↔
      startLine.getD 1 ≤ max (Text.lines text).length 1 := by
  rw [ReadsExactly, wp_iff_of_ok (read_eq hfile _ _), wp_iff_of_ok (read_eq hfile _ _), readResult_exact_iff,
    slicedContent_eq path]
  have hagain := (textAt_afterReading s path path).trans hfile
  constructor
  · rintro ⟨⟨-, hstart⟩, -⟩
    exact hstart
  · intro hstart
    exact ⟨⟨rfl, hstart⟩, fun k hk hlines => readInTwo_eq hagain hk hlines⟩

/-- A file that holds two lines. -/
def twoLines : Session := sessionOver [([], "a", some (Bytes.ofText "x\ny\n"))]

theorem textAt_twoLines : twoLines.textAt "a" = some "x\ny\n" := by decide +kernel

theorem two_lines_read_inverted : ReadsExactly twoLines "a" "x\ny\n" (some 2) (some 0) :=
  (readsExactly_iff textAt_twoLines).mpr (by decide +kernel)

/-- From the third line on nothing is read, and that is said to be the lines 3 to 2. -/
theorem read_behind_the_end :
    twoLines.textAt "a" = some "x\ny\n" ∧
      ¬ ReadsExactly twoLines "a" "x\ny\n" (some 3) none := by
  refine ⟨textAt_twoLines, fun h => ?_⟩
  have hread := h.1
  rw [wp_iff_of_ok (read_eq textAt_twoLines _ _), readResult_exact_iff] at hread
  exact absurd hread.2 (by decide +kernel)

end Workspace

end Liz
