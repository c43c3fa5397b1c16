import Liz.Proof.WorkspaceAccess

/-!
# What an edit says of the file

An edit returns whether the file has changed and the text from which its diff is drawn. A patch reads
the file first and gives up if it cannot. A write takes a file that cannot be read, or that is not
there, for an empty one, and what it says is about that.
-/

namespace Liz

open FileTree Program

namespace Workspace

/-- A request that edits a file. -/
inductive EditRequest
  | writeText (path content : String)
  | applyPatch (path search into : String) (replaceAll : Bool)

/-- What an edit returns: whether the file has changed, and the two texts of the diff. -/
structure Edited where
  changed : Bool
  before : String
  after : String

namespace EditRequest

def path : EditRequest → String
  | writeText path _ => path
  | applyPatch path _ _ _ => path

def run : EditRequest → WorkspaceM Edited
  | writeText path content => do
      let execution ← Workspace.writeText path content
      pure ⟨execution.result.changed, execution.before, execution.after⟩
  | applyPatch path search into replaceAll => do
      let execution ← Workspace.applyPatch path search into replaceAll
      pure ⟨execution.result.changed, execution.before, execution.after⟩

/-- A write is to a file that can be read as text, or puts something into one that is not there. -/
def Readable (s : Session) : EditRequest → Prop
  | writeText path content =>
      match s.fileAt path with
      | some bytes => ∃ text, Bytes.toText bytes = some text
      | none => content ≠ ""
  | applyPatch _ _ _ _ => True

end EditRequest

/-- What is said of the edit is true: nothing has changed only if the file was there with the bytes
it has now, and the diff starts from what it held. -/
structure TellsTruth (path : String) (s t : Session) (edited : Edited) : Prop where
  changed : edited.changed = false ↔
    ∃ bytes, s.fileAt path = some bytes ∧ t.fileAt path = some bytes
  before : Bytes.ofText edited.before = (s.fileAt path).getD []

theorem writeText_edits (path content : String) (s : Session) :
    wp (writeText path content)
      (fun execution t => execution.after = content ∧
        t.fileAt path = some (Bytes.ofText execution.after) ∧
        execution.before = (s.textAt path).getD "" ∧
        execution.result.changed = (execution.before != execution.after))
      (fun error _ => error.code ≠ "workspace_patch_read_failed") s := by
  have hwrite : ∀ (before : String) (u : Session), before = (s.textAt path).getD "" → wp (do
      orFail "workspace_write_parent_failed" ("failed to create parent directories for " ++ path)
        (createParent path)
      orFail "workspace_write_failed" ("failed to write " ++ path)
        (write path (Bytes.ofText content))
      pure (Execution.mk (WorkspaceWriteTextResult.mk path (before != content)
        content.utf8ByteSize) before content))
      (fun execution t => execution.after = content ∧
        t.fileAt path = some (Bytes.ofText execution.after) ∧
        execution.before = (s.textAt path).getD "" ∧
        execution.result.changed = (execution.before != execution.after))
      (fun error _ => error.code ≠ "workspace_patch_read_failed") u := by
    intro before u hbefore
    rw [wp_bind, orFail, wp_adaptExcept]
    refine wp_mono (wp_trivial _) (fun _ made _ => ?_) (fun _ _ _ => by simp [RuntimeError.code])
    rw [wp_bind, orFail, wp_adaptExcept]
    refine wp_mono (write_written path _ made) (fun _ t hwritten => ?_)
      (fun _ _ _ => by simp [RuntimeError.code])
    exact ⟨rfl, hwritten, hbefore, rfl⟩
  unfold writeText
  rw [wp_bind, wp_attempt]
  refine wp_mono (wp_readToString path s) ?_ ?_
  · rintro text u ⟨htext, -⟩
    exact hwrite text u (by rw [htext, Option.getD_some])
  · rintro _ u ⟨hnone, -⟩
    exact hwrite "" u (by rw [hnone, Option.getD_none])

theorem tree_afterReading (s : Session) (path : String) : (s.afterReading path).tree = s.tree := by
  unfold Session.afterReading
  split <;> rfl

theorem ensureFile_keeps (path : String) (s : Session) :
    wp (ensureFile path) (fun _ t => t = s) (fun _ t => t = s) s := by
  unfold ensureFile
  rw [wp_bind, wp_get]
  split
  · rfl
  · split <;> rfl

theorem applyPatch_edits (path search into : String) (replaceAll : Bool) (s : Session) :
    wp (applyPatch path search into replaceAll)
      (fun execution t => t.fileAt path = some (Bytes.ofText execution.after) ∧
        s.textAt path = some execution.before ∧
        execution.result.changed = (execution.before != execution.after))
      (fun _ t => t.tree = s.tree) s := by
  unfold applyPatch
  rw [wp_bind]
  refine wp_mono (ensureFile_keeps path s) ?_ (fun _ _ h => congrArg Session.tree h)
  rintro _ s rfl
  rw [wp_bind, orFail, wp_adaptExcept]
  refine wp_mono (wp_readToString path s) ?_ ?_
  · rintro before _ ⟨hbefore, rfl⟩
    dsimp only
    split
    · exact tree_afterReading s path
    · rw [wp_bind, orFail, wp_adaptExcept]
      refine wp_mono (write_written path _ _) (fun _ t hwritten => ?_) ?_
      · exact ⟨hwritten, hbefore, rfl⟩
      · rintro _ _ rfl
        exact tree_afterReading s path
  · rintro _ _ ⟨-, rfl⟩
    exact tree_afterReading s path

/-- What is read of a file as text tells the truth about it. -/
theorem tellsTruth_of_read {path : String} {s t : Session} {edited : Edited}
    (hread : s.textAt path = some edited.before)
    (hwritten : t.fileAt path = some (Bytes.ofText edited.after))
    (hchanged : edited.changed = (edited.before != edited.after)) :
    TellsTruth path s t edited := by
  rw [Session.textAt_eq] at hread
  obtain ⟨bytes, hbytes, htext⟩ := Option.bind_eq_some_iff.mp hread
  have hsame := Bytes.ofText_of_toText htext
  refine ⟨?_, by rw [hbytes, hsame, Option.getD_some]⟩
  rw [hchanged, bne_eq_false_iff_eq, hwritten, hbytes, ← hsame]
  constructor
  · intro heq
    exact ⟨_, rfl, by rw [heq]⟩
  · rintro ⟨_, hbefore, hafter⟩
    exact Bytes.ofText_inj.mp (Option.some.inj (hbefore.trans hafter.symm))

/-- What is taken for the file before a write is what it held exactly if it can be read, or if it was
not there and no longer is empty. -/
theorem written_truth_iff {path : String} {s t : Session} {edited : Edited}
    (hwritten : t.fileAt path = some (Bytes.ofText edited.after))
    (hbefore : edited.before = ((s.fileAt path).bind Bytes.toText).getD "")
    (hchanged : edited.changed = (edited.before != edited.after)) :
    TellsTruth path s t edited ↔ (EditRequest.writeText path edited.after).Readable s := by
  have hempty : Bytes.ofText "" = [] := rfl
  rw [EditRequest.Readable]
  cases hfile : s.fileAt path with
  | none =>
      rw [hfile, Option.bind_none, Option.getD_none] at hbefore
      rw [hbefore] at hchanged
      have hnone : ¬ ∃ bytes, s.fileAt path = some bytes ∧ t.fileAt path = some bytes := by
        rintro ⟨_, hsome, -⟩
        rw [hfile] at hsome
        cases hsome
      constructor
      · intro h hafter
        rw [hafter, bne_self_eq_false] at hchanged
        exact hnone (h.changed.mp hchanged)
      · intro hne
        refine ⟨iff_of_false ?_ hnone, by rw [hfile, hbefore, Option.getD_none, hempty]⟩
        simpa [hchanged] using hne.symm
  | some bytes =>
      rw [hfile, Option.bind_some] at hbefore
      cases htext : Bytes.toText bytes with
      | some text =>
          rw [htext, Option.getD_some] at hbefore
          have hread : s.textAt path = some edited.before := by
            rw [Session.textAt_eq, hfile, Option.bind_some, htext, hbefore]
          exact iff_of_true (tellsTruth_of_read hread hwritten hchanged) ⟨text, htext⟩
      | none =>
          refine iff_of_false (fun h => ?_) (by simp [htext])
          have hbytes := h.before
          rw [hfile, Option.getD_some] at hbytes
          rw [← hbytes, Bytes.toText_ofText] at htext
          cases htext

/-- An edit that succeeds tells the truth if and only if what it reads is what the file held; an edit
that fails because the file cannot be read leaves all files as they were. -/
theorem edits_truthful (request : EditRequest) (s : Session) :
    (∀ edited t, request.run s = .ok edited t →
      (TellsTruth request.path s t edited ↔ request.Readable s)) ∧
    (∀ error t, request.run s = .error error t → error.code = "workspace_patch_read_failed" →
      t.tree = s.tree) := by
  have hrun : wp request.run
      (fun edited t => TellsTruth request.path s t edited ↔ request.Readable s)
      (fun error t => error.code = "workspace_patch_read_failed" → t.tree = s.tree) s := by
    cases request with
    | writeText path content =>
        rw [EditRequest.run, wp_bind]
        refine wp_mono (writeText_edits path content s) ?_ (fun _ _ hother hcode => absurd hcode hother)
        rintro execution t ⟨rfl, hwritten, hbefore, hchanged⟩
        rw [Session.textAt_eq] at hbefore
        exact written_truth_iff hwritten hbefore hchanged
    | applyPatch path search into replaceAll =>
        rw [EditRequest.run, wp_bind]
        refine wp_mono (applyPatch_edits path search into replaceAll s) ?_ (fun _ _ hkept _ => hkept)
        rintro execution t ⟨hwritten, hread, hchanged⟩
        exact iff_of_true (tellsTruth_of_read hread hwritten hchanged) trivial
  constructor
  · intro edited t hok
    exact (wp_iff_of_ok hok).mp hrun
  · intro error t herror
    exact (wp_iff_of_error herror).mp hrun

/-- An empty file is made where none was, and nothing is said to have changed. -/
theorem new_file_unchanged :
    ¬ ∀ (request : EditRequest) (s : Session),
      (∀ edited t, request.run s = .ok edited t → TellsTruth request.path s t edited) ∧
      (∀ error t, request.run s = .error error t → error.code = "workspace_patch_read_failed" →
        t.tree = s.tree) := by
  intro h
  obtain ⟨edited, t, hrun, hchanged⟩ : ∃ edited t,
      EditRequest.run (.writeText "a" "") (sessionOver []) = .ok edited t ∧
        edited.changed = false := exists_ok_of_wp (by decide +kernel)
  obtain ⟨_, hbytes, -⟩ := ((h (.writeText "a" "") (sessionOver [])).1 edited t hrun).changed.mp
    hchanged
  have hmissing : (sessionOver []).fileAt "a" = none := by decide +kernel
  cases hmissing.symm.trans hbytes

end Workspace

end Liz
