import Liz.Proof.CliTranscripts

/-!
# Opening a session again

A session that is opened puts its own entries in front of what the client has of the thread, and
leaves out what is among the last three entries at its turn. So it is recognised again only as far
as it lies no further back than that.
-/

namespace Liz

open Recent

/-- The entries that show something. -/
def withText (entries : List TranscriptEntry) : List TranscriptEntry :=
  entries.filter fun entry => !Text.isBlank entry.body

theorem foldl_pushDedupedEntry (pushed entries : List TranscriptEntry) :
    pushed.foldl pushDedupedEntry entries = (withText pushed).foldl (push 3) entries := by
  induction pushed generalizing entries with
  | nil => rfl
  | cons entry rest ih =>
      rw [List.foldl_cons, ih, withText, withText, List.filter_cons]
      cases htext : Text.isBlank entry.body with
      | true => simp [pushDedupedEntry, htext]
      | false => simp [ViewModel.pushDedupedEntry_of_text entry htext]

theorem withText_added (k : Nat) (entries pushed : List TranscriptEntry) :
    withText (added k entries (withText pushed)) = added k entries (withText pushed) := by
  rw [withText, List.filter_eq_self]
  intro entry hentry
  exact (List.mem_filter.mp (mem_of_mem_added hentry)).2

/-- The entries of a session as they are shown. -/
def MemorySessionView.history (session : MemorySessionView) : List TranscriptEntry :=
  session.recentEntries.filterMap entryFromSession

/-- What opening the session puts behind its own entries. -/
def MemorySessionView.keptBehind (session : MemorySessionView) (transcript : List TranscriptEntry) :
    List TranscriptEntry :=
  added 3 session.history (withText transcript)

namespace ViewModel

/-- The view after the session has been opened. -/
def opened (view : ViewModel) (session : MemorySessionView) : ViewModel :=
  view.applyResponse (.memoryOpenSession session)

variable {view : ViewModel} {session : MemorySessionView}

theorem threadTranscripts_opened : (view.opened session).threadTranscripts =
    view.threadTranscripts.insert session.threadId
      ((view.transcriptOf session.threadId).foldl pushDedupedEntry session.history) := by
  unfold opened applyResponse replaceThreadHistory
  dsimp only
  split <;> rfl

theorem activeThreadId_opened : (view.opened session).activeThreadId = view.activeThreadId := by
  unfold opened applyResponse replaceThreadHistory
  dsimp only
  split <;> rfl

/-- The transcript on the screen is the one of the session, if its thread is the active one. -/
theorem transcriptEntries_opened : (view.opened session).transcriptEntries =
    if view.activeThreadId = some session.threadId then
      (view.opened session).transcriptOf session.threadId
    else view.transcriptEntries := by
  have hselected : ∀ entries, (view.setTranscript session.threadId entries).selectedThreadId =
      view.activeThreadId := fun _ => rfl
  by_cases hactive : view.activeThreadId = some session.threadId
  · rw [if_pos hactive]
    unfold opened applyResponse replaceThreadHistory
    dsimp only
    rw [if_pos ((hselected _).trans hactive)]
    show ((view.setTranscript session.threadId _).selectedThreadId.map _).getD [] = _
    rw [hselected, hactive]
    rfl
  · rw [if_neg hactive]
    unfold opened applyResponse replaceThreadHistory
    dsimp only
    rw [if_neg fun h => hactive ((hselected _).symm.trans h)]
    rfl

/-- The entries of the session stand in front of what is kept of the transcript. -/
theorem transcriptOf_opened : (view.opened session).transcriptOf session.threadId =
    session.history ++ session.keptBehind (view.transcriptOf session.threadId) := by
  rw [transcriptOf, threadTranscripts_opened, AList.lookup_insert, Option.getD_some,
    foldl_pushDedupedEntry, foldl_push_eq]
  rfl

/-- The same session leaves the transcripts alone if and only if its own is the same. -/
theorem reopened_iff :
    (((view.opened session).opened session).threadTranscripts =
        (view.opened session).threadTranscripts ∧
      ((view.opened session).opened session).transcriptEntries =
        (view.opened session).transcriptEntries) ↔
      ((view.opened session).opened session).transcriptOf session.threadId =
        (view.opened session).transcriptOf session.threadId := by
  constructor
  · intro h
    rw [transcriptOf, h.1]
    rfl
  · intro h
    have hsame : ((view.opened session).opened session).threadTranscripts =
        (view.opened session).threadTranscripts := by
      rw [transcriptOf, transcriptOf, threadTranscripts_opened, AList.lookup_insert,
        Option.getD_some, threadTranscripts_opened, AList.lookup_insert, Option.getD_some] at h
      rw [threadTranscripts_opened, h, threadTranscripts_opened, AList.insert_insert]
    refine ⟨hsame, ?_⟩
    rw [transcriptEntries_opened, activeThreadId_opened, h]
    split
    next hactive => rw [transcriptEntries_opened, if_pos hactive]
    next => rfl

/-- Opening the session is recognised: its entries are among its last three, and what the transcript
has of them is too, with what else has been kept in between. -/
structure Recognises (view : ViewModel) (session : MemorySessionView) : Prop where
  history : ∀ entry ∈ withText session.history, entry ∈ window 3 session.history
  transcript : Recognised 3 session.history (withText (view.transcriptOf session.threadId)) []

/-- A session that is opened twice leaves the transcripts as after the first time, and repeats no
entry of the transcript, if and only if its entries are recognised. -/
theorem opened_twice_iff (view : ViewModel) (session : MemorySessionView) :
    (((view.opened session).opened session).threadTranscripts =
        (view.opened session).threadTranscripts ∧
      ((view.opened session).opened session).transcriptEntries =
        (view.opened session).transcriptEntries ∧
      ∀ entry ∈ session.history, entry ∈ view.transcriptOf session.threadId →
        ((view.opened session).transcriptOf session.threadId).count entry =
          session.history.count entry) ↔
      view.Recognises session := by
  have hkept : ∀ entry, entry ∈ session.keptBehind (view.transcriptOf session.threadId) →
      entry ∈ view.transcriptOf session.threadId := fun entry hentry =>
    (List.mem_filter.mp (mem_of_mem_added hentry)).1
  have hcounts : (∀ entry ∈ session.history, entry ∈ view.transcriptOf session.threadId →
      ((view.opened session).transcriptOf session.threadId).count entry =
        session.history.count entry) ↔
      ∀ entry ∈ session.keptBehind (view.transcriptOf session.threadId),
        entry ∉ session.history := by
    simp only [transcriptOf_opened, List.count_append, Nat.add_eq_left, List.count_eq_zero]
    exact ⟨fun h entry hentry hhistory => h entry hhistory (hkept entry hentry) hentry,
      fun h entry hhistory _ hentry => h entry hentry hhistory⟩
  have hagain : ((view.opened session).opened session).transcriptOf session.threadId =
      (withText session.history ++ session.keptBehind (view.transcriptOf session.threadId)).foldl
        (push 3) session.history := by
    rw [transcriptOf, threadTranscripts_opened, AList.lookup_insert, Option.getD_some,
      foldl_pushDedupedEntry, transcriptOf_opened, withText, List.filter_append]
    exact congrArg (fun kept => List.foldl (push 3) session.history (_ ++ kept))
      (withText_added 3 session.history (view.transcriptOf session.threadId))
  have hshown : ∀ entry ∈ withText session.history, entry ∈ session.history := fun entry hentry =>
    (List.mem_filter.mp hentry).1
  rw [← and_assoc, reopened_iff, hcounts, hagain, transcriptOf_opened]
  unfold MemorySessionView.keptBehind
  rw [← foldl_push_eq, push_again_iff hshown]
  exact ⟨fun h => ⟨h.1, h.2⟩, fun h => ⟨h.1, h.2⟩⟩

/-- A session of four replies. -/
def fourReplies : MemorySessionView :=
  { threadId := "t", title := "", status := .active, activeSummary := none, pendingCommitments := [],
    recentEntries := ["a", "b", "c", "d"].map fun reply =>
      { recordedAt := "", event := "turn_completed", summary := reply, turnId := none,
        artifactIds := [] },
    artifacts := [] }

/-- A client that opens the session a second time has its four replies twice. -/
theorem four_replies_doubled :
    ¬ ∀ (view : ViewModel) (session : MemorySessionView),
      ((view.opened session).opened session).threadTranscripts =
          (view.opened session).threadTranscripts ∧
        ((view.opened session).opened session).transcriptEntries =
          (view.opened session).transcriptEntries ∧
        ∀ entry ∈ session.history, entry ∈ view.transcriptOf session.threadId →
          ((view.opened session).transcriptOf session.threadId).count entry =
            session.history.count entry := by
  intro h
  obtain ⟨htranscripts, hentries, -⟩ := h ViewModel.default fourReplies
  have hsame := congrArg List.length (reopened_iff.mp ⟨htranscripts, hentries⟩)
  have honce : ((ViewModel.default.opened fourReplies).transcriptOf fourReplies.threadId).length = 4 :=
    by decide +kernel
  have htwice : (((ViewModel.default.opened fourReplies).opened fourReplies).transcriptOf
      fourReplies.threadId).length = 8 := by decide +kernel
  rw [honce, htwice] at hsame
  exact absurd hsame (by decide)

end ViewModel

end Liz
