import Liz.Cli.ViewModel

/-!
# The transcript of the terminal client

A completed turn reaches the client as two events, and each of them carries one line of the
conversation. The client has only the text of a line to tell whether it has shown it before, and
leaves out a line that is among the last three. What a conversation then looks like is decided by
its repetitions.
-/

namespace Liz

open Recent

/-- A turn with a goal that has been answered, as the client hears of it. -/
structure AnsweredTurn where
  turn : Turn
  goal : String
  message : String
  startedAt : Timestamp
  answeredAt : Timestamp
  goal_eq : turn.goal = some goal
  goal_text : Text.isBlank goal = false
  message_text : Text.isBlank message = false

namespace AnsweredTurn

def started (threadId : ThreadId) (turn : AnsweredTurn) : ServerEvent :=
  { threadId := threadId, turnId := some turn.turn.id, payload := .turnStarted turn.turn,
    createdAt := turn.startedAt }

def answered (threadId : ThreadId) (turn : AnsweredTurn) : ServerEvent :=
  { threadId := threadId, turnId := some turn.turn.id,
    payload := .assistantCompleted turn.message, createdAt := turn.answeredAt }

def events (threadId : ThreadId) (turn : AnsweredTurn) : List ServerEvent :=
  [turn.started threadId, turn.answered threadId]

def asked (turn : AnsweredTurn) : TranscriptEntry := ⟨.user, turn.goal⟩

def reply (turn : AnsweredTurn) : TranscriptEntry := ⟨.assistant, turn.message⟩

/-- The two lines of the conversation that belong to the turn. -/
def entries (turn : AnsweredTurn) : List TranscriptEntry := [turn.asked, turn.reply]

/-- The later turn repeats neither line of the turn before it. -/
def Differs (earlier later : AnsweredTurn) : Prop :=
  later.goal ≠ earlier.goal ∧ later.message ≠ earlier.message

/-- No line of the conversation is among the three before it: neighbouring turns differ in both of
their lines, and what was shown before does not end like the first turns begin. -/
def Unrepeated (before : List TranscriptEntry) (turns : List AnsweredTurn) : Prop :=
  (∀ first ∈ turns[0]?, first.asked ∉ window 3 before ∧ first.reply ∉ window 2 before) ∧
    (∀ second ∈ turns[1]?, second.asked ∉ window 1 before) ∧
    turns.IsChain Differs

end AnsweredTurn

namespace ViewModel

@[simp] theorem transcriptOf_setTranscript (view : ViewModel) (threadId : ThreadId)
    (entries : List TranscriptEntry) :
    (view.setTranscript threadId entries).transcriptOf threadId = entries := by
  simp [setTranscript, transcriptOf]

@[simp] theorem activeThreadId_setTranscript (view : ViewModel) (threadId : ThreadId)
    (entries : List TranscriptEntry) :
    (view.setTranscript threadId entries).activeThreadId = view.activeThreadId := rfl

/-- A text that is not blank is pushed unless the last three entries show it. -/
theorem pushDedupedEntry_of_text (entry : TranscriptEntry) (h : Text.isBlank entry.body = false)
    (entries : List TranscriptEntry) : pushDedupedEntry entries entry = push 3 entries entry := by
  have hlast : entries.getLast? = some entry → entry ∈ window 3 entries := by
    intro hlast
    obtain ⟨before, rfl⟩ := List.getLast?_eq_some_iff.mp hlast
    rw [window_concat]
    exact List.mem_cons_self
  have hany : (entries.reverse.take 3).any (· == entry) = true ↔ entry ∈ window 3 entries := by
    simp [window]
  rw [pushDedupedEntry, h, if_neg Bool.false_ne_true]
  unfold push
  by_cases hseen : entry ∈ window 3 entries
  · rw [if_pos (hany.mpr hseen), ite_self, if_pos hseen]
  · rw [if_neg (fun h => hseen (hlast h)), if_neg (fun h => hseen (hany.mp h)), if_neg hseen]

/-- The thread is the active one, and its transcript is on the screen. -/
structure Shows (view : ViewModel) (threadId : ThreadId) (lines : List TranscriptEntry) : Prop where
  active : view.activeThreadId = some threadId
  kept : view.transcriptOf threadId = lines
  visible : view.transcriptEntries = lines

/-- A line for the active thread goes to the end of its transcript, which is the one on the screen. -/
theorem shows_pushThreadEntry {view : ViewModel} {threadId : ThreadId}
    (hactive : view.activeThreadId = some threadId) (kind : TranscriptEntryKind) {body : String}
    (htext : Text.isBlank body = false) :
    Shows (view.pushThreadEntry threadId kind body) threadId
      (push 3 (view.transcriptOf threadId) ⟨kind, body⟩) := by
  have hpush := pushDedupedEntry_of_text ⟨kind, body⟩ htext (view.transcriptOf threadId)
  have hselected : (view.setTranscript threadId
      (push 3 (view.transcriptOf threadId) ⟨kind, body⟩)).selectedThreadId = some threadId := hactive
  rw [pushThreadEntry, hpush, if_pos hselected, syncVisibleTranscript, hselected]
  exact ⟨hactive, transcriptOf_setTranscript _ _ _, transcriptOf_setTranscript _ _ _⟩

theorem shows_started {view : ViewModel} {threadId : ThreadId}
    (hactive : view.activeThreadId = some threadId) (turn : AnsweredTurn) :
    Shows (view.applyEvent (turn.started threadId)) threadId
      (push 3 (view.transcriptOf threadId) turn.asked) := by
  have hgoal : turn.turn.goal.filter (fun goal => !Text.isBlank goal) = some turn.goal := by
    rw [turn.goal_eq, Option.filter_some, turn.goal_text]
    rfl
  have hshows := shows_pushThreadEntry hactive .user turn.goal_text
  simp only [applyEvent, AnsweredTurn.started, hgoal]
  exact ⟨hshows.active, hshows.kept, hshows.visible⟩

theorem shows_answered {view : ViewModel} {threadId : ThreadId}
    (hactive : view.activeThreadId = some threadId) (turn : AnsweredTurn) :
    Shows (view.applyEvent (turn.answered threadId)) threadId
      (push 3 (view.transcriptOf threadId) turn.reply) := by
  have hidle : ({ view with assistantStreaming := none } : ViewModel).activeThreadId =
      some threadId := hactive
  have hshows := shows_pushThreadEntry hidle .assistant turn.message_text
  exact ⟨hshows.active, hshows.kept, hshows.visible⟩

/-- The events of a sequence of turns push all of their lines, one after another. -/
theorem applyEvents_turns {view : ViewModel} {threadId : ThreadId}
    (hactive : view.activeThreadId = some threadId) (turns : List AnsweredTurn) :
    let shown := (turns.flatMap (·.events threadId)).foldl applyEvent view
    shown.transcriptOf threadId =
        (turns.flatMap AnsweredTurn.entries).foldl (push 3) (view.transcriptOf threadId) ∧
      (turns ≠ [] → shown.transcriptEntries = shown.transcriptOf threadId) := by
  induction turns generalizing view with
  | nil => simp
  | cons turn rest ih =>
      have hasked := shows_started hactive turn
      have hreply := shows_answered hasked.active turn
      obtain ⟨hrest, hvisible⟩ := ih hreply.active
      simp only [List.flatMap_cons, List.foldl_append, AnsweredTurn.events, AnsweredTurn.entries,
        List.foldl_cons, List.foldl_nil]
      rw [hreply.kept, hasked.kept] at hrest
      refine ⟨hrest, fun _ => ?_⟩
      cases rest with
      | nil => exact hreply.visible.trans hreply.kept.symm
      | cons next others => exact hvisible (List.cons_ne_nil next others)

end ViewModel

namespace AnsweredTurn

/-- What the window holds after a turn: its two lines, and what stood there before. -/
theorem window_entries (before : List TranscriptEntry) (turn : AnsweredTurn) (k : Nat) :
    window (k + 2) (before ++ turn.entries) = turn.reply :: turn.asked :: window k before := by
  rw [show before ++ turn.entries = before ++ [turn.asked] ++ [turn.reply] by simp [entries],
    window_concat, window_concat]

theorem window_one_entries (before : List TranscriptEntry) (turn : AnsweredTurn) :
    window 1 (before ++ turn.entries) = [turn.reply] := by
  rw [show before ++ turn.entries = before ++ [turn.asked] ++ [turn.reply] by simp [entries],
    window_concat, window_zero]

theorem fresh_entries (before : List TranscriptEntry) (turn : AnsweredTurn)
    (rest : List TranscriptEntry) :
    Fresh 3 before (turn.entries ++ rest) ↔
      turn.asked ∉ window 3 before ∧ turn.reply ∉ window 2 before ∧
        Fresh 3 (before ++ turn.entries) rest := by
  have hkinds : turn.reply ≠ turn.asked := by simp [reply, asked]
  rw [entries, List.cons_append, List.cons_append, List.nil_append, fresh_cons, fresh_cons,
    window_concat, List.mem_cons, not_or, List.append_assoc, List.singleton_append]
  simp only [hkinds, not_false_eq_true, true_and]

/-- After a turn, only its own lines and the line before them can be repeated by the next ones. -/
theorem fresh_after (before : List TranscriptEntry) (turn : AnsweredTurn)
    (rest : List AnsweredTurn) :
    Fresh 3 (before ++ turn.entries) (rest.flatMap entries) ↔
      (∀ second ∈ rest[0]?, second.asked ∉ window 1 before) ∧ (turn :: rest).IsChain Differs := by
  induction rest generalizing before turn with
  | nil => simp
  | cons next others ih =>
      have hthird : ∀ third ∈ others[0]?, third.asked ∉ window 1 (before ++ turn.entries) := by
        intro third _
        rw [window_one_entries, List.mem_singleton]
        simp [asked, reply]
      have hasked : next.asked ∉ window 3 (before ++ turn.entries) ↔
          next.goal ≠ turn.goal ∧ next.asked ∉ window 1 before := by
        rw [window_entries, List.mem_cons, List.mem_cons]
        simp [asked, reply]
      have hreply : next.reply ∉ window 2 (before ++ turn.entries) ↔
          next.message ≠ turn.message := by
        rw [window_entries, window_zero]
        simp [asked, reply]
      rw [List.flatMap_cons, fresh_entries, ih, hasked, hreply, List.isChain_cons_cons]
      simp only [List.getElem?_cons_zero, Option.mem_def, Option.some.injEq, forall_eq', Differs]
      constructor
      · intro h
        exact ⟨h.1.2, ⟨h.1.1, h.2.1⟩, h.2.2.2⟩
      · intro h
        exact ⟨⟨h.2.1.1, h.1⟩, h.2.1.2, hthird, h.2.2⟩

/-- The lines of the turns are fresh exactly when none of them is repeated too soon. -/
theorem fresh_iff (before : List TranscriptEntry) (turns : List AnsweredTurn) :
    Fresh 3 before (turns.flatMap entries) ↔ Unrepeated before turns := by
  cases turns with
  | nil => simp [Unrepeated]
  | cons first rest =>
      rw [List.flatMap_cons, fresh_entries, fresh_after]
      simp [Unrepeated, and_assoc]

end AnsweredTurn

/-- The view model after the events of a sequence of turns on one thread. -/
def ViewModel.afterTurns (view : ViewModel) (threadId : ThreadId) (turns : List AnsweredTurn) :
    ViewModel :=
  (turns.flatMap (·.events threadId)).foldl ViewModel.applyEvent view

/-- The transcript of the active thread grows by exactly the lines of its turns, and shows them, if
and only if no line is among the three before it. -/
theorem transcript_grows_iff {view : ViewModel} {threadId : ThreadId}
    (hactive : view.activeThreadId = some threadId) (turns : List AnsweredTurn) :
    ((view.afterTurns threadId turns).transcriptOf threadId =
          view.transcriptOf threadId ++ turns.flatMap AnsweredTurn.entries ∧
        (turns ≠ [] → (view.afterTurns threadId turns).transcriptEntries =
          (view.afterTurns threadId turns).transcriptOf threadId)) ↔
      AnsweredTurn.Unrepeated (view.transcriptOf threadId) turns := by
  obtain ⟨hpushed, hvisible⟩ := ViewModel.applyEvents_turns hactive turns
  rw [ViewModel.afterTurns, and_iff_left hvisible, hpushed, foldl_push_eq_append_iff,
    AnsweredTurn.fresh_iff]

/-- A client that has just opened a conversation. -/
def openedView : ViewModel := { ViewModel.default with activeThreadId := some "thread_1" }

/-- The owner says yes and is told that it is done. -/
def confirmedTurn (id : TurnId) : AnsweredTurn :=
  { turn :=
      { id := id, threadId := "thread_1", kind := .user, status := .running, startedAt := "unix:1.0",
        endedAt := none, goal := some "yes", summary := none, checkpointBefore := none,
        checkpointAfter := none },
    goal := "yes", message := "done", startedAt := "unix:1.0", answeredAt := "unix:2.0",
    goal_eq := rfl, goal_text := by decide +kernel, message_text := by decide +kernel }

theorem transcript_grows_confirmed :
    (openedView.afterTurns "thread_1" [confirmedTurn "turn_1"]).transcriptOf "thread_1" =
      [⟨.user, "yes"⟩, ⟨.assistant, "done"⟩] :=
  ((transcript_grows_iff rfl [confirmedTurn "turn_1"]).mpr (by
    refine ⟨?_, ?_, .singleton _⟩
    · intro first _
      exact ⟨List.not_mem_nil, List.not_mem_nil⟩
    · intro second h
      exact absurd h (by simp))).1

/-- The same question with the same answer, asked twice, is shown once. -/
theorem transcript_repeated_turn_missing :
    ¬ (openedView.afterTurns "thread_1" [confirmedTurn "turn_1", confirmedTurn "turn_2"]).transcriptOf
        "thread_1" =
      openedView.transcriptOf "thread_1" ++
        [confirmedTurn "turn_1", confirmedTurn "turn_2"].flatMap AnsweredTurn.entries := by
  decide +kernel

end Liz
