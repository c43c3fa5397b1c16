import Liz.Web.Workbench

/-!
# Loading a session in the web client

A turn that the workbench has seen live has an entry for the message and one for the answer. The
records of a loaded session become entries too, under identifiers of their own, and only identifiers
decide what is already there.
-/

namespace Liz.Web

/-- The workbench hears of a new turn from the response, from the event, or from both. -/
inductive StartSource
  | response
  | event (createdAt : Timestamp)

inductive LiveAnswer
  | chunk (text : String) (streamId : Option String) (isFinal : Bool) (createdAt : Timestamp)
  | completed (message : String) (createdAt : Timestamp)

inductive LiveEnding
  | completed | cancelled
  | failed (message : String)

/-- A turn as the workbench sees it live, with its two records in the log of the thread. Every action
stands with the time on the page. -/
structure LiveTurn (threadId : ThreadId) where
  turn : Turn
  content : String
  sentAt : Timestamp
  sentNow : PageTime
  starts : List (PageTime × StartSource)
  answers : List (PageTime × LiveAnswer)
  ending : LiveEnding
  ended : Turn
  endedAt : Timestamp
  endedNow : PageTime
  startedRecord : MemorySessionEntry
  endedRecord : MemorySessionEntry
  turn_thread : turn.threadId = threadId
  ended_id : ended.id = turn.id
  ended_thread : ended.threadId = threadId
  starts_ne : starts ≠ []
  started_event : startedRecord.event = "turn_started"
  started_turn : startedRecord.turnId = some turn.id
  ended_event : endedRecord.event ∈ ["turn_completed", "turn_cancelled", "turn_failed"]
  ended_turn : endedRecord.turnId = some turn.id

namespace LiveTurn

variable {threadId : ThreadId}

def event (live : LiveTurn threadId) (payload : ServerEventPayload) (createdAt : Timestamp) :
    WorkbenchAction :=
  .serverEvent
    { threadId := threadId, turnId := some live.turn.id, payload := payload,
      createdAt := createdAt }

def startAction (live : LiveTurn threadId) : StartSource → WorkbenchAction
  | .response => .turnStarted live.turn
  | .event createdAt => live.event (.turnStarted live.turn) createdAt

def answerAction (live : LiveTurn threadId) : LiveAnswer → WorkbenchAction
  | .chunk text streamId isFinal createdAt =>
      live.event (.assistantChunk text streamId isFinal) createdAt
  | .completed message createdAt => live.event (.assistantCompleted message) createdAt

def endingPayload (live : LiveTurn threadId) : ServerEventPayload :=
  match live.ending with
  | .completed => .turnCompleted live.ended
  | .cancelled => .turnCancelled live.ended
  | .failed message => .turnFailed live.ended message

/-- Everything the workbench sees of the turn, in order. -/
def actions (live : LiveTurn threadId) : List (PageTime × WorkbenchAction) :=
  (live.sentNow, .userMessageAdded threadId live.content live.sentAt) ::
    (live.starts.map (fun start => (start.1, live.startAction start.2)) ++
      live.answers.map (fun answer => (answer.1, live.answerAction answer.2)) ++
      [(live.endedNow, live.event live.endingPayload live.endedAt)])

/-- What the log holds of the turn. -/
def records (live : LiveTurn threadId) : List MemorySessionEntry :=
  [live.startedRecord, live.endedRecord]

end LiveTurn

/-- The state after a list of actions, unless the reducer throws. -/
def runActions [Collation] (state : WorkbenchState)
    (actions : List (PageTime × WorkbenchAction)) : Option WorkbenchState :=
  actions.foldlM (fun state action => workbenchReducer action.1 state action.2) state

/-! ### What a conversation shows of its turns -/

def userEntries (entries : List TranscriptEntry) (turnId : TurnId) : List TranscriptEntry :=
  entries.filter fun entry => entry.isUser && entry.turnId == some turnId

def answerEntries (entries : List TranscriptEntry) (turnId : TurnId) : List TranscriptEntry :=
  entries.filter fun entry => entry.isAssistant && entry.turnId == some turnId

/-- The entry is a message or the answer of the turn. -/
def belongsTo (entry : TranscriptEntry) (turnId : TurnId) : Bool :=
  (entry.isUser || entry.isAssistant) && entry.turnId == some turnId

theorem entries_eq_nil {entries : List TranscriptEntry} {turnId : TurnId}
    (h : ∀ entry ∈ entries, belongsTo entry turnId = false) :
    userEntries entries turnId = [] ∧ answerEntries entries turnId = [] := by
  simp only [userEntries, answerEntries, List.filter_eq_nil_iff]
  constructor
  all_goals
    intro entry hentry
    have hentry := h entry hentry
    simp only [belongsTo, Bool.and_eq_false_iff, Bool.or_eq_false_iff] at hentry
    rcases hentry with hentry | hentry <;> simp [hentry]

/-- Every turn has at most one message and at most one answer, and nothing that belongs to a later
turn stands before what belongs to an earlier one. -/
structure ShownOnce (entries : List TranscriptEntry) (turnIds : List TurnId) : Prop where
  messages : ∀ turnId ∈ turnIds, (userEntries entries turnId).length ≤ 1
  answers : ∀ turnId ∈ turnIds, (answerEntries entries turnId).length ≤ 1
  order : ∀ earlier later, [earlier, later].Sublist turnIds →
    entries.Pairwise fun first second =>
      ¬ (belongsTo first later = true ∧ belongsTo second earlier = true)

/-! ### One live turn -/

@[simp] theorem transcriptOf_setTranscript (state : WorkbenchState) (threadId : ThreadId)
    (entries : List TranscriptEntry) :
    (state.setTranscript threadId entries).transcriptOf threadId = entries := by
  simp [WorkbenchState.setTranscript, WorkbenchState.transcriptOf]

@[simp] theorem transcriptOf_setRuntime (state : WorkbenchState) (threadId other : ThreadId)
    (runtime : ThreadRuntime) :
    (state.setRuntime threadId runtime).transcriptOf other = state.transcriptOf other := rfl

/-- No message waits for its turn, and no entry is an answer of this turn. -/
def Untouched (entries : List TranscriptEntry) (turnId : TurnId) : Prop :=
  ∀ entry ∈ entries, entry.kind ≠ .user .pending ∧
    (entry.isAssistant && entry.turnId == some turnId) = false

/-- The identifier is not one of a session record. -/
def LiveId (entry : TranscriptEntry) : Prop := entry.id.toList.head? ≠ some 's'

theorem head_append {s : String} {c : Char} (h : s.toList.head? = some c) (t : String) :
    (s ++ t).toList.head? = some c := by
  rw [String.toList_append, List.head?_append, h, Option.some_or]

theorem liveId_of_head {entry : TranscriptEntry} {c : Char} (h : entry.id.toList.head? = some c)
    (hc : c ≠ 's') : LiveId entry := by
  rw [LiveId, h, Ne, Option.some.injEq]
  exact hc

structure IsMessage (turnId : TurnId) (entry : TranscriptEntry) : Prop where
  kind : entry.kind = .user .sent
  turn : entry.turnId = some turnId
  id : LiveId entry

structure IsAnswer (turnId : TurnId) (entry : TranscriptEntry) : Prop where
  kind : entry.isAssistant = true
  turn : entry.turnId = some turnId
  id : LiveId entry

/-- The turn has been started: its message and its answer stand at the end. -/
def Told (before : List TranscriptEntry) (turnId : TurnId) (entries : List TranscriptEntry) : Prop :=
  ∃ message answer, entries = before ++ [message, answer] ∧ IsMessage turnId message ∧
    IsAnswer turnId answer

section Entries

variable {before entries : List TranscriptEntry} {turnId : TurnId}

theorem IsMessage.not_answer {entry : TranscriptEntry} (h : IsMessage turnId entry) :
    entry.isAssistant = false := by
  rw [TranscriptEntry.isAssistant, h.kind]

/-- The first start of a turn gives the message its turn and opens the answer. -/
theorem told_of_started (hbefore : Untouched before turnId) {message : TranscriptEntry}
    (hkind : message.kind = .user .pending) (hid : LiveId message) (threadId : ThreadId)
    (startedAt : Timestamp) :
    Told before turnId (ensureAssistantEntry ((before ++ [message]).map fun entry =>
      if entry.kind = .user .pending then
        { entry with turnId := some turnId, kind := .user .sent }
      else entry) threadId (some turnId) startedAt) := by
  have hsame : before.map (fun entry =>
      if entry.kind = .user .pending then
        { entry with turnId := some turnId, kind := .user .sent }
      else entry) = before := by
    conv => rhs; rw [← List.map_id before]
    apply List.map_congr_left
    intro entry hentry
    rw [if_neg (hbefore entry hentry).1, id]
  have hnone : (before ++ [{ message with turnId := some turnId, kind := .user .sent }]).any
      (fun entry => entry.isAssistant && entry.turnId == some turnId) = false := by
    rw [List.any_eq_false]
    intro entry hentry
    rcases List.mem_append.mp hentry with hold | hnew
    · simp [(hbefore entry hold).2]
    · rw [List.mem_singleton.mp hnew]
      simp [TranscriptEntry.isAssistant]
  rw [List.map_append, hsame, List.map_singleton, if_pos hkind, ensureAssistantEntry, hnone,
    if_neg Bool.false_ne_true, List.append_assoc]
  refine ⟨_, _, rfl, ⟨rfl, rfl, hid⟩, ⟨rfl, rfl, ?_⟩⟩
  exact liveId_of_head (c := 'a') (head_append (by decide) _) (by decide)

/-- Another notice of the start changes nothing. -/
theorem Told.started (h : Told before turnId entries) (hbefore : Untouched before turnId)
    (threadId : ThreadId) (startedAt : Timestamp) :
    ensureAssistantEntry (entries.map fun entry =>
      if entry.kind = .user .pending then
        { entry with turnId := some turnId, kind := .user .sent }
      else entry) threadId (some turnId) startedAt = entries := by
  obtain ⟨message, answer, rfl, hmessage, hanswer⟩ := h
  have hsame : (before ++ [message, answer]).map (fun entry =>
      if entry.kind = .user .pending then
        { entry with turnId := some turnId, kind := .user .sent }
      else entry) = before ++ [message, answer] := by
    conv => rhs; rw [← List.map_id (before ++ [message, answer])]
    apply List.map_congr_left
    intro entry hentry
    have hsettled : entry.kind ≠ .user .pending := by
      rcases List.mem_append.mp hentry with hold | hnew
      · exact (hbefore entry hold).1
      · rcases List.mem_cons.mp hnew with rfl | hnew
        · simp [hmessage.kind]
        · rw [List.mem_singleton.mp hnew]
          intro hkind
          simpa [TranscriptEntry.isAssistant, hkind] using hanswer.kind
    rw [if_neg hsettled, id]
  rw [hsame, ensureAssistantEntry, if_pos]
  simp [hanswer.kind, hanswer.turn]

theorem Told.ensure (h : Told before turnId entries) (threadId : ThreadId)
    (createdAt : Timestamp) :
    ensureAssistantEntry entries threadId (some turnId) createdAt = entries := by
  obtain ⟨message, answer, rfl, hmessage, hanswer⟩ := h
  rw [ensureAssistantEntry, if_pos]
  simp [hanswer.kind, hanswer.turn]

/-- What changes the answers of the turn changes its one answer. -/
theorem Told.mapAnswers (h : Told before turnId entries) (hbefore : Untouched before turnId)
    {update : TranscriptEntry → TranscriptEntry}
    (hupdate : ∀ entry, IsAnswer turnId entry → IsAnswer turnId (update entry)) :
    Told before turnId (mapAnswers entries (some turnId) update) := by
  obtain ⟨message, answer, rfl, hmessage, hanswer⟩ := h
  refine ⟨message, update answer, ?_, hmessage, hupdate answer hanswer⟩
  have hsame : Web.mapAnswers before (some turnId) update = before := by
    conv => rhs; rw [← List.map_id before]
    apply List.map_congr_left
    intro entry hentry
    simp [(hbefore entry hentry).2]
  rw [Web.mapAnswers, List.map_append, ← Web.mapAnswers, hsame]
  simp [hmessage.not_answer, hanswer.kind, hanswer.turn]

end Entries

section Live

variable [Collation] {threadId : ThreadId} {state : WorkbenchState}

theorem runActions_cons (now : PageTime) (action : WorkbenchAction)
    (rest : List (PageTime × WorkbenchAction)) :
    runActions state ((now, action) :: rest) =
      (workbenchReducer now state action).bind fun next => runActions next rest := rfl

theorem runActions_append (first rest : List (PageTime × WorkbenchAction)) :
    runActions state (first ++ rest) =
      (runActions state first).bind fun next => runActions next rest := by
  simp only [runActions, List.foldlM_append]
  rfl

/-- The state keeps a property of the thread's transcript through actions that keep it one by one. -/
theorem runActions_keeps (actions : List (PageTime × WorkbenchAction))
    {P : List TranscriptEntry → Prop}
    (hkeeps : ∀ action ∈ actions, ∀ state : WorkbenchState, P (state.transcriptOf threadId) →
      ∃ next, workbenchReducer action.1 state action.2 = some next ∧ P (next.transcriptOf threadId))
    (h : P (state.transcriptOf threadId)) :
    ∃ next, runActions state actions = some next ∧ P (next.transcriptOf threadId) := by
  induction actions generalizing state with
  | nil => exact ⟨state, rfl, h⟩
  | cons action rest ih =>
      obtain ⟨next, hnext, hP⟩ := hkeeps action List.mem_cons_self state h
      obtain ⟨final, hfinal, hP⟩ :=
        ih (fun action haction => hkeeps action (List.mem_cons_of_mem _ haction)) hP
      exact ⟨final, by rw [runActions_cons, hnext, Option.bind_some, hfinal], hP⟩

variable (state threadId) in
omit [Collation] in
/-- A new message waits for its turn. -/
theorem transcriptOf_userMessageAdded (content : String) (createdAt : Timestamp) :
    ∃ message, (userMessageAdded state threadId content createdAt).transcriptOf threadId =
        state.transcriptOf threadId ++ [message] ∧
      message.kind = .user .pending ∧ LiveId message := by
  refine ⟨_, transcriptOf_setTranscript _ _ _, rfl, ?_⟩
  exact liveId_of_head (c := 'u')
    (head_append (head_append (head_append (by decide) _) _) _) (by decide)

omit [Collation] in
theorem transcriptOf_turnStarted {turn : Turn} (h : turn.threadId = threadId) :
    (turnStarted state turn).transcriptOf threadId =
      ensureAssistantEntry ((state.transcriptOf threadId).map fun entry =>
        if entry.kind = .user .pending then
          { entry with turnId := some turn.id, kind := .user .sent }
        else entry) threadId (some turn.id) turn.startedAt := by
  subst h
  rw [turnStarted, transcriptOf_setRuntime, transcriptOf_setTranscript]

omit [Collation] in
theorem transcriptOf_finishTurn {turn : Turn} (h : turn.threadId = threadId)
    (status : AssistantStatus) :
    (finishTurn state turn status).transcriptOf threadId =
      mapAnswers (state.transcriptOf threadId) (some turn.id) fun entry =>
        { entry with kind := .assistant status } := by
  subst h
  rw [finishTurn, transcriptOf_setRuntime, transcriptOf_setTranscript]

variable (state) in
omit [Collation] in
/-- A failed turn leaves a note behind its answer. -/
theorem transcriptOf_failTurn {turn : Turn} (h : turn.threadId = threadId) (message : String)
    (now : Timestamp) :
    ∃ note, (failTurn state turn message now).transcriptOf threadId =
        (finishTurn state turn .failed).transcriptOf threadId ++ [note] ∧
      note.isUser = false ∧ note.isAssistant = false ∧ LiveId note := by
  subst h
  refine ⟨_, transcriptOf_setTranscript _ _ _, rfl, rfl, ?_⟩
  exact liveId_of_head (c := 't') (head_append (by decide) _) (by decide)

namespace LiveTurn

variable (live : LiveTurn threadId) {before : List TranscriptEntry}

theorem reducer_start (now : PageTime) (start : StartSource) :
    workbenchReducer now state (live.startAction start) = some (turnStarted state live.turn) := by
  cases start <;> rfl

/-- Every piece of the answer goes to the one answer of the turn. -/
theorem reducer_answer (hbefore : Untouched before live.turn.id) (now : PageTime)
    (answer : LiveAnswer) (h : Told before live.turn.id (state.transcriptOf threadId)) :
    ∃ next, workbenchReducer now state (live.answerAction answer) = some next ∧
      Told before live.turn.id (next.transcriptOf threadId) := by
  cases answer with
  | chunk text streamId isFinal createdAt =>
      refine ⟨appendAssistantChunk state threadId (some live.turn.id) createdAt text isFinal, rfl, ?_⟩
      rw [appendAssistantChunk, transcriptOf_setTranscript, h.ensure]
      refine h.mapAnswers hbefore fun entry hentry => ⟨?_, hentry.turn, hentry.id⟩
      cases isFinal
      · exact hentry.kind
      · rfl
  | completed message createdAt =>
      refine ⟨completeAssistantMessage state threadId (some live.turn.id) createdAt message, rfl, ?_⟩
      rw [completeAssistantMessage, transcriptOf_setTranscript, h.ensure]
      exact h.mapAnswers hbefore fun entry hentry => ⟨rfl, hentry.turn, hentry.id⟩

end LiveTurn

/-- What a live turn leaves at the end of a transcript: its message, its answer, and a note when it
failed. -/
def IsBlock (turnId : TurnId) (block : List TranscriptEntry) : Prop :=
  ∃ message answer notes, block = message :: answer :: notes ∧ IsMessage turnId message ∧
    IsAnswer turnId answer ∧ ∀ note ∈ notes, note.isUser = false ∧ note.isAssistant = false ∧
      LiveId note

namespace LiveTurn

variable (live : LiveTurn threadId) {before : List TranscriptEntry}

/-- The end of the turn settles its answer. -/
theorem reducer_ending (hbefore : Untouched before live.turn.id)
    (h : Told before live.turn.id (state.transcriptOf threadId)) :
    ∃ next block,
      workbenchReducer live.endedNow state (live.event live.endingPayload live.endedAt) = some next ∧
        next.transcriptOf threadId = before ++ block ∧ IsBlock live.turn.id block := by
  have hfinish : ∀ status, Told before live.turn.id
      ((finishTurn state live.ended status).transcriptOf threadId) := by
    intro status
    rw [transcriptOf_finishTurn live.ended_thread, live.ended_id]
    exact h.mapAnswers hbefore fun entry hentry => ⟨rfl, hentry.turn, hentry.id⟩
  unfold endingPayload
  cases live.ending with
  | completed =>
      obtain ⟨message, answer, hentries, hmessage, hanswer⟩ := hfinish .completed
      exact ⟨_, _, rfl, hentries, message, answer, [], rfl, hmessage, hanswer, by simp⟩
  | cancelled =>
      obtain ⟨message, answer, hentries, hmessage, hanswer⟩ := hfinish .cancelled
      exact ⟨_, _, rfl, hentries, message, answer, [], rfl, hmessage, hanswer, by simp⟩
  | failed text =>
      obtain ⟨message, answer, hentries, hmessage, hanswer⟩ := hfinish .failed
      obtain ⟨note, hnote, hother⟩ := transcriptOf_failTurn state live.ended_thread text
        live.endedNow.iso
      rw [hentries, List.append_assoc] at hnote
      refine ⟨_, _, rfl, hnote, message, answer, [note], rfl, hmessage, hanswer, ?_⟩
      intro other hmem
      rw [List.mem_singleton.mp hmem]
      exact hother

/-- The whole of a live turn. -/
theorem run (hbefore : Untouched (state.transcriptOf threadId) live.turn.id) :
    ∃ next block, runActions state live.actions = some next ∧
      next.transcriptOf threadId = state.transcriptOf threadId ++ block ∧
      IsBlock live.turn.id block := by
  obtain ⟨message, hsent, hkind, hid⟩ := transcriptOf_userMessageAdded threadId state
    live.content live.sentAt
  obtain ⟨start, starts, hstarts⟩ := List.exists_cons_of_ne_nil live.starts_ne
  have hfirst : Told (state.transcriptOf threadId) live.turn.id
      ((turnStarted (userMessageAdded state threadId live.content live.sentAt)
        live.turn).transcriptOf threadId) := by
    rw [transcriptOf_turnStarted live.turn_thread, hsent]
    exact told_of_started hbefore hkind hid threadId live.turn.startedAt
  obtain ⟨started, hstarted, htold⟩ := runActions_keeps
    (starts.map fun start => (start.1, live.startAction start.2)) (by
      intro action haction state h
      obtain ⟨start, -, rfl⟩ := List.mem_map.mp haction
      refine ⟨_, live.reducer_start start.1 start.2, ?_⟩
      rw [transcriptOf_turnStarted live.turn_thread, h.started hbefore]
      exact h) hfirst
  obtain ⟨answered, hanswered, htold⟩ := runActions_keeps
    (live.answers.map fun answer => (answer.1, live.answerAction answer.2)) (by
      intro action haction state h
      obtain ⟨answer, -, rfl⟩ := List.mem_map.mp haction
      exact live.reducer_answer hbefore answer.1 answer.2 h) htold
  obtain ⟨next, block, hnext, hblock⟩ := live.reducer_ending hbefore htold
  refine ⟨next, block, ?_, hblock⟩
  rw [actions, runActions_cons, hstarts, List.map_cons, List.cons_append, List.cons_append]
  show (runActions (userMessageAdded state threadId live.content live.sentAt) _) = _
  rw [runActions_cons, live.reducer_start, Option.bind_some, runActions_append, runActions_append,
    hstarted, Option.bind_some, hanswered, Option.bind_some, runActions_cons, hnext]
  rfl

end LiveTurn

/-! ### Several live turns -/

omit [Collation] in
theorem IsBlock.untouched {turnId other : TurnId} {block : List TranscriptEntry}
    (h : IsBlock turnId block) (hne : turnId ≠ other) : Untouched block other := by
  obtain ⟨message, answer, notes, rfl, hmessage, hanswer, hnotes⟩ := h
  intro entry hentry
  rcases List.mem_cons.mp hentry with rfl | hentry
  · simp [hmessage.kind, hmessage.not_answer]
  rcases List.mem_cons.mp hentry with rfl | hentry
  · refine ⟨fun hkind => ?_, by simp [hanswer.turn, hne]⟩
    simpa [TranscriptEntry.isAssistant, hkind] using hanswer.kind
  · obtain ⟨huser, hassistant, -⟩ := hnotes entry hentry
    refine ⟨fun hkind => ?_, by simp [hassistant]⟩
    simp [TranscriptEntry.isUser, hkind] at huser

omit [Collation] in
theorem Untouched.append {first second : List TranscriptEntry} {turnId : TurnId}
    (hfirst : Untouched first turnId) (hsecond : Untouched second turnId) :
    Untouched (first ++ second) turnId := by
  intro entry hentry
  exact (List.mem_append.mp hentry).elim (hfirst entry) (hsecond entry)

/-- Live turns leave one block after another. -/
theorem runTurns (turns : List (LiveTurn threadId))
    (hids : (turns.map fun live => live.turn.id).Nodup)
    (hbase : ∀ live ∈ turns, Untouched (state.transcriptOf threadId) live.turn.id) :
    ∃ next blocks, runActions state (turns.flatMap LiveTurn.actions) = some next ∧
      next.transcriptOf threadId = state.transcriptOf threadId ++ blocks.flatten ∧
      List.Forall₂ (fun live block => IsBlock live.turn.id block) turns blocks := by
  induction turns generalizing state with
  | nil => exact ⟨state, [], rfl, by simp, List.Forall₂.nil⟩
  | cons live rest ih =>
      rw [List.map_cons, List.nodup_cons] at hids
      obtain ⟨next, block, hnext, hentries, hblock⟩ := live.run (hbase live List.mem_cons_self)
      obtain ⟨final, blocks, hfinal, hall, hblocks⟩ := @ih next hids.2 (by
        intro other hother
        have hne : live.turn.id ≠ other.turn.id := fun heq =>
          hids.1 (heq ▸ List.mem_map_of_mem (f := fun live => live.turn.id) hother)
        rw [hentries]
        exact (hbase other (List.mem_cons_of_mem live hother)).append (hblock.untouched hne))
      refine ⟨final, block :: blocks, ?_, ?_, List.Forall₂.cons hblock hblocks⟩
      · rw [List.flatMap_cons, runActions_append, hnext, Option.bind_some, hfinal]
      · rw [hall, hentries, List.flatten_cons, List.append_assoc]

end Live

/-! ### What blocks show -/

theorem IsBlock.belongsTo {turnId other : TurnId} {block : List TranscriptEntry}
    (h : IsBlock turnId block) {entry : TranscriptEntry} (hentry : entry ∈ block)
    (hbelongs : Web.belongsTo entry other = true) : other = turnId := by
  obtain ⟨message, answer, notes, rfl, hmessage, hanswer, hnotes⟩ := h
  simp only [Web.belongsTo, Bool.and_eq_true, Bool.or_eq_true, beq_iff_eq] at hbelongs
  rcases List.mem_cons.mp hentry with rfl | hentry
  · exact Option.some.inj (hbelongs.2.symm.trans hmessage.turn)
  rcases List.mem_cons.mp hentry with rfl | hentry
  · exact Option.some.inj (hbelongs.2.symm.trans hanswer.turn)
  · obtain ⟨huser, hassistant, -⟩ := hnotes entry hentry
    simp [huser, hassistant] at hbelongs

theorem IsBlock.length_userEntries {turnId : TurnId} {block : List TranscriptEntry}
    (h : IsBlock turnId block) (other : TurnId) :
    (userEntries block other).length = if turnId = other then 1 else 0 := by
  obtain ⟨message, answer, notes, rfl, hmessage, hanswer, hnotes⟩ := h
  have huser : message.isUser = true := by rw [TranscriptEntry.isUser, hmessage.kind]
  have hother : answer.isUser = false := by
    have := hanswer.kind
    unfold TranscriptEntry.isAssistant at this
    unfold TranscriptEntry.isUser
    split at this <;> simp_all
  have hnone : notes.filter (fun entry => entry.isUser && entry.turnId == some other) = [] := by
    rw [List.filter_eq_nil_iff]
    intro note hnote
    simp [(hnotes note hnote).1]
  rw [userEntries, List.filter_cons, List.filter_cons, hnone, huser, hother, hmessage.turn]
  by_cases heq : turnId = other <;> simp [heq]

theorem IsBlock.length_answerEntries {turnId : TurnId} {block : List TranscriptEntry}
    (h : IsBlock turnId block) (other : TurnId) :
    (answerEntries block other).length = if turnId = other then 1 else 0 := by
  obtain ⟨message, answer, notes, rfl, hmessage, hanswer, hnotes⟩ := h
  have hnone : notes.filter (fun entry => entry.isAssistant && entry.turnId == some other) = [] := by
    rw [List.filter_eq_nil_iff]
    intro note hnote
    simp [(hnotes note hnote).2.1]
  rw [answerEntries, List.filter_cons, List.filter_cons, hnone, hmessage.not_answer, hanswer.kind,
    hanswer.turn]
  by_cases heq : turnId = other <;> simp [heq]

section Blocks

variable {threadId : ThreadId} {turns : List (LiveTurn threadId)}
  {blocks : List (List TranscriptEntry)}

/-- The entries of one kind are as many as the turns under the identifier. -/
theorem length_entries_blocks
    (hblocks : List.Forall₂ (fun live block => IsBlock live.turn.id block) turns blocks)
    (turnId : TurnId) :
    (userEntries blocks.flatten turnId).length =
        (turns.map fun live => live.turn.id).count turnId ∧
      (answerEntries blocks.flatten turnId).length =
        (turns.map fun live => live.turn.id).count turnId := by
  induction hblocks with
  | nil => exact ⟨rfl, rfl⟩
  | @cons live block turns blocks hblock _ ih =>
      have huser := hblock.length_userEntries turnId
      have hanswer := hblock.length_answerEntries turnId
      unfold userEntries answerEntries at *
      rw [List.flatten_cons, List.filter_append, List.length_append, List.filter_append,
        List.length_append, huser, hanswer, ih.1, ih.2, List.map_cons, List.count_cons]
      by_cases heq : live.turn.id = turnId <;> simp [heq, Nat.add_comm]

/-- What stands in the blocks belongs to their turns. -/
theorem mem_ids_of_belongsTo
    (hblocks : List.Forall₂ (fun live block => IsBlock live.turn.id block) turns blocks)
    {entry : TranscriptEntry} (hentry : entry ∈ blocks.flatten) {turnId : TurnId}
    (hbelongs : belongsTo entry turnId = true) : turnId ∈ turns.map fun live => live.turn.id := by
  induction hblocks with
  | nil => exact absurd hentry List.not_mem_nil
  | @cons live block turns blocks hblock _ ih =>
      rw [List.flatten_cons, List.mem_append] at hentry
      rw [List.map_cons, List.mem_cons]
      exact hentry.imp (fun hentry => hblock.belongsTo hentry hbelongs) ih

/-- Blocks keep the order of their turns. -/
theorem order_blocks
    (hblocks : List.Forall₂ (fun live block => IsBlock live.turn.id block) turns blocks)
    (hids : (turns.map fun live => live.turn.id).Nodup) {earlier later : TurnId}
    (hpair : [earlier, later].Sublist (turns.map fun live => live.turn.id)) :
    blocks.flatten.Pairwise fun first second =>
      ¬ (belongsTo first later = true ∧ belongsTo second earlier = true) := by
  induction hblocks with
  | nil => exact List.Pairwise.nil
  | @cons live block turns blocks hblock hblocks ih =>
      rw [List.map_cons] at hids hpair
      obtain ⟨hnew, hrest⟩ := List.nodup_cons.mp hids
      have hlater : later ∈ turns.map fun live => live.turn.id := by
        rcases List.sublist_cons_iff.mp hpair with hpair | ⟨tail, htail, hsub⟩
        · exact hpair.subset (by simp)
        · obtain ⟨-, rfl⟩ := List.cons.inj htail
          exact hsub.subset (by simp)
      have hblockLater : ∀ entry ∈ block, ¬ belongsTo entry later = true := fun entry hentry h =>
        hnew (hblock.belongsTo hentry h ▸ hlater)
      rw [List.flatten_cons, List.pairwise_append]
      refine ⟨?_, ?_, fun first hfirst _ _ h => hblockLater first hfirst h.1⟩
      · exact List.pairwise_of_forall_mem_list fun first hfirst _ _ h =>
          hblockLater first hfirst h.1
      · rcases List.sublist_cons_iff.mp hpair with hpair | ⟨tail, htail, -⟩
        · exact ih hrest hpair
        · obtain ⟨rfl, -⟩ := List.cons.inj htail
          exact List.pairwise_of_forall_mem_list fun _ _ second hsecond h =>
            hnew (mem_ids_of_belongsTo hblocks hsecond h.2)

/-- Live turns are shown once and in order behind what does not belong to them. -/
theorem shownOnce_blocks
    (hblocks : List.Forall₂ (fun live block => IsBlock live.turn.id block) turns blocks)
    (hids : (turns.map fun live => live.turn.id).Nodup) {base : List TranscriptEntry}
    (hbase : ∀ entry ∈ base, ∀ live ∈ turns, belongsTo entry live.turn.id = false) :
    ShownOnce (base ++ blocks.flatten) (turns.map fun live => live.turn.id) := by
  have hnone : ∀ turnId ∈ turns.map fun live => live.turn.id, ∀ entry ∈ base,
      belongsTo entry turnId = false := by
    intro turnId hturn entry hentry
    obtain ⟨live, hlive, rfl⟩ := List.mem_map.mp hturn
    exact hbase entry hentry live hlive
  constructor
  · intro turnId hturn
    obtain ⟨hold, -⟩ := entries_eq_nil (hnone turnId hturn)
    rw [userEntries, List.filter_append, ← userEntries, hold, List.nil_append, ← userEntries,
      (length_entries_blocks hblocks turnId).1]
    exact List.nodup_iff_count_le_one.mp hids turnId
  · intro turnId hturn
    obtain ⟨-, hold⟩ := entries_eq_nil (hnone turnId hturn)
    rw [answerEntries, List.filter_append, ← answerEntries, hold, List.nil_append, ← answerEntries,
      (length_entries_blocks hblocks turnId).2]
    exact List.nodup_iff_count_le_one.mp hids turnId
  · intro earlier later hpair
    have hearlier := hpair.subset List.mem_cons_self
    have hlater := hpair.subset (List.mem_cons_of_mem earlier (List.mem_singleton_self later))
    rw [List.pairwise_append]
    refine ⟨?_, order_blocks hblocks hids hpair, ?_⟩
    · exact List.pairwise_of_forall_mem_list fun first hfirst _ _ h =>
        absurd h.1 (by simp [hnone later hlater first hfirst])
    · exact fun first hfirst _ _ h => absurd h.1 (by simp [hnone later hlater first hfirst])

end Blocks

/-! ### Loading the session -/

section Loading

variable [Collation] {threadId : ThreadId} {state : WorkbenchState}

/-- What the transcript held before has nothing to do with the turns: no message waits, nothing
belongs to one of them, and no entry has the identifier of one of their records. -/
structure Unrelated (base : List TranscriptEntry) (turns : List (LiveTurn threadId)) : Prop where
  pending : ∀ entry ∈ base, entry.kind ≠ .user .pending
  others : ∀ entry ∈ base, ∀ live ∈ turns, belongsTo entry live.turn.id = false
  ids : ∀ entry ∈ base, ∀ record ∈ turns.flatMap LiveTurn.records,
    (projectSessionEntry record threadId).id ≠ entry.id

omit [Collation] in
theorem Unrelated.untouched {base : List TranscriptEntry} {turns : List (LiveTurn threadId)}
    (h : Unrelated base turns) {live : LiveTurn threadId} (hlive : live ∈ turns) :
    Untouched base live.turn.id := by
  intro entry hentry
  refine ⟨h.pending entry hentry, ?_⟩
  have := h.others entry hentry live hlive
  simp only [belongsTo, Bool.and_eq_false_iff, Bool.or_eq_false_iff] at this
  rcases this with h | h <;> simp [h]

omit [Collation] in
theorem projectSessionEntry_head (record : MemorySessionEntry) (threadId : ThreadId) :
    (projectSessionEntry record threadId).id.toList.head? = some 's' :=
  head_append (head_append (head_append (head_append (head_append (by decide) _) _) _) _) _

omit [Collation] in
theorem transcriptOf_sessionLoaded {session : MemorySessionView} (h : session.threadId = threadId) :
    (sessionLoaded state session).transcriptOf threadId =
      mergeSessionTranscript (state.transcriptOf threadId) session.recentEntries threadId := by
  rw [sessionLoaded, h, transcriptOf_setTranscript]

variable (state) in
/-- A load only adds entries. -/
theorem runLoads (loads : List (PageTime × MemorySessionView))
    (hthread : ∀ load ∈ loads, load.2.threadId = threadId) :
    ∃ next added, runActions state (loads.map fun load => (load.1, .sessionLoaded load.2)) =
        some next ∧ next.transcriptOf threadId = state.transcriptOf threadId ++ added := by
  induction loads generalizing state with
  | nil => exact ⟨state, [], rfl, by simp⟩
  | cons load rest ih =>
      obtain ⟨next, added, hnext, hentries⟩ := @ih (sessionLoaded state load.2)
        fun load hload => hthread load (List.mem_cons_of_mem _ hload)
      rw [transcriptOf_sessionLoaded (hthread load List.mem_cons_self), mergeSessionTranscript,
        List.append_assoc] at hentries
      exact ⟨next, _, hnext, hentries⟩

omit [Collation] in
/-- The records of a live turn are not found among the entries: all of them are added. -/
theorem merge_live {base : List TranscriptEntry} {turns : List (LiveTurn threadId)}
    {blocks : List (List TranscriptEntry)} (hbase : Unrelated base turns)
    (hblocks : List.Forall₂ (fun live block => IsBlock live.turn.id block) turns blocks) :
    mergeSessionTranscript (base ++ blocks.flatten) (turns.flatMap LiveTurn.records) threadId =
      base ++ blocks.flatten ++
        (turns.flatMap LiveTurn.records).map fun record => projectSessionEntry record threadId := by
  have hlive : ∀ entry ∈ blocks.flatten, LiveId entry := by
    clear hbase
    induction hblocks with
    | nil => simp
    | @cons live block turns blocks hblock _ ih =>
        obtain ⟨message, answer, notes, rfl, hmessage, hanswer, hnotes⟩ := hblock
        intro entry hentry
        rcases List.mem_append.mp (List.flatten_cons ▸ hentry) with hentry | hentry
        · rcases List.mem_cons.mp hentry with rfl | hentry
          · exact hmessage.id
          rcases List.mem_cons.mp hentry with rfl | hentry
          · exact hanswer.id
          · exact (hnotes entry hentry).2.2
        · exact ih entry hentry
  rw [mergeSessionTranscript, List.filter_eq_self.mpr]
  intro projected hprojected
  obtain ⟨record, hrecord, rfl⟩ := List.mem_map.mp hprojected
  have hnew : (projectSessionEntry record threadId).id ∉
      (base ++ blocks.flatten).map TranscriptEntry.id := by
    intro hmem
    obtain ⟨entry, hentry, hid⟩ := List.mem_map.mp hmem
    rcases List.mem_append.mp hentry with hold | hblock
    · exact hbase.ids entry hold record hrecord hid.symm
    · exact hlive entry hblock (hid ▸ projectSessionEntry_head record threadId)
  simpa using hnew

/-- Turns that were seen live and are then loaded as a session, any number of times, are shown once
and in order if and only if there is nothing to load or nothing was seen. -/
theorem shown_once_iff (turns : List (LiveTurn threadId))
    (loads : List (PageTime × MemorySessionView))
    (hids : (turns.map fun live => live.turn.id).Nodup)
    (hbase : Unrelated (state.transcriptOf threadId) turns)
    (hloads : ∀ load ∈ loads, load.2.threadId = threadId ∧
      load.2.recentEntries = turns.flatMap LiveTurn.records) :
    (∃ next, runActions state (turns.flatMap LiveTurn.actions ++
          loads.map fun load => (load.1, .sessionLoaded load.2)) = some next ∧
        ShownOnce (next.transcriptOf threadId) (turns.map fun live => live.turn.id)) ↔
      turns = [] ∨ loads = [] := by
  obtain ⟨seen, blocks, hseen, hentries, hblocks⟩ :=
    runTurns turns hids fun live hlive => hbase.untouched hlive
  rw [runActions_append, hseen, Option.bind_some]
  constructor
  · rintro ⟨next, hnext, hshown⟩
    by_contra hboth
    obtain ⟨hturns, hloaded⟩ := not_or.mp hboth
    obtain ⟨live, rest, rfl⟩ := List.exists_cons_of_ne_nil hturns
    obtain ⟨load, others, rfl⟩ := List.exists_cons_of_ne_nil hloaded
    obtain ⟨hthread, hrecords⟩ := hloads load List.mem_cons_self
    obtain ⟨final, added, hfinal, hall⟩ := runLoads (sessionLoaded seen load.2) others fun load hload => (hloads load (List.mem_cons_of_mem _ hload)).1
    obtain rfl : next = final := Option.some.inj (hnext.symm.trans hfinal)
    rw [transcriptOf_sessionLoaded hthread, hrecords, hentries, merge_live hbase hblocks] at hall
    -- the message of the first turn stands in its block and among the records
    have hblock : 1 ≤ (userEntries blocks.flatten live.turn.id).length := by
      rw [(length_entries_blocks hblocks live.turn.id).1, List.map_cons, List.count_cons_self]
      omega
    have hrecord : 1 ≤ (userEntries (((live :: rest).flatMap LiveTurn.records).map fun record =>
        projectSessionEntry record threadId) live.turn.id).length := by
      rw [Nat.succ_le_iff, List.length_pos_iff_exists_mem]
      refine ⟨projectSessionEntry live.startedRecord threadId, List.mem_filter.mpr ⟨?_, ?_⟩⟩
      · exact List.mem_map_of_mem (by simp [LiveTurn.records])
      · simp [projectSessionEntry, live.started_event, live.started_turn, sessionEntryKind,
          TranscriptEntry.isUser]
    have hone := hshown.messages live.turn.id (by simp)
    unfold userEntries at hone hblock hrecord
    rw [hall] at hone
    simp only [List.filter_append, List.length_append] at hone
    omega
  · rintro (rfl | rfl)
    · obtain ⟨next, added, hnext, -⟩ := runLoads seen loads
        fun load hload => (hloads load hload).1
      refine ⟨next, hnext, by simp, by simp, fun earlier later hpair => ?_⟩
      exact absurd hpair (by simp)
    · refine ⟨seen, rfl, ?_⟩
      rw [hentries]
      exact shownOnce_blocks hblocks hids hbase.others

end Loading

/-- The owner says hello and is answered; the turn has two records. -/
def helloTurn : LiveTurn "thread_1" :=
  { turn :=
      { id := "turn_1", threadId := "thread_1", kind := .user, status := .running,
        startedAt := "unix:1.0", endedAt := none, goal := some "hello", summary := none,
        checkpointBefore := none, checkpointAfter := none },
    content := "hello", sentAt := "2026-05-01T00:00:00Z", sentNow := ⟨0, ""⟩,
    starts := [(⟨1, ""⟩, .response), (⟨1, ""⟩, .event "unix:1.0")],
    answers := [(⟨2, ""⟩, .chunk "hi" none false "unix:2.0"), (⟨2, ""⟩, .completed "hi" "unix:2.0")],
    ending := .completed,
    ended :=
      { id := "turn_1", threadId := "thread_1", kind := .user, status := .completed,
        startedAt := "unix:1.0", endedAt := some "unix:3.0", goal := some "hello",
        summary := some "hi", checkpointBefore := none, checkpointAfter := none },
    endedAt := "unix:3.0", endedNow := ⟨3, ""⟩,
    startedRecord :=
      { recordedAt := "unix:1.0", event := "turn_started", summary := "Started turn for: hello",
        turnId := some "turn_1", artifactIds := [] },
    endedRecord :=
      { recordedAt := "unix:3.0", event := "turn_completed", summary := "hi",
        turnId := some "turn_1", artifactIds := [] },
    turn_thread := rfl, ended_id := rfl, ended_thread := rfl, starts_ne := by simp,
    started_event := rfl, started_turn := rfl, ended_event := by simp, ended_turn := rfl }

/-- The session that holds the turn. -/
def helloSession : MemorySessionView :=
  { threadId := "thread_1", title := "hello", status := .active, activeSummary := none,
    pendingCommitments := [], recentEntries := helloTurn.records, artifacts := [] }

theorem shown_once_live :
    letI := codePointOrder
    ∃ next, runActions initialWorkbenchState helloTurn.actions = some next ∧
      ShownOnce (next.transcriptOf "thread_1") ["turn_1"] :=
  letI := codePointOrder
  (@shown_once_iff _ "thread_1" initialWorkbenchState [helloTurn] [] (by simp)
    ⟨fun _ h => absurd h List.not_mem_nil, fun _ h => absurd h List.not_mem_nil,
      fun _ h => absurd h List.not_mem_nil⟩ (by simp)).mpr (.inr rfl)

/-- One load of the session shows the message of the turn twice. -/
theorem shown_once_loaded_twice :
    letI := codePointOrder
    ¬ ∃ next, runActions initialWorkbenchState (helloTurn.actions ++
        [(⟨4, ""⟩, .sessionLoaded helloSession)]) = some next ∧
      ShownOnce (next.transcriptOf "thread_1") ["turn_1"] := by
  let _ : Collation := codePointOrder
  have hcount : (runActions initialWorkbenchState (helloTurn.actions ++
      [(⟨4, ""⟩, .sessionLoaded helloSession)])).map
        (fun next => (userEntries (next.transcriptOf "thread_1") "turn_1").length) = some 2 := by
    decide +kernel
  rintro ⟨next, hnext, hshown⟩
  rw [hnext, Option.map_some, Option.some.injEq] at hcount
  have hone := hshown.messages "turn_1" (List.mem_singleton_self _)
  omega

end Liz.Web
