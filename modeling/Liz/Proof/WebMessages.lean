import Liz.Proof.WebActiveTurn
import Liz.Proof.WebSessions

/-!
# Messages and their turns

The page shows a message before its turn exists. The start of a turn marks every message of the
thread that is not marked yet, whoever started the turn, and a message whose own turn was refused is
never told apart from one that waits.
-/

namespace Liz.Web

/-! ### The messages of a transcript -/

/-- Entries of users keep their positions, and all that is done to them is `mark`. -/
def KeepsUsers (mark : TranscriptEntry → TranscriptEntry)
    (before after : List TranscriptEntry) : Prop :=
  ∀ (position : Nat) (entry : TranscriptEntry), before[position]? = some entry → entry.isUser →
    after[position]? = some (mark entry)

def markedBy (turn : Turn) (entry : TranscriptEntry) : TranscriptEntry :=
  if entry.kind = .user .pending then
    { entry with turnId := some turn.id, kind := .user .sent }
  else entry

/-- What an action with the notice does to the messages of the thread. -/
def markOf (threadId : ThreadId) : Option Notice → TranscriptEntry → TranscriptEntry
  | some (.started turn), entry => if turn.threadId = threadId then markedBy turn entry else entry
  | _, entry => entry

theorem isUser_markedBy (turn : Turn) {entry : TranscriptEntry} (h : entry.isUser) :
    (markedBy turn entry).isUser := by
  unfold markedBy
  split
  · rfl
  · exact h

namespace KeepsUsers

variable {mark : TranscriptEntry → TranscriptEntry} {before middle after : List TranscriptEntry}

theorem refl (entries : List TranscriptEntry) : KeepsUsers id entries entries :=
  fun _ _ hentry _ => hentry

theorem trans (h : KeepsUsers mark before middle)
    (hmark : ∀ entry, entry.isUser → (mark entry).isUser) (hnext : KeepsUsers id middle after) :
    KeepsUsers mark before after :=
  fun position entry hentry huser =>
    hnext position (mark entry) (h position entry hentry huser) (hmark entry huser)

theorem append (entries more : List TranscriptEntry) : KeepsUsers id entries (entries ++ more) := by
  intro position entry hentry _
  have hlt := (List.getElem?_eq_some_iff.mp hentry).1
  rw [List.getElem?_append_left hlt]
  exact hentry

theorem map (entries : List TranscriptEntry) : KeepsUsers mark entries (entries.map mark) := by
  intro position entry hentry _
  rw [List.getElem?_map, hentry]
  rfl

theorem ensure (entries : List TranscriptEntry) (threadId : ThreadId) (turnId : Option TurnId)
    (createdAt : Timestamp) :
    KeepsUsers id entries (ensureAssistantEntry entries threadId turnId createdAt) := by
  unfold ensureAssistantEntry
  split
  · exact refl entries
  · exact append entries _

/-- Answers are no messages of users. -/
theorem mapAnswers (entries : List TranscriptEntry) (turnId : Option TurnId)
    (update : TranscriptEntry → TranscriptEntry) :
    KeepsUsers id entries (Web.mapAnswers entries turnId update) := by
  intro position entry hentry huser
  have hanswer : entry.isAssistant = false := by
    cases hkind : entry.kind <;> simp_all [TranscriptEntry.isUser, TranscriptEntry.isAssistant]
  rw [Web.mapAnswers, List.getElem?_map, hentry]
  simp [hanswer]

theorem answered (entries : List TranscriptEntry) (threadId : ThreadId) (turnId : Option TurnId)
    (createdAt : Timestamp) (update : TranscriptEntry → TranscriptEntry) :
    KeepsUsers id entries
      (Web.mapAnswers (ensureAssistantEntry entries threadId turnId createdAt) turnId update) :=
  (ensure entries threadId turnId createdAt).trans (fun _ h => h) (mapAnswers _ turnId update)

end KeepsUsers

section Reducer

variable {state : WorkbenchState}

theorem transcriptOf_setTranscript_ne {threadId other : ThreadId} (h : other ≠ threadId)
    (entries : List TranscriptEntry) :
    (state.setTranscript threadId entries).transcriptOf other = state.transcriptOf other := by
  rw [WorkbenchState.transcriptOf, WorkbenchState.setTranscript, AList.lookup_insert_ne h]
  rfl

/-- Entries that keep the messages may take the place of the thread's own. -/
theorem keepsUsers_setTranscript {threadId other : ThreadId} {entries : List TranscriptEntry}
    (h : KeepsUsers id (state.transcriptOf other) entries) :
    KeepsUsers id (state.transcriptOf threadId)
      ((state.setTranscript other entries).transcriptOf threadId) := by
  by_cases hthread : threadId = other
  · subst hthread
    rw [transcriptOf_setTranscript]
    exact h
  · rw [transcriptOf_setTranscript_ne hthread]
    exact .refl _

theorem keepsUsers_appendEntry (threadId other : ThreadId) (entry : TranscriptEntry) :
    KeepsUsers id (state.transcriptOf threadId)
      ((appendEntry state other entry).transcriptOf threadId) :=
  keepsUsers_setTranscript (.append _ _)

theorem keepsUsers_finishTurn (threadId : ThreadId) (turn : Turn) (status : AssistantStatus) :
    KeepsUsers id (state.transcriptOf threadId)
      ((finishTurn state turn status).transcriptOf threadId) := by
  rw [finishTurn, transcriptOf_setRuntime]
  exact keepsUsers_setTranscript (.mapAnswers _ _ _)

theorem keepsUsers_turnStarted (threadId : ThreadId) (turn : Turn) :
    KeepsUsers (markOf threadId (some (.started turn))) (state.transcriptOf threadId)
      ((turnStarted state turn).transcriptOf threadId) := by
  by_cases hthread : turn.threadId = threadId
  · have hmark : markOf threadId (some (.started turn)) = markedBy turn := by
      funext entry
      exact if_pos hthread
    rw [hmark, transcriptOf_turnStarted hthread]
    exact (KeepsUsers.map _).trans (fun _ => isUser_markedBy turn) (.ensure _ _ _ _)
  · have hmark : markOf threadId (some (.started turn)) = id := by
      funext entry
      exact if_neg hthread
    rw [hmark, turnStarted, transcriptOf_setRuntime, transcriptOf_setTranscript_ne (Ne.symm hthread)]
    exact .refl _

theorem transcriptOf_updateToolCall (threadId other : ThreadId) (callId : Option String)
    (update : ToolCallProjection → ToolCallProjection) :
    (updateToolCall state other callId update).transcriptOf threadId =
      state.transcriptOf threadId := by
  unfold updateToolCall
  split
  · rfl
  · split <;> rfl

variable [Collation]

theorem keepsUsers_projectServerEvent (now : PageTime) (event : ServerEvent) (threadId : ThreadId) :
    KeepsUsers (markOf threadId (noticeOfPayload event.payload)) (state.transcriptOf threadId)
      ((projectServerEvent now state event).transcriptOf threadId) := by
  unfold projectServerEvent
  cases hpayload : event.payload with
  | turnStarted turn => exact keepsUsers_turnStarted threadId turn
  | assistantChunk _ _ _ | assistantCompleted _ =>
      exact keepsUsers_setTranscript (.answered _ _ _ _ _)
  | turnCompleted turn | turnCancelled turn => exact keepsUsers_finishTurn threadId turn _
  | turnFailed turn message =>
      exact (keepsUsers_finishTurn threadId turn .failed).trans (fun _ h => h)
        (keepsUsers_appendEntry _ _ _)
  | toolCallUpdated _ _ _ _ | toolCallCommitted _ _ _ _ _ _ | toolCompleted _ _ _ _ _
  | toolFailed _ _ _ _ | executorOutputChunk _ _ _ _ _ =>
      refine (congrArg (KeepsUsers id _) (transcriptOf_updateToolCall _ _ _ _)).mpr ?_
      exact .refl _
  | approvalRequested _ | approvalResolved _ _ => exact keepsUsers_appendEntry _ _ _
  | _ => exact .refl _

theorem keepsUsers_workbenchReducer {now : PageTime} {action : WorkbenchAction}
    {next : WorkbenchState} (h : workbenchReducer now state action = some next)
    (threadId : ThreadId) :
    KeepsUsers (markOf threadId (noticeOf action)) (state.transcriptOf threadId)
      (next.transcriptOf threadId) := by
  cases action with
  | turnStarted turn =>
      obtain rfl := Option.some.inj h
      exact keepsUsers_turnStarted threadId turn
  | serverEvent event =>
      obtain rfl := Option.some.inj h
      exact keepsUsers_projectServerEvent now event threadId
  | userMessageAdded _ _ _ | threadError _ _ =>
      obtain rfl := Option.some.inj h
      exact keepsUsers_appendEntry _ _ _
  | sessionLoaded session =>
      obtain rfl := Option.some.inj h
      exact keepsUsers_setTranscript (.append _ _)
  | providerProfilesSet _ | providerProfileUpsert _ =>
      obtain ⟨sanitized, -, hnext⟩ := Option.bind_eq_some_iff.mp h
      obtain rfl := Option.some.inj hnext
      exact .refl _
  | _ =>
      obtain rfl := Option.some.inj h
      exact .refl _

end Reducer

/-! ### Submitted messages -/

/-- A turn of the thread. -/
abbrev TurnOf (threadId : ThreadId) : Type := { turn : Turn // turn.threadId = threadId }

/-- A message with its place in the transcript, and how its turn is going to be answered. -/
structure SubmittedMessage (threadId : ThreadId) where
  position : Nat
  outcome : Except String (TurnOf threadId)

/-- The turn that was started for the message, if any. -/
def SubmittedMessage.turnId? {threadId : ThreadId} (message : SubmittedMessage threadId) :
    Option TurnId :=
  match message.outcome with
  | .ok turn => some turn.val.id
  | .error _ => none

/-- The page with the messages submitted on one thread. -/
structure MessagePage (threadId : ThreadId) where
  state : WorkbenchState
  waiting : Option (SubmittedMessage threadId)
  answered : List (SubmittedMessage threadId)

inductive MessageStep (threadId : ThreadId)
  | submit (content : String) (createdAt : Timestamp) (outcome : Except String (TurnOf threadId))
  | answer (now : PageTime)
  /-- Anything else: events of the server, among them the starts of turns, and other requests. -/
  | act (now : PageTime) (action : WorkbenchAction)

/-- What the page does when the request for the turn is answered. -/
def answerAction {threadId : ThreadId} : Except String (TurnOf threadId) → WorkbenchAction
  | .ok turn => .turnStarted turn.val
  | .error message => .threadError threadId message

namespace MessagePage

variable {threadId : ThreadId}

def blank : MessagePage threadId :=
  { state := initialWorkbenchState, waiting := none, answered := [] }

section Step

variable [Collation]

def reduce (page : MessagePage threadId) (now : PageTime) (action : WorkbenchAction) :
    MessagePage threadId :=
  { page with state := (workbenchReducer now page.state action).getD page.state }

def submit (page : MessagePage threadId) (content : String) (createdAt : Timestamp)
    (outcome : Except String (TurnOf threadId)) : MessagePage threadId :=
  { page with
    state := userMessageAdded page.state threadId content createdAt
    waiting := some ⟨(page.state.transcriptOf threadId).length, outcome⟩ }

/-- No message is submitted while one waits, and only a message that waits is answered. -/
def step (page : MessagePage threadId) : MessageStep threadId → MessagePage threadId
  | .submit content createdAt outcome =>
      match page.waiting with
      | some _ => page
      | none => page.submit content createdAt outcome
  | .answer now =>
      match page.waiting with
      | some message =>
          { page.reduce now (answerAction message.outcome) with
            waiting := none
            answered := message :: page.answered }
      | none => page
  | .act now action => page.reduce now action

end Step

def entryOf (page : MessagePage threadId) (message : SubmittedMessage threadId) :
    Option TranscriptEntry :=
  (page.state.transcriptOf threadId)[message.position]?

/-- Answered or not. -/
def submitted (page : MessagePage threadId) : List (SubmittedMessage threadId) :=
  page.waiting.toList ++ page.answered

/-- What an action of the step says about a turn. -/
def notice (page : MessagePage threadId) : MessageStep threadId → Option Notice
  | .submit _ _ _ => none
  | .answer _ => page.waiting.bind fun message => noticeOf (answerAction message.outcome)
  | .act _ action => noticeOf action

end MessagePage

/-- The entry is marked as sent, with the turn. -/
def TranscriptEntry.SentWith (entry : TranscriptEntry) (turnId : TurnId) : Prop :=
  entry.kind = .user .sent ∧ entry.turnId = some turnId

/-- The entry is a message that is not marked as sent and has no turn. -/
def TranscriptEntry.Unsent (entry : TranscriptEntry) : Prop :=
  (∃ status, status ≠ .sent ∧ entry.kind = .user status) ∧ entry.turnId = none

namespace SubmittedMessage

variable {threadId : ThreadId}

/-- A message whose turn was started is sent with this turn, and one whose turn was refused is not
sent. -/
def ShownAs (message : SubmittedMessage threadId) (entry : TranscriptEntry) : Prop :=
  match message.outcome with
  | .ok turn => entry.SentWith turn.val.id
  | .error _ => entry.Unsent

end SubmittedMessage

namespace MessagePage

variable {threadId : ThreadId}

/-- Every answered message is shown by its own answer. A message that waits is not shown as sent, or
it is shown with its own turn already. -/
structure FollowOwnTurns (page : MessagePage threadId) : Prop where
  answered : ∀ message ∈ page.answered, ∃ entry, page.entryOf message = some entry ∧
    message.ShownAs entry
  waiting : ∀ message, page.waiting = some message → ∃ entry, page.entryOf message = some entry ∧
    (message.ShownAs entry ∨ entry.Unsent)

/-- When a turn of the thread is started, it is the turn of every message that is still pending. -/
def StartsOwn (page : MessagePage threadId) (step : MessageStep threadId) : Prop :=
  ∀ turn, page.notice step = some (.started turn) → turn.threadId = threadId →
    ∀ message ∈ page.submitted, ∀ entry, page.entryOf message = some entry →
      entry.kind = .user .pending → message.turnId? = some turn.id

/-! ### One step -/

/-- The entry of a message is marked or it is not; nothing in between. -/
def Tracked (entry : TranscriptEntry) : Prop :=
  entry.kind = .user .pending ∧ entry.turnId = none ∨
    entry.kind = .user .sent ∧ entry.turnId.isSome

theorem Tracked.isUser {entry : TranscriptEntry} (h : Tracked entry) : entry.isUser := by
  rcases h with h | h <;> simp [TranscriptEntry.isUser, h.1]

theorem not_unsent_markedBy {entry : TranscriptEntry} (h : Tracked entry) (turn : Turn) :
    ¬ (markedBy turn entry).Unsent := by
  rintro ⟨-, hnone⟩
  rcases h with h | h
  · rw [markedBy, if_pos h.1] at hnone
    cases hnone
  · have hother : entry.kind ≠ .user .pending := by simp [h.1]
    rw [markedBy, if_neg hother] at hnone
    simp [hnone] at h

theorem shownAs_markedBy {message : SubmittedMessage threadId} {entry : TranscriptEntry}
    (h : Tracked entry) (hshown : message.ShownAs entry ∨ entry.Unsent) (turn : Turn) :
    message.ShownAs (markedBy turn entry) ↔
      (entry.kind = .user .pending → message.turnId? = some turn.id) := by
  rcases h with ⟨hkind, -⟩ | ⟨hkind, hturn⟩
  · rw [markedBy, if_pos hkind]
    unfold SubmittedMessage.ShownAs SubmittedMessage.turnId?
    cases message.outcome with
    | ok own => simp [TranscriptEntry.SentWith, hkind, eq_comm]
    | error _ => simp [TranscriptEntry.Unsent, hkind]
  · have hother : entry.kind ≠ .user .pending := by simp [hkind]
    have hunsent : ¬ entry.Unsent := by simp [TranscriptEntry.Unsent, hkind]
    rw [markedBy, if_neg hother]
    exact iff_of_true (hshown.resolve_right hunsent) (fun hpending => absurd hpending hother)

/-- Every submitted message has its entry. -/
def KeepsEntries (page : MessagePage threadId) : Prop :=
  ∀ message ∈ page.submitted, ∃ entry, page.entryOf message = some entry ∧ Tracked entry

theorem mem_submitted {page : MessagePage threadId} {message : SubmittedMessage threadId} :
    message ∈ page.submitted ↔ page.waiting = some message ∨ message ∈ page.answered := by
  simp [submitted]

variable [Collation] {page : MessagePage threadId}

theorem keepsUsers_reduce (now : PageTime) (action : WorkbenchAction) :
    KeepsUsers (markOf threadId (noticeOf action)) (page.state.transcriptOf threadId)
      ((page.reduce now action).state.transcriptOf threadId) := by
  unfold reduce
  cases hnext : workbenchReducer now page.state action with
  | some next => exact keepsUsers_workbenchReducer hnext threadId
  | none =>
      have hnotice : noticeOf action = none := by
        by_contra hsome
        obtain ⟨next, hsome⟩ := exists_next_of_notice now hsome
        rw [hnext] at hsome
        cases hsome
      rw [hnotice]
      exact .refl _

theorem entryOf_step {message : SubmittedMessage threadId} {entry : TranscriptEntry}
    (h : page.entryOf message = some entry) (huser : entry.isUser) (step : MessageStep threadId) :
    (page.step step).entryOf message = some (markOf threadId (page.notice step) entry) := by
  cases step with
  | submit content createdAt outcome =>
      cases hwaiting : page.waiting with
      | some other =>
          simp only [MessagePage.step, hwaiting]
          exact h
      | none =>
          simp only [MessagePage.step, hwaiting]
          exact keepsUsers_appendEntry threadId threadId _ message.position entry h huser
  | answer now =>
      cases hwaiting : page.waiting with
      | some other =>
          simp only [MessagePage.step, notice, hwaiting]
          exact keepsUsers_reduce now _ message.position entry h huser
      | none =>
          simp only [MessagePage.step, notice, hwaiting]
          exact h
  | act now action => exact keepsUsers_reduce now action message.position entry h huser

/-- Where the messages of a page come from. -/
theorem waiting_step {message : SubmittedMessage threadId} {step : MessageStep threadId}
    (h : (page.step step).waiting = some message) :
    page.waiting = some message ∨
      page.notice step = none ∧ ∃ entry, (page.step step).entryOf message = some entry ∧
        entry.kind = .user .pending ∧ entry.turnId = none := by
  cases step with
  | submit content createdAt outcome =>
      cases hwaiting : page.waiting with
      | some other =>
          simp only [MessagePage.step, hwaiting] at h
          exact .inl h
      | none =>
          simp only [MessagePage.step, hwaiting] at h ⊢
          obtain rfl := Option.some.inj h
          have hentry : ∀ entry : TranscriptEntry,
              (page.state.transcriptOf threadId ++ [entry])[(page.state.transcriptOf
                threadId).length]? = some entry := fun entry => List.getElem?_concat_length
          refine .inr ⟨rfl, ?_⟩
          rw [entryOf, submit, userMessageAdded, appendEntry, transcriptOf_setTranscript]
          exact ⟨_, hentry _, rfl, rfl⟩
  | answer now =>
      cases hwaiting : page.waiting with
      | some other =>
          simp only [MessagePage.step, hwaiting] at h
          cases h
      | none =>
          simp only [MessagePage.step, hwaiting] at h
          cases h
  | act now action => exact .inl h

theorem answered_step {message : SubmittedMessage threadId} {step : MessageStep threadId}
    (h : message ∈ (page.step step).answered) :
    message ∈ page.answered ∨
      page.waiting = some message ∧ page.notice step = noticeOf (answerAction message.outcome) := by
  cases step with
  | submit content createdAt outcome =>
      cases hwaiting : page.waiting <;> simp only [MessagePage.step, hwaiting] at h <;>
        exact .inl h
  | answer now =>
      cases hwaiting : page.waiting with
      | some other =>
          simp only [MessagePage.step, hwaiting, List.mem_cons] at h
          rcases h with rfl | h
          · exact .inr ⟨rfl, by rw [notice, hwaiting]; rfl⟩
          · exact .inl h
      | none =>
          simp only [MessagePage.step, hwaiting] at h
          exact .inl h
  | act now action => exact .inl h

/-- No message is lost. -/
theorem submitted_step {message : SubmittedMessage threadId} (h : message ∈ page.submitted)
    (step : MessageStep threadId) : message ∈ (page.step step).submitted := by
  rw [mem_submitted] at h ⊢
  cases step with
  | submit content createdAt outcome =>
      cases hwaiting : page.waiting with
      | some other =>
          simp only [MessagePage.step, hwaiting] at h ⊢
          exact h
      | none =>
          rw [hwaiting] at h
          simp only [MessagePage.step, hwaiting]
          exact .inr (h.resolve_left (by simp))
  | answer now =>
      cases hwaiting : page.waiting with
      | some other =>
          rw [hwaiting] at h
          simp only [MessagePage.step, hwaiting]
          rcases h with h | h
          · obtain rfl := Option.some.inj h
            exact .inr List.mem_cons_self
          · exact .inr (List.mem_cons_of_mem _ h)
      | none =>
          rw [hwaiting] at h
          simp only [MessagePage.step, hwaiting]
          exact h
  | act now action => exact h

omit [Collation] in
theorem tracked_markOf {entry : TranscriptEntry} (h : Tracked entry) (notice : Option Notice) :
    Tracked (markOf threadId notice entry) := by
  unfold markOf
  split
  · split
    · unfold markedBy
      split
      · exact .inr ⟨rfl, rfl⟩
      · exact h
    · exact h
  · exact h

theorem keepsEntries_step (h : page.KeepsEntries) (step : MessageStep threadId) :
    (page.step step).KeepsEntries := by
  intro message hmessage
  have hold : message ∈ page.submitted → ∃ entry, (page.step step).entryOf message = some entry ∧
      Tracked entry := by
    intro hbefore
    obtain ⟨entry, hentry, htracked⟩ := h message hbefore
    exact ⟨_, entryOf_step hentry htracked.isUser step, tracked_markOf htracked _⟩
  rw [mem_submitted] at hmessage
  rcases hmessage with hwaiting | hanswered
  · rcases waiting_step hwaiting with hbefore | ⟨-, entry, hentry, hkind, hturn⟩
    · exact hold (mem_submitted.mpr (.inl hbefore))
    · exact ⟨entry, hentry, .inl ⟨hkind, hturn⟩⟩
  · rcases answered_step hanswered with hbefore | ⟨hbefore, -⟩
    · exact hold (mem_submitted.mpr (.inr hbefore))
    · exact hold (mem_submitted.mpr (.inl hbefore))

omit [Collation] in
/-- Whatever is known of a message, it is shown by its answer or not as sent. -/
theorem FollowOwnTurns.shown (h : page.FollowOwnTurns) {message : SubmittedMessage threadId}
    (hmessage : message ∈ page.submitted) {entry : TranscriptEntry}
    (hentry : page.entryOf message = some entry) : message.ShownAs entry ∨ entry.Unsent := by
  rcases mem_submitted.mp hmessage with hwaiting | hanswered
  · obtain ⟨other, hother, hshown⟩ := h.waiting message hwaiting
    rw [hentry] at hother
    exact Option.some.inj hother ▸ hshown
  · obtain ⟨other, hother, hshown⟩ := h.answered message hanswered
    rw [hentry] at hother
    exact .inl (Option.some.inj hother ▸ hshown)

theorem submitted_of_step {message : SubmittedMessage threadId} {step : MessageStep threadId}
    (h : message ∈ (page.step step).submitted) (hnotice : page.notice step ≠ none) :
    message ∈ page.submitted := by
  rcases mem_submitted.mp h with hwaiting | hanswered
  · exact mem_submitted.mpr (.inl ((waiting_step hwaiting).resolve_right fun hnew =>
      hnotice hnew.1))
  · exact mem_submitted.mpr ((answered_step hanswered).elim .inr fun hwas => .inl hwas.1)

/-- The start of a turn leaves every message right if and only if all that it marks are its own. -/
theorem followOwnTurns_start_iff (hentries : page.KeepsEntries) (h : page.FollowOwnTurns)
    {step : MessageStep threadId} {turn : Turn}
    (hnotice : page.notice step = some (.started turn)) (hthread : turn.threadId = threadId) :
    (page.step step).FollowOwnTurns ↔ page.StartsOwn step := by
  have hsome : page.notice step ≠ none := by simp [hnotice]
  have hentryOf : ∀ message ∈ page.submitted, ∃ entry, page.entryOf message = some entry ∧
      Tracked entry ∧ (page.step step).entryOf message = some (markedBy turn entry) := by
    intro message hmessage
    obtain ⟨entry, hentry, htracked⟩ := hentries message hmessage
    refine ⟨entry, hentry, htracked, ?_⟩
    rw [entryOf_step hentry htracked.isUser, hnotice]
    exact congrArg some (if_pos hthread)
  constructor
  · intro hafter other hother _ message hmessage entry hentry hpending
    rw [hnotice] at hother
    obtain rfl := Notice.started.inj (Option.some.inj hother)
    obtain ⟨same, hsame, htracked, hmarked⟩ := hentryOf message hmessage
    rw [hentry] at hsame
    obtain rfl := Option.some.inj hsame
    have hshown := hafter.shown (submitted_step hmessage step) hmarked
    have hown := hshown.resolve_right (not_unsent_markedBy htracked turn)
    exact (shownAs_markedBy htracked (h.shown hmessage hentry) turn).mp hown hpending
  · intro hown
    have hshown : ∀ message ∈ (page.step step).submitted, ∃ entry,
        (page.step step).entryOf message = some entry ∧ message.ShownAs entry := by
      intro message hmessage
      have hbefore := submitted_of_step hmessage hsome
      obtain ⟨entry, hentry, htracked, hmarked⟩ := hentryOf message hbefore
      refine ⟨_, hmarked, (shownAs_markedBy htracked (h.shown hbefore hentry) turn).mpr ?_⟩
      exact hown turn hnotice hthread message hbefore entry hentry
    constructor
    · intro message hmessage
      exact hshown message (mem_submitted.mpr (.inr hmessage))
    · intro message hmessage
      obtain ⟨entry, hentry, hright⟩ := hshown message (mem_submitted.mpr (.inl hmessage))
      exact ⟨entry, hentry, .inl hright⟩

/-- A step that starts no turn of the thread leaves every message right. -/
theorem followOwnTurns_of_no_start (hentries : page.KeepsEntries) (h : page.FollowOwnTurns)
    {step : MessageStep threadId}
    (hnone : ∀ turn, page.notice step = some (.started turn) → turn.threadId ≠ threadId) :
    (page.step step).FollowOwnTurns := by
  have hmark : ∀ entry, markOf threadId (page.notice step) entry = entry := by
    intro entry
    unfold markOf
    split
    next turn heq => exact if_neg (hnone turn heq)
    next => rfl
  have hkept : ∀ message ∈ page.submitted, ∃ entry, page.entryOf message = some entry ∧
      (page.step step).entryOf message = some entry := by
    intro message hmessage
    obtain ⟨entry, hentry, htracked⟩ := hentries message hmessage
    refine ⟨entry, hentry, ?_⟩
    rw [entryOf_step hentry htracked.isUser, hmark]
  constructor
  · intro message hmessage
    rcases answered_step hmessage with hbefore | ⟨hwaiting, hnotice⟩
    · obtain ⟨entry, hentry, hshown⟩ := h.answered message hbefore
      obtain ⟨same, hsame, hafter⟩ := hkept message (mem_submitted.mpr (.inr hbefore))
      rw [hentry] at hsame
      obtain rfl := Option.some.inj hsame
      exact ⟨entry, hafter, hshown⟩
    · have hmem := mem_submitted.mpr (.inl hwaiting)
      obtain ⟨entry, hentry, hafter⟩ := hkept message hmem
      refine ⟨entry, hafter, ?_⟩
      have hshown := h.shown hmem hentry
      unfold SubmittedMessage.ShownAs at hshown ⊢
      cases houtcome : message.outcome with
      | ok own =>
          rw [houtcome] at hnotice
          exact absurd own.property (hnone own.val hnotice)
      | error text =>
          rw [houtcome] at hshown
          exact hshown.elim id id
  · intro message hmessage
    rcases waiting_step hmessage with hbefore | ⟨-, entry, hentry, hkind, hturn⟩
    · have hmem := mem_submitted.mpr (.inl hbefore)
      obtain ⟨entry, hentry, hafter⟩ := hkept message hmem
      exact ⟨entry, hafter, h.shown hmem hentry⟩
    · exact ⟨entry, hentry, .inr ⟨⟨.pending, by decide, hkind⟩, hturn⟩⟩

theorem followOwnTurns_step_iff (hentries : page.KeepsEntries) (h : page.FollowOwnTurns)
    (step : MessageStep threadId) :
    (page.step step).FollowOwnTurns ↔ page.StartsOwn step := by
  by_cases hstart : ∃ turn, page.notice step = some (.started turn) ∧ turn.threadId = threadId
  · obtain ⟨turn, hnotice, hthread⟩ := hstart
    exact followOwnTurns_start_iff hentries h hnotice hthread
  · have hnone : ∀ turn, page.notice step = some (.started turn) → turn.threadId ≠ threadId :=
      fun turn hnotice hthread => hstart ⟨turn, hnotice, hthread⟩
    refine iff_of_true (followOwnTurns_of_no_start hentries h hnone) ?_
    intro turn hnotice hthread
    exact absurd hthread (hnone turn hnotice)

end MessagePage

/-- Every message follows its own turn all the time if and only if no turn is ever started while a
message that is not its own is pending. -/
theorem messages_follow_own_turns_iff [Collation] (threadId : ThreadId)
    (steps : List (MessageStep threadId)) :
    (∀ page ∈ Runs.states MessagePage.step MessagePage.blank steps, page.FollowOwnTurns) ↔
      Runs.AllSteps MessagePage.step MessagePage.StartsOwn MessagePage.blank steps := by
  have hentries : (MessagePage.blank : MessagePage threadId).KeepsEntries := by
    simp [MessagePage.KeepsEntries, MessagePage.submitted, MessagePage.blank]
  have hblank : (MessagePage.blank : MessagePage threadId).FollowOwnTurns := by
    constructor <;> simp [MessagePage.blank]
  exact Runs.invariant_iff (fun _ step h => MessagePage.keepsEntries_step h step)
    (fun _ step hentries h _ => MessagePage.followOwnTurns_step_iff hentries h step) hentries hblank
    (Runs.allSteps_true MessagePage.blank steps)

/-! ### A refused message -/

/-- The turn of the first message is refused, and the turn of the second one is started. -/
def refusedThenStarted : List (MessageStep "thread_1") :=
  [.submit "a" "t1" (.error "busy"), .answer ⟨0, "t2"⟩,
   .submit "b" "t3" (.ok ⟨turnAt "turn_2" .running, rfl⟩), .answer ⟨0, "t4"⟩,
   .act ⟨0, "t5"⟩ (.serverEvent (eventOf (turnAt "turn_2" .running) .turnStarted))]

/-- The refused message is shown as sent with the turn of the other message. -/
theorem refused_message_sent :
    letI := codePointOrder
    let page := Runs.final MessagePage.step MessagePage.blank refusedThenStarted
    (∃ message ∈ page.answered, message.outcome = .error "busy" ∧
      (page.entryOf message).map (fun entry => (entry.kind, entry.turnId)) =
        some (.user .sent, some "turn_2")) ∧
    ¬ ∀ page ∈ Runs.states MessagePage.step MessagePage.blank refusedThenStarted,
      page.FollowOwnTurns := by
  let _ : Collation := codePointOrder
  let page := Runs.final MessagePage.step MessagePage.blank refusedThenStarted
  let refused : SubmittedMessage "thread_1" := ⟨0, .error "busy"⟩
  have hanswered : refused ∈ page.answered := List.mem_cons_of_mem _ List.mem_cons_self
  have hentry : (page.entryOf refused).map (fun entry => (entry.kind, entry.turnId)) =
      some (.user .sent, some "turn_2") := by
    decide +kernel
  refine ⟨⟨refused, hanswered, rfl, hentry⟩, fun h => ?_⟩
  obtain ⟨entry, hsame, ⟨⟨status, hstatus, hkind⟩, -⟩⟩ :=
    (h page (Runs.final_mem_states _ _)).answered refused hanswered
  rw [hsame] at hentry
  simp only [Option.map_some, hkind, Option.some.injEq, Prod.mk.injEq, EntryKind.user.injEq]
    at hentry
  exact hstatus hentry.1

end Liz.Web
