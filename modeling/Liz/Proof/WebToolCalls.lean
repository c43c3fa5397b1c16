import Liz.Base.Attribution
import Liz.Base.Sorting
import Liz.Server.App
import Liz.Web.Workbench

/-!
# Tool results in the web client

A model response asks for a number of tool calls. The server announces all of them and then executes
one after another, but neither output nor a result names its call. The workbench attributes output
to the last listed call that waits, and a result to the last listed call of the tool that waits.
-/

namespace Liz.Web

/-- How a tool call ends. -/
structure ToolCallResult where
  status : ToolCallStatus
  summary : String
  artifactIds : List ArtifactId
  deriving DecidableEq, Repr

inductive ToolOutcome
  | completed (summary : String) (artifactIds : List ArtifactId)
  | failed (summary : String)
  deriving DecidableEq, Repr

/-- A requested tool call with its announcement, its execution and the times of their events. -/
structure ToolRun where
  callId : String
  toolName : String
  requested : String
  deltas : List (String × Option String × Timestamp)
  arguments : String
  riskHint : Option RiskLevel
  nodeId : Option NodeId
  workspaceMountId : Option WorkspaceMountId
  startedAt : Timestamp
  committedAt : Timestamp
  output : List (ToolOutputChunk × Timestamp)
  outcome : ToolOutcome
  settledAt : Timestamp
  deriving DecidableEq

namespace ToolRun

def chunks (run : ToolRun) : List ToolOutputChunk := run.output.map Prod.fst

def result (run : ToolRun) : ToolCallResult :=
  match run.outcome with
  | .completed summary artifactIds => ⟨.completed, summary, artifactIds⟩
  | .failed summary => ⟨.failed, summary, []⟩

variable (threadId : ThreadId) (turnId : TurnId)

def event (payload : ServerEventPayload) (createdAt : Timestamp) : ServerEvent :=
  { threadId := threadId, turnId := some turnId, payload := payload, createdAt := createdAt }

def deltaEvents (run : ToolRun) : List ServerEvent :=
  run.deltas.map fun delta =>
    event threadId turnId (.toolCallUpdated run.callId run.toolName delta.1 delta.2.1) delta.2.2

/-- The call is announced. -/
def openingEvents (run : ToolRun) : List ServerEvent :=
  event threadId turnId (.toolCallStarted run.callId run.toolName run.requested) run.startedAt ::
    (run.deltaEvents threadId turnId ++
      [event threadId turnId (.toolCallCommitted run.callId run.toolName run.arguments run.riskHint
        run.nodeId run.workspaceMountId) run.committedAt])

def outputEvents (run : ToolRun) : List ServerEvent :=
  run.output.map fun chunk =>
    event threadId turnId (.executorOutputChunk chunk.1.executorTaskId chunk.1.stream chunk.1.chunk
      run.nodeId run.workspaceMountId) chunk.2

def settledEvent (run : ToolRun) : ServerEvent :=
  event threadId turnId
    (match run.outcome with
    | .completed summary artifactIds =>
        .toolCompleted run.toolName summary artifactIds run.nodeId run.workspaceMountId
    | .failed summary => .toolFailed run.toolName summary run.nodeId run.workspaceMountId)
    run.settledAt

/-- The call is executed. -/
def executionEvents (run : ToolRun) : List ServerEvent :=
  run.outputEvents threadId turnId ++ [run.settledEvent threadId turnId]

/-- What the server publishes for the calls of one model response. -/
def roundEvents (runs : List ToolRun) : List ServerEvent :=
  runs.flatMap (openingEvents threadId turnId) ++ runs.flatMap (executionEvents threadId turnId)

end ToolRun

namespace ToolCallProjection

def result (call : ToolCallProjection) : ToolCallResult :=
  ⟨call.status, call.summary, call.artifactIds⟩

/-- What identifies a call to a result without a sender, and the time by which it is listed. -/
def key (call : ToolCallProjection) : (String × String) × Timestamp :=
  ((call.callId, call.toolName), call.createdAt)

end ToolCallProjection

def ToolRun.key (run : ToolRun) : (String × String) × Timestamp :=
  ((run.callId, run.toolName), run.startedAt)

def recordsOf (state : WorkbenchState) (threadId : ThreadId) (callId : String) :
    List ToolCallProjection :=
  (state.toolCallsOf threadId).filter (·.callId == callId)

def pendingOf (state : WorkbenchState) (threadId : ThreadId) (turnId : TurnId) :
    List ToolCallProjection :=
  (state.toolCallsOf threadId).filter fun call => call.turnId == some turnId && call.pending

/-- The one record of a call shows the result and the output of its own execution. -/
def ShowsOwn (state : WorkbenchState) (threadId : ThreadId) (run : ToolRun) : Prop :=
  (recordsOf state threadId run.callId).map (fun call => (call.result, call.output)) =
    [(run.result, run.chunks)]

instance (state : WorkbenchState) (threadId : ThreadId) (run : ToolRun) :
    Decidable (ShowsOwn state threadId run) := inferInstanceAs (Decidable (_ = _))

/-! ### Updates of one record -/

section Update

variable {state : WorkbenchState} {threadId : ThreadId} {turnId : TurnId} {callId : String}
  {update : ToolCallProjection → ToolCallProjection}

theorem toolCallsOf_setToolCalls (calls : List ToolCallProjection) :
    (state.setToolCalls threadId calls).toolCallsOf threadId = calls := by
  simp [WorkbenchState.setToolCalls, WorkbenchState.toolCallsOf]

theorem toolCallsOf_update (hid : callId ≠ "") :
    (updateToolCall state threadId (some callId) update).toolCallsOf threadId =
      (state.toolCallsOf threadId).map fun call =>
        if call.callId = callId then update call else call := by
  rw [updateToolCall, if_neg (by simpa using hid), toolCallsOf_setToolCalls]

theorem updateToolCall_empty :
    updateToolCall state threadId (some "") update = state := by
  simp [updateToolCall]

variable (state threadId) in
/-- An update reaches the records under its identifier and no others. -/
theorem recordsOf_update (hid : callId ≠ "") (hupdate : ∀ call, (update call).callId = call.callId)
    (other : String) :
    recordsOf (updateToolCall state threadId (some callId) update) threadId other =
      if other = callId then (recordsOf state threadId other).map update
      else recordsOf state threadId other := by
  rw [recordsOf, toolCallsOf_update hid, List.filter_map]
  have hsame : ((fun call : ToolCallProjection => call.callId == other) ∘ fun call =>
      if call.callId = callId then update call else call) = fun call => call.callId == other := by
    funext call
    by_cases h : call.callId = callId <;> simp [h, hupdate]
  rw [hsame]
  split
  next heq =>
    apply List.map_congr_left
    intro call hcall
    rw [if_pos (by simpa [heq] using List.of_mem_filter hcall)]
  next hne =>
    rw [recordsOf]
    conv => rhs; rw [← List.map_id ((state.toolCallsOf threadId).filter _)]
    apply List.map_congr_left
    intro call hcall
    have hother : call.callId = other := by simpa using List.of_mem_filter hcall
    rw [if_neg (by rw [hother]; exact hne), id]

variable (state threadId turnId update) in
/-- An update that leaves a call waiting or not, and its key, leaves the keys of all calls that wait. -/
theorem pendingKeys_update (hid : callId ≠ "")
    (hsame : ∀ call ∈ recordsOf state threadId callId, (update call).key = call.key ∧
      (update call).turnId = call.turnId ∧ (update call).pending = call.pending) :
    (pendingOf (updateToolCall state threadId (some callId) update) threadId turnId).map
        ToolCallProjection.key =
      (pendingOf state threadId turnId).map ToolCallProjection.key := by
  have hcall : ∀ call ∈ state.toolCallsOf threadId, call.callId = callId →
      (update call).key = call.key ∧ (update call).turnId = call.turnId ∧
        (update call).pending = call.pending := by
    intro call hcall hid
    exact hsame call (List.mem_filter.mpr ⟨hcall, by simpa using hid⟩)
  rw [pendingOf, toolCallsOf_update hid, List.filter_map, List.map_map, pendingOf]
  have hwaiting : (state.toolCallsOf threadId).filter
      ((fun call : ToolCallProjection => call.turnId == some turnId && call.pending) ∘ fun call =>
        if call.callId = callId then update call else call) =
      (state.toolCallsOf threadId).filter fun call =>
        call.turnId == some turnId && call.pending := by
    apply List.filter_congr
    intro call hmem
    by_cases h : call.callId = callId
    · simp [h, (hcall call hmem h).2.1, (hcall call hmem h).2.2]
    · simp [h]
  rw [hwaiting]
  apply List.map_congr_left
  intro call hmem
  by_cases h : call.callId = callId
  · simp [h, (hcall call (List.mem_of_mem_filter hmem) h).1]
  · simp [h]

variable (state threadId turnId) in
/-- An update that ends a call leaves the other calls waiting. -/
theorem pendingOf_settle (hid : callId ≠ "") (hdone : ∀ call, (update call).pending = false) :
    pendingOf (updateToolCall state threadId (some callId) update) threadId turnId =
      (pendingOf state threadId turnId).filter fun call => call.callId != callId := by
  rw [pendingOf, toolCallsOf_update hid, List.filter_map, pendingOf, List.filter_filter]
  have hwaiting : (state.toolCallsOf threadId).filter
      ((fun call : ToolCallProjection => call.turnId == some turnId && call.pending) ∘ fun call =>
        if call.callId = callId then update call else call) =
      (state.toolCallsOf threadId).filter fun call =>
        call.callId != callId && (call.turnId == some turnId && call.pending) := by
    apply List.filter_congr
    intro call _
    by_cases h : call.callId = callId <;> simp [h, hdone]
  rw [hwaiting]
  conv => rhs; rw [← List.map_id ((state.toolCallsOf threadId).filter _)]
  apply List.map_congr_left
  intro call hmem
  have hne : call.callId ≠ callId := by
    have := List.of_mem_filter hmem
    simp only [Bool.and_eq_true, bne_iff_ne] at this
    exact this.1
  rw [if_neg hne, id]

end Update

/-! ### Announcing the calls -/

section Opening

variable [Collation] {state : WorkbenchState} {threadId : ThreadId} {turnId : TurnId}

instance : Std.Total listedBefore := ⟨fun left right => Collation.total left.createdAt right.createdAt⟩

instance : IsTrans ToolCallProjection listedBefore :=
  ⟨fun left middle right => Collation.trans left.createdAt middle.createdAt right.createdAt⟩

/-- The same order on keys. -/
def keyBefore (left right : (String × String) × Timestamp) : Prop :=
  Collation.before left.2 right.2 = true

instance : DecidableRel keyBefore := fun _ _ => inferInstanceAs (Decidable (_ = true))

instance : Std.Total keyBefore := ⟨fun left right => Collation.total left.2 right.2⟩

instance : IsTrans ((String × String) × Timestamp) keyBefore :=
  ⟨fun left middle right => Collation.trans left.2 middle.2 right.2⟩

theorem toolCallsOf_upsert (toolCall : ToolCallProjection) :
    (upsertToolCall state threadId toolCall).toolCallsOf threadId =
      ((state.toolCallsOf threadId).filter (·.callId != toolCall.callId) ++ [toolCall]).insertionSort
        listedBefore := by
  simp [upsertToolCall, WorkbenchState.setToolCalls, WorkbenchState.toolCallsOf]

variable (state threadId) in
/-- A new call has one record, and the records of the other calls stay. -/
theorem recordsOf_upsert (toolCall : ToolCallProjection) (callId : String) :
    recordsOf (upsertToolCall state threadId toolCall) threadId callId =
      if callId = toolCall.callId then [toolCall]
      else (recordsOf state threadId callId).insertionSort listedBefore := by
  rw [recordsOf, toolCallsOf_upsert, Sorting.filter_insertionSort, List.filter_append,
    List.filter_filter]
  by_cases h : callId = toolCall.callId
  · subst h
    have hnone : (state.toolCallsOf threadId).filter (fun call =>
        call.callId == toolCall.callId && call.callId != toolCall.callId) = [] := by
      rw [List.filter_eq_nil_iff]
      intro call _
      by_cases h : call.callId = toolCall.callId <;> simp [h]
    simp [hnone]
  · have hsame : (state.toolCallsOf threadId).filter (fun call =>
        call.callId == callId && call.callId != toolCall.callId) =
        (state.toolCallsOf threadId).filter fun call => call.callId == callId := by
      apply List.filter_congr
      intro call _
      by_cases hcall : call.callId = callId <;> simp [hcall, h]
    rw [hsame, if_neg h, recordsOf, List.filter_cons_of_neg (by simpa using Ne.symm h),
      List.filter_nil, List.append_nil]

variable (state threadId) in
/-- A call under a new identifier takes its place among the calls that wait. -/
theorem pendingKeys_upsert (toolCall : ToolCallProjection) (hturn : toolCall.turnId = some turnId)
    (hpending : toolCall.pending = true)
    (hnew : ∀ call ∈ pendingOf state threadId turnId, call.callId ≠ toolCall.callId) :
    (pendingOf (upsertToolCall state threadId toolCall) threadId turnId).map
        ToolCallProjection.key =
      ((pendingOf state threadId turnId).map ToolCallProjection.key ++
        [toolCall.key]).insertionSort keyBefore := by
  have hothers : ((state.toolCallsOf threadId).filter (·.callId != toolCall.callId)).filter
      (fun call => call.turnId == some turnId && call.pending) = pendingOf state threadId turnId := by
    rw [List.filter_filter, pendingOf]
    apply List.filter_congr
    intro call hcall
    by_cases hwait : (call.turnId == some turnId && call.pending) = true
    · have := hnew call (List.mem_filter.mpr ⟨hcall, hwait⟩)
      simp [hwait, this]
    · simp only [Bool.not_eq_true] at hwait
      simp [hwait]
  rw [pendingOf, toolCallsOf_upsert, Sorting.filter_insertionSort, List.filter_append, hothers,
    List.filter_cons_of_pos (by simp [hturn, hpending]), List.filter_nil,
    List.map_insertionSort listedBefore keyBefore ToolCallProjection.key _
      (fun _ _ _ _ => Iff.rfl), List.map_append, List.map_singleton]

variable (turnId) in
/-- The record of a call that has been announced and not yet executed. A call without an identifier
cannot be updated. -/
structure Announced (run : ToolRun) (call : ToolCallProjection) : Prop where
  key : call.key = run.key
  turn : call.turnId = some turnId
  pending : call.pending = true
  artifactIds : call.artifactIds = []
  output : call.output = []
  unnamed : run.callId = "" → call.status = .forming

variable (threadId turnId) in
/-- The calls that wait are those announced so far, each with one record. -/
structure Opened (state : WorkbenchState) (opened : List ToolRun) : Prop where
  waiting : (pendingOf state threadId turnId).map ToolCallProjection.key =
    (opened.map ToolRun.key).insertionSort keyBefore
  records : ∀ run ∈ opened, ∃ call, recordsOf state threadId run.callId = [call] ∧
    Announced turnId run call

/-- The record of an announced call is updated under its own identifier. -/
theorem Opened.update {opened : List ToolRun} (h : Opened threadId turnId state opened)
    (hids : (opened.map ToolRun.callId).Nodup) {run : ToolRun} (hrun : run ∈ opened)
    {update : ToolCallProjection → ToolCallProjection}
    (hupdate : ∀ call, Announced turnId run call → run.callId ≠ "" →
      Announced turnId run (update call))
    (hcallId : ∀ call, (update call).callId = call.callId) :
    Opened threadId turnId (updateToolCall state threadId (some run.callId) update) opened := by
  by_cases hid : run.callId = ""
  · rw [hid, updateToolCall_empty]
    exact h
  obtain ⟨call, hcall, hannounced⟩ := h.records run hrun
  constructor
  · rw [pendingKeys_update _ _ _ _ hid, h.waiting]
    intro record hrecord
    rw [hcall, List.mem_singleton] at hrecord
    subst hrecord
    have hnext := hupdate record hannounced hid
    exact ⟨hnext.key.trans hannounced.key.symm, hnext.turn.trans hannounced.turn.symm,
      hnext.pending.trans hannounced.pending.symm⟩
  · intro other hother
    rw [recordsOf_update _ _ hid hcallId]
    by_cases heq : other.callId = run.callId
    · have hsame : other = run := List.inj_on_of_nodup_map hids hother hrun heq
      subst hsame
      rw [if_pos rfl, hcall]
      exact ⟨update call, rfl, hupdate call hannounced hid⟩
    · rw [if_neg heq]
      exact h.records other hother

variable (threadId turnId) in
/-- The record of a call that has just been announced. -/
def ToolRun.listed (run : ToolRun) : ToolCallProjection :=
  { callId := run.callId, threadId := threadId, turnId := some turnId, toolName := run.toolName,
    summary := run.requested, status := .forming, argumentsSummary := none, preview := none,
    riskHint := none, artifactIds := [], output := [], createdAt := run.startedAt,
    updatedAt := run.startedAt }

/-- The call is listed. -/
theorem Opened.start {opened : List ToolRun} (h : Opened threadId turnId state opened)
    {run : ToolRun} (hnew : run.callId ∉ opened.map ToolRun.callId) (now : PageTime) :
    Opened threadId turnId
      (projectServerEvent now state (ToolRun.event threadId turnId
        (.toolCallStarted run.callId run.toolName run.requested) run.startedAt))
      (opened ++ [run]) := by
  have hids : (pendingOf state threadId turnId).map ToolCallProjection.callId ⊆
      opened.map ToolRun.callId := by
    have := congrArg (List.map fun key => key.1.1) h.waiting
    rw [List.map_map] at this
    intro callId hcallId
    have hmem : callId ∈ ((opened.map ToolRun.key).insertionSort keyBefore).map
        (fun key => key.1.1) := this ▸ hcallId
    obtain ⟨key, hkey, rfl⟩ := List.mem_map.mp hmem
    obtain ⟨other, hother, rfl⟩ := List.mem_map.mp ((List.mem_insertionSort _).mp hkey)
    exact List.mem_map_of_mem hother
  constructor
  · have hupsert := pendingKeys_upsert state threadId (run.listed threadId turnId) rfl rfl (by
        intro call hcall heq
        have hcallId : call.callId = run.callId := heq
        exact hnew (hcallId ▸ hids (List.mem_map_of_mem hcall)))
    rw [h.waiting, Sorting.insertionSort_insertionSort_append] at hupsert
    rw [List.map_append, List.map_singleton]
    exact hupsert
  · intro other hother
    have hrecords := recordsOf_upsert state threadId
      (run.listed threadId turnId) other.callId
    rw [show (run.listed threadId turnId).callId = run.callId from rfl] at hrecords
    rcases List.mem_append.mp hother with hold | hrun
    · obtain ⟨call, hcall, hannounced⟩ := h.records other hold
      have hne : other.callId ≠ run.callId := fun heq => hnew (heq ▸ List.mem_map_of_mem hold)
      rw [if_neg hne, hcall] at hrecords
      exact ⟨call, hrecords, hannounced⟩
    · rw [List.mem_singleton.mp hrun] at hrecords ⊢
      rw [if_pos rfl] at hrecords
      exact ⟨_, hrecords, ⟨rfl, rfl, rfl, rfl, rfl, fun _ => rfl⟩⟩

/-- The call is announced completely. -/
theorem Opened.opening {opened : List ToolRun} (h : Opened threadId turnId state opened)
    (run : ToolRun) (hids : ((opened ++ [run]).map ToolRun.callId).Nodup) (now : PageTime) :
    Opened threadId turnId
      ((run.openingEvents threadId turnId).foldl (projectServerEvent now) state)
      (opened ++ [run]) := by
  have hnew : run.callId ∉ opened.map ToolRun.callId := by
    rw [List.map_append, List.map_singleton] at hids
    intro hmem
    exact (List.nodup_append.mp hids).2.2 _ hmem _ (List.mem_singleton_self _) rfl
  have hrun : run ∈ opened ++ [run] := by simp
  have hstarted := h.start hnew now
  have hdeltas : ∀ (deltas : List (String × Option String × Timestamp)) (state : WorkbenchState),
      Opened threadId turnId state (opened ++ [run]) →
      Opened threadId turnId
        ((deltas.map fun delta => ToolRun.event threadId turnId
          (.toolCallUpdated run.callId run.toolName delta.1 delta.2.1) delta.2.2).foldl
            (projectServerEvent now) state) (opened ++ [run]) := by
    intro deltas
    induction deltas with
    | nil => exact fun state h => h
    | cons delta rest ih =>
        intro state h
        refine ih _ (h.update hids hrun (fun call hcall hid => ?_) fun _ => rfl)
        have hkey := hcall.key
        simp only [ToolCallProjection.key, ToolRun.key, Prod.mk.injEq] at hkey
        exact ⟨by simp [ToolCallProjection.key, ToolRun.key, hkey], hcall.turn, hcall.pending,
          hcall.artifactIds, hcall.output, fun h => absurd h hid⟩
  rw [ToolRun.openingEvents, List.foldl_cons, List.foldl_append]
  refine (hdeltas run.deltas _ hstarted).update hids hrun (fun call hcall hid => ?_) fun _ => rfl
  have hkey := hcall.key
  simp only [ToolCallProjection.key, ToolRun.key, Prod.mk.injEq] at hkey
  exact ⟨by simp [ToolCallProjection.key, ToolRun.key, hkey], hcall.turn, rfl, hcall.artifactIds,
    hcall.output, fun h => absurd h hid⟩

/-- All calls of a response are announced. -/
theorem Opened.openings {opened : List ToolRun} (h : Opened threadId turnId state opened)
    (runs : List ToolRun) (hids : ((opened ++ runs).map ToolRun.callId).Nodup) (now : PageTime) :
    Opened threadId turnId
      ((runs.flatMap (ToolRun.openingEvents threadId turnId)).foldl (projectServerEvent now) state)
      (opened ++ runs) := by
  induction runs generalizing state opened with
  | nil => rwa [List.append_nil]
  | cons run rest ih =>
      have hlist : opened ++ run :: rest = opened ++ [run] ++ rest := by simp
      rw [hlist] at hids ⊢
      have hfirst := h.opening run
        (hids.sublist ((List.sublist_append_left _ rest).map ToolRun.callId)) now
      rw [List.flatMap_cons, List.foldl_append]
      exact ih hfirst hids

end Opening

/-! ### Executing the calls -/

/-- A record with one more piece of output. -/
def withOutput (chunk : ToolOutputChunk × Timestamp) (call : ToolCallProjection) :
    ToolCallProjection :=
  { call with output := call.output ++ [chunk.1], updatedAt := chunk.2 }

theorem withOutput_callId (chunk : ToolOutputChunk × Timestamp) (call : ToolCallProjection) :
    (withOutput chunk call).callId = call.callId := rfl

/-- A record with the outcome of an execution. -/
def withOutcome (run : ToolRun) (call : ToolCallProjection) : ToolCallProjection :=
  match run.outcome with
  | .completed summary artifactIds =>
      { call with
        status := .completed, summary := summary, artifactIds := artifactIds,
        updatedAt := run.settledAt }
  | .failed summary =>
      { call with status := .failed, summary := summary, updatedAt := run.settledAt }

theorem withOutcome_pending (run : ToolRun) (call : ToolCallProjection) :
    (withOutcome run call).pending = false := by
  unfold withOutcome
  split <;> rfl

theorem withOutcome_callId (run : ToolRun) (call : ToolCallProjection) :
    (withOutcome run call).callId = call.callId := by
  unfold withOutcome
  split <;> rfl

theorem withOutcome_output (run : ToolRun) (call : ToolCallProjection) :
    (withOutcome run call).output = call.output := by
  unfold withOutcome
  split <;> rfl

/-- A failure leaves the artifacts as they are. -/
theorem withOutcome_result (run : ToolRun) {call : ToolCallProjection}
    (h : call.artifactIds = []) : (withOutcome run call).result = run.result := by
  unfold withOutcome ToolRun.result
  split <;> simp [ToolCallProjection.result, h]

section Executing

variable [Collation] {state : WorkbenchState} {threadId : ThreadId} {turnId : TurnId}
  {waiting : List ToolRun}

open Attribution

variable (threadId turnId) in
/-- The calls that wait, the last listed one first. -/
def WaitsFor (state : WorkbenchState) (waiting : List ToolRun) : Prop :=
  (pendingOf state threadId turnId).reverse.map (fun call => (call.callId, call.toolName)) =
    waiting.map fun run => (run.callId, run.toolName)

omit [Collation] in
theorem WaitsFor.of_keys (h : WaitsFor threadId turnId state waiting) {after : WorkbenchState}
    (hkeys : (pendingOf after threadId turnId).map ToolCallProjection.key =
      (pendingOf state threadId turnId).map ToolCallProjection.key) :
    WaitsFor threadId turnId after waiting := by
  have hpairs := congrArg (fun keys => keys.reverse.map Prod.fst) hkeys
  simp only [← List.map_reverse, List.map_map] at hpairs
  exact Eq.trans hpairs h

omit [Collation] in
/-- A result goes to the first call that waits for its tool. -/
theorem WaitsFor.resolve (h : WaitsFor threadId turnId state waiting) (toolName : String) :
    resolveToolCallId state threadId (some turnId) toolName =
      (waiting.find? fun run => run.toolName = toolName).map ToolRun.callId := by
  have hfind : resolveToolCallId state threadId (some turnId) toolName =
      ((pendingOf state threadId turnId).reverse.find? (·.toolName == toolName)).map
        ToolCallProjection.callId := by
    rw [resolveToolCallId, pendingOf, ← List.filter_reverse, List.find?_filter]
    congr 2
    funext call
    by_cases hname : call.toolName = toolName <;>
      by_cases hturn : call.turnId = some turnId <;> simp [hname, hturn]
  have hpairs := congrArg (fun pairs => (pairs.find? fun pair => pair.2 = toolName).map Prod.fst) h
  simp only [List.find?_map, Option.map_map] at hpairs
  rw [hfind]
  exact hpairs

omit [Collation] in
/-- Output goes to the first call that waits. -/
theorem WaitsFor.latest (h : WaitsFor threadId turnId state waiting) :
    resolveLatestToolCallId state threadId (some turnId) =
      waiting.head?.map ToolRun.callId := by
  have hhead : resolveLatestToolCallId state threadId (some turnId) =
      (pendingOf state threadId turnId).reverse.head?.map ToolCallProjection.callId := by
    rw [resolveLatestToolCallId, pendingOf, ← List.filter_reverse, List.head?_filter]
  have hpairs := congrArg (fun pairs => pairs.head?.map Prod.fst) h
  simp only [List.head?_map, Option.map_map] at hpairs
  rw [hhead]
  exact hpairs

theorem WaitsFor.project_output (h : WaitsFor threadId turnId state waiting) (now : PageTime)
    (run : ToolRun) (chunk : ToolOutputChunk × Timestamp) :
    projectServerEvent now state (ToolRun.event threadId turnId
        (.executorOutputChunk chunk.1.executorTaskId chunk.1.stream chunk.1.chunk run.nodeId
          run.workspaceMountId) chunk.2) =
      updateToolCall state threadId (waiting.head?.map ToolRun.callId) (withOutput chunk) := by
  rw [← h.latest]
  rfl

theorem WaitsFor.project_settled (h : WaitsFor threadId turnId state waiting) (now : PageTime)
    (run : ToolRun) :
    projectServerEvent now state (run.settledEvent threadId turnId) =
      updateToolCall state threadId
        ((waiting.find? fun w => w.toolName = run.toolName).map ToolRun.callId)
        (withOutcome run) := by
  rw [← h.resolve]
  cases houtcome : run.outcome with
  | completed summary artifactIds =>
      simp only [projectServerEvent, ToolRun.settledEvent, ToolRun.event, houtcome]
      congr
      funext call
      simp only [withOutcome, houtcome]
  | failed summary =>
      simp only [projectServerEvent, ToolRun.settledEvent, ToolRun.event, houtcome]
      congr
      funext call
      simp only [withOutcome, houtcome]

/-- The output of an execution is appended to the first call that waits. -/
theorem WaitsFor.output (h : WaitsFor threadId turnId state waiting)
    (hnamed : ∀ run ∈ waiting, run.callId ≠ "") (now : PageTime) (run : ToolRun) :
    let after := (run.outputEvents threadId turnId).foldl (projectServerEvent now) state
    WaitsFor threadId turnId after waiting ∧
      ∀ callId call, recordsOf state threadId callId = [call] →
        ∃ call', recordsOf after threadId callId = [call'] ∧ call'.result = call.result ∧
          call'.output = call.output ++
            if waiting.head?.map ToolRun.callId = some callId then run.chunks else [] := by
  unfold ToolRun.outputEvents ToolRun.chunks
  generalize run.output = output
  induction output generalizing state with
  | nil =>
      refine ⟨h, fun callId call hcall => ⟨call, hcall, rfl, ?_⟩⟩
      simp
  | cons chunk rest ih =>
      simp only [List.map_cons, List.foldl_cons, h.project_output]
      cases hhead : waiting.head? with
      | none => simpa [hhead, updateToolCall] using ih h
      | some first =>
          have hid := hnamed first (List.mem_of_mem_head? hhead)
          have hkeys := pendingKeys_update state threadId turnId (withOutput chunk) hid
            fun call _ => ⟨rfl, rfl, rfl⟩
          obtain ⟨hwaits, hrecords⟩ := ih (h.of_keys hkeys)
          refine ⟨hwaits, fun callId call hcall => ?_⟩
          have hupdated := recordsOf_update state threadId hid
            (withOutput_callId chunk) callId
          rw [hcall] at hupdated
          by_cases heq : callId = first.callId
          · rw [if_pos heq] at hupdated
            obtain ⟨call', hcall', hresult, houtput⟩ := hrecords callId _ hupdated
            refine ⟨call', hcall', hresult, ?_⟩
            rw [houtput]
            simp [hhead, heq, withOutput]
          · rw [if_neg heq] at hupdated
            obtain ⟨call', hcall', hresult, houtput⟩ := hrecords callId _ hupdated
            refine ⟨call', hcall', hresult, ?_⟩
            rw [houtput]
            simp [hhead, Ne.symm heq]

/-- The result of an execution goes to the first call that waits for the tool. -/
theorem WaitsFor.settle (h : WaitsFor threadId turnId state waiting)
    (hnamed : ∀ run ∈ waiting, run.callId ≠ "") (hids : (waiting.map ToolRun.callId).Nodup)
    (now : PageTime) (run : ToolRun) :
    let after := projectServerEvent now state (run.settledEvent threadId turnId)
    WaitsFor threadId turnId after (retire ToolRun.toolName waiting run.toolName) ∧
      ∀ callId call, recordsOf state threadId callId = [call] →
        ∃ call', recordsOf after threadId callId = [call'] ∧ call'.output = call.output ∧
          if (waiting.find? fun w => w.toolName = run.toolName).map ToolRun.callId = some callId
          then call.artifactIds = [] → call'.result = run.result else call'.result = call.result := by
  simp only [h.project_settled]
  cases hfind : waiting.find? fun w => w.toolName = run.toolName with
  | none =>
      have hretire : retire ToolRun.toolName waiting run.toolName = waiting :=
        List.eraseP_of_forall_not (List.find?_eq_none.mp hfind)
      rw [hretire]
      exact ⟨h, fun callId call hcall => ⟨call, hcall, rfl, by simp⟩⟩
  | some first =>
      have hid := hnamed first (List.mem_of_find?_eq_some hfind)
      constructor
      · obtain ⟨before, after, rfl, hretire⟩ := retire_of_find hfind
        have hsettle := pendingOf_settle state threadId turnId hid
          (withOutcome_pending run)
        rw [WaitsFor, Option.map_some, hsettle, hretire]
        have hpairs := congrArg (List.filter fun pair => pair.1 != first.callId) h
        rw [List.filter_map, List.filter_map, List.filter_reverse] at hpairs
        have hothers : (before ++ first :: after).filter
            ((fun pair : String × String => pair.1 != first.callId) ∘
              fun run : ToolRun => (run.callId, run.toolName)) = before ++ after := by
          rw [List.map_append, List.map_cons] at hids
          have hne := (List.nodup_middle.mp hids)
          rw [List.filter_append, List.filter_cons_of_neg (by simp), ← List.filter_append]
          rw [List.filter_eq_self]
          intro other hother
          have hmem : other.callId ∈ before.map ToolRun.callId ++ after.map ToolRun.callId := by
            rw [← List.map_append]
            exact List.mem_map_of_mem hother
          have hdiffer : other.callId ≠ first.callId := fun heq =>
            (List.nodup_cons.mp hne).1 (heq ▸ hmem)
          simpa using hdiffer
        rw [hothers] at hpairs
        exact hpairs
      · intro callId call hcall
        have hupdated := recordsOf_update state threadId hid
          (withOutcome_callId run) callId
        rw [hcall] at hupdated
        by_cases heq : callId = first.callId
        · rw [if_pos heq] at hupdated
          refine ⟨withOutcome run call, hupdated, withOutcome_output run call, ?_⟩
          rw [if_pos (by simp [heq])]
          exact withOutcome_result run
        · rw [if_neg heq] at hupdated
          refine ⟨call, hupdated, rfl, ?_⟩
          rw [if_neg (by simpa using Ne.symm heq)]

/-- What a call shows after the executions is what it showed before and what they attribute to it. -/
theorem WaitsFor.executions (h : WaitsFor threadId turnId state waiting)
    (hnamed : ∀ run ∈ waiting, run.callId ≠ "") (hids : (waiting.map ToolRun.callId).Nodup)
    (now : PageTime) (executed : List ToolRun) {run : ToolRun} {call : ToolCallProjection}
    (hown : ∀ w ∈ waiting, w.callId = run.callId → w = run)
    (hcall : recordsOf state threadId run.callId = [call])
    (hartifacts : run ∈ waiting → call.artifactIds = []) :
    ∃ call', recordsOf ((executed.flatMap (ToolRun.executionEvents threadId turnId)).foldl
          (projectServerEvent now) state) threadId run.callId = [call'] ∧
      call'.output = call.output ++ delivered ToolRun.toolName ToolRun.chunks waiting executed run ∧
      call'.result =
        (settled ToolRun.toolName ToolRun.result waiting executed run).getD call.result := by
  induction executed generalizing state waiting call with
  | nil => exact ⟨call, hcall, by simp [delivered], rfl⟩
  | cons e rest ih =>
      have hsome : ∀ {found : Option ToolRun}, (∀ w, found = some w → w ∈ waiting) →
          (found.map ToolRun.callId = some run.callId ↔ found = some run) := by
        intro found hfound
        cases found with
        | none => simp
        | some w =>
            have hw := hown w (hfound w rfl)
            simp only [Option.map_some, Option.some.injEq]
            exact ⟨hw, fun h => h ▸ rfl⟩
      obtain ⟨hwaits, hrecords⟩ := h.output hnamed now e
      obtain ⟨call₁, hcall₁, hresult₁, houtput₁⟩ := hrecords run.callId call hcall
      obtain ⟨hretired, hrecords⟩ := hwaits.settle hnamed hids now e
      obtain ⟨call₂, hcall₂, houtput₂, hresult₂⟩ := hrecords run.callId call₁ hcall₁
      have hkept : call₁.artifactIds = call.artifactIds :=
        congrArg ToolCallResult.artifactIds hresult₁
      have hsub := retire_sublist ToolRun.toolName waiting e.toolName
      have hnodup : waiting.Nodup := hids.of_map ToolRun.callId
      simp only [hsome (fun w hw => List.mem_of_find?_eq_some hw)] at hresult₂
      simp only [hsome (fun w hw => List.mem_of_mem_head? hw)] at houtput₁
      have hnext := ih hretired (fun w hw => hnamed w (hsub.subset hw))
        (hids.sublist (hsub.map ToolRun.callId)) (fun w hw => hown w (hsub.subset hw)) hcall₂ (by
          intro hrun
          have hmem := hsub.subset hrun
          have hother : ¬ waiting.find? (fun w => w.toolName = e.toolName) = some run := fun hfind =>
            ((mem_retire_iff hnodup hfind).mp hrun).2 rfl
          rw [if_neg hother] at hresult₂
          have := congrArg ToolCallResult.artifactIds hresult₂
          exact this.trans (hkept.trans (hartifacts hmem)))
      obtain ⟨call₃, hcall₃, houtput₃, hresult₃⟩ := hnext
      refine ⟨call₃, ?_, ?_, ?_⟩
      · rw [List.flatMap_cons, List.foldl_append, ToolRun.executionEvents, List.foldl_append]
        exact hcall₃
      · rw [houtput₃, houtput₂, houtput₁, delivered, List.append_assoc]
      · rw [hresult₃, settled]
        by_cases hfind : waiting.find? (fun w => w.toolName = e.toolName) = some run
        · have hgone : run ∉ retire ToolRun.toolName waiting e.toolName := fun hrun =>
            ((mem_retire_iff hnodup hfind).mp hrun).2 rfl
          rw [if_pos hfind] at hresult₂
          rw [if_pos hfind, settled_of_not_mem hgone, Option.getD_none, Option.getD_some]
          exact hresult₂ (hkept.trans (hartifacts (List.mem_of_find?_eq_some hfind)))
        · rw [if_neg hfind] at hresult₂
          rw [if_neg hfind, hresult₂, hresult₁]

end Executing

/-! ### When every call shows its own result -/

section Rounds

variable [Collation] {state : WorkbenchState} {threadId : ThreadId} {turnId : TurnId}
  {runs : List ToolRun}

open Attribution

def ToolRun.startedBefore (left right : ToolRun) : Prop :=
  Collation.before left.startedAt right.startedAt = true

instance : DecidableRel ToolRun.startedBefore := fun _ _ => inferInstanceAs (Decidable (_ = true))

/-- The calls of a response in the order in which the client lists them. -/
def listed (runs : List ToolRun) : List ToolRun := runs.insertionSort ToolRun.startedBefore

/-- The calls of a response can be told apart by what comes back. For every tool, the results come
in the reverse of the order in which its calls are listed. The calls with output have the same
outputs when they are listed backwards, and whenever a call has output, the call at its place
backwards is the last listed one that waits: for every tool, at least as many calls have been executed
before as are listed after that call, and exactly as many for its own tool. -/
structure Recognised (runs : List ToolRun) : Prop where
  named : ∀ run ∈ runs, run.callId ≠ ""
  results : ∀ toolName, (runs.filter fun run => run.toolName = toolName).map ToolRun.result =
    ((listed runs).reverse.filter fun run => run.toolName = toolName).map ToolRun.result
  outputs : List.Forall₂
    (fun run last => run.chunks = last.chunks ∧
      Reaches ToolRun.toolName (listed runs).reverse runs run last)
    (runs.filter fun run => !run.chunks.isEmpty)
    ((listed runs).reverse.filter fun run => !run.chunks.isEmpty)

theorem listed_perm (runs : List ToolRun) : (listed runs).Perm runs :=
  List.perm_insertionSort ToolRun.startedBefore runs

theorem Opened.waitsFor (h : Opened threadId turnId state runs) :
    WaitsFor threadId turnId state (listed runs).reverse := by
  have hkeys : (pendingOf state threadId turnId).map ToolCallProjection.key =
      (listed runs).map ToolRun.key := by
    rw [h.waiting, listed, List.map_insertionSort ToolRun.startedBefore keyBefore ToolRun.key runs
      fun _ _ _ _ => Iff.rfl]
  have hpairs := congrArg (fun keys => keys.reverse.map Prod.fst) hkeys
  simp only [← List.map_reverse, List.map_map] at hpairs
  exact hpairs

omit [Collation] in
/-- Nothing is shown under an empty identifier but what was announced. -/
theorem recordsOf_unnamed_update (callId : Option String)
    {update : ToolCallProjection → ToolCallProjection}
    (hupdate : ∀ call, (update call).callId = call.callId) :
    recordsOf (updateToolCall state threadId callId update) threadId "" =
      recordsOf state threadId "" := by
  cases callId with
  | none => rfl
  | some callId =>
      by_cases hid : callId = ""
      · rw [hid, updateToolCall_empty]
      · rw [recordsOf_update _ _ hid hupdate, if_neg (Ne.symm hid)]

theorem recordsOf_unnamed_executions (now : PageTime) (executed : List ToolRun) :
    recordsOf ((executed.flatMap (ToolRun.executionEvents threadId turnId)).foldl
        (projectServerEvent now) state) threadId "" = recordsOf state threadId "" := by
  induction executed generalizing state with
  | nil => rfl
  | cons e rest ih =>
      rw [List.flatMap_cons, List.foldl_append, ih, ToolRun.executionEvents, List.foldl_append,
        List.foldl_cons, List.foldl_nil]
      have houtput : ∀ (output : List (ToolOutputChunk × Timestamp)) (state : WorkbenchState),
          recordsOf ((output.map fun chunk => ToolRun.event threadId turnId
            (.executorOutputChunk chunk.1.executorTaskId chunk.1.stream chunk.1.chunk e.nodeId
              e.workspaceMountId) chunk.2).foldl (projectServerEvent now) state) threadId "" =
            recordsOf state threadId "" := by
        intro output
        induction output with
        | nil => exact fun _ => rfl
        | cons chunk rest ih =>
            intro state
            rw [List.map_cons, List.foldl_cons, ih]
            exact recordsOf_unnamed_update _ fun _ => rfl
      rw [← houtput e.output state]
      unfold ToolRun.settledEvent
      cases e.outcome with
      | completed summary artifactIds => exact recordsOf_unnamed_update _ fun _ => rfl
      | failed summary => exact recordsOf_unnamed_update _ fun _ => rfl

omit [Collation] in
/-- A call that waits has no result yet. -/
theorem result_ne_of_pending {call : ToolCallProjection} (h : call.pending = true) (run : ToolRun) :
    call.result ≠ run.result := by
  intro heq
  have hstatus : call.status = run.result.status := congrArg ToolCallResult.status heq
  unfold ToolRun.result at hstatus
  unfold ToolCallProjection.pending at h
  split at hstatus <;> simp [hstatus] at h

/-- After the executions a call shows its own result and output exactly when they were attributed to
it. -/
theorem Opened.showsOwn_iff (h : Opened threadId turnId state runs)
    (hids : (runs.map ToolRun.callId).Nodup) (hnamed : ∀ run ∈ runs, run.callId ≠ "")
    (now : PageTime) {run : ToolRun} (hrun : run ∈ runs) :
    ShowsOwn ((runs.flatMap (ToolRun.executionEvents threadId turnId)).foldl
        (projectServerEvent now) state) threadId run ↔
      settled ToolRun.toolName ToolRun.result (listed runs).reverse runs run = some run.result ∧
        delivered ToolRun.toolName ToolRun.chunks (listed runs).reverse runs run = run.chunks := by
  have hperm : (listed runs).reverse.Perm runs := (List.reverse_perm _).trans (listed_perm runs)
  obtain ⟨call, hcall, hannounced⟩ := h.records run hrun
  obtain ⟨call', hcall', houtput, hresult⟩ := h.waitsFor.executions
    (fun w hw => hnamed w (hperm.subset hw)) ((hperm.map ToolRun.callId).nodup_iff.mpr hids) now runs
    (fun w hw heq => List.inj_on_of_nodup_map hids (hperm.subset hw) hrun heq) hcall
    (fun _ => hannounced.artifactIds)
  rw [hannounced.output, List.nil_append] at houtput
  rw [ShowsOwn, hcall', List.map_singleton, List.singleton_inj, Prod.mk.injEq, houtput, hresult]
  apply and_congr_left'
  cases settled ToolRun.toolName ToolRun.result (listed runs).reverse runs run with
  | none => simpa using result_ne_of_pending hannounced.pending run
  | some result => simp

/-- Every call of a model response shows its own result and output after the events of the response
if and only if what comes back tells the calls apart. -/
theorem own_results_iff (now : PageTime)
    (hidle : ∀ call ∈ state.toolCallsOf threadId, call.turnId = some turnId → call.pending = false)
    (hids : (runs.map ToolRun.callId).Nodup) :
    (∀ run ∈ runs, ShowsOwn ((ToolRun.roundEvents threadId turnId runs).foldl
        (projectServerEvent now) state) threadId run) ↔ Recognised runs := by
  have hstart : Opened threadId turnId state [] := by
    refine ⟨?_, by simp⟩
    rw [List.map_nil, List.insertionSort_nil, List.map_eq_nil_iff, pendingOf, List.filter_eq_nil_iff]
    intro call hcall
    by_cases hturn : call.turnId = some turnId
    · simp [hidle call hcall hturn]
    · simp [hturn]
  have hopened := hstart.openings runs (by simpa using hids) now
  rw [List.nil_append] at hopened
  rw [ToolRun.roundEvents, List.foldl_append]
  generalize (runs.flatMap (ToolRun.openingEvents threadId turnId)).foldl
    (projectServerEvent now) state = announced at hopened
  by_cases hnamed : ∀ run ∈ runs, run.callId ≠ ""
  · have hperm : (listed runs).reverse.Perm runs := (List.reverse_perm _).trans (listed_perm runs)
    have hnodup : (listed runs).reverse.Nodup := hperm.nodup_iff.mpr (hids.of_map ToolRun.callId)
    have hresults := settled_iff ToolRun.toolName ToolRun.result runs hnodup
      fun t => (hperm.filter _).length_eq
    have houtputs := delivered_iff ToolRun.toolName ToolRun.chunks hnodup
      hperm.symm
    constructor
    · intro h
      have hshown : ∀ run ∈ (listed runs).reverse, _ := fun run hrun =>
        (hopened.showsOwn_iff hids hnamed now (hperm.subset hrun)).mp (h run (hperm.subset hrun))
      exact
        { named := hnamed
          results := hresults.mp fun run hrun => (hshown run hrun).1
          outputs := houtputs.mp fun run hrun => (hshown run hrun).2 }
    · intro h run hrun
      have hmem := hperm.symm.subset hrun
      exact (hopened.showsOwn_iff hids hnamed now hrun).mpr
        ⟨hresults.mpr h.results run hmem, houtputs.mpr h.outputs run hmem⟩
  · -- a call without an identifier is never settled
    constructor
    · intro h
      obtain ⟨run, hrun, hid⟩ : ∃ run ∈ runs, run.callId = "" := by simpa using hnamed
      obtain ⟨call, hcall, hannounced⟩ := hopened.records run hrun
      have hshown := h run hrun
      rw [hid] at hcall
      rw [ShowsOwn, hid, recordsOf_unnamed_executions, hcall, List.map_singleton,
        List.singleton_inj, Prod.mk.injEq] at hshown
      exact absurd hshown.1 (result_ne_of_pending hannounced.pending run)
    · intro h
      exact absurd h.named hnamed

end Rounds

/-- What the server publishes for an executed tool is the execution of a call, behind events that the
workbench does not show. -/
theorem toolExecutionEvents_eq [Collation] (threadId : ThreadId) (turnId : TurnId) (nodeId : NodeId)
    (workspaceMountId : Option WorkspaceMountId) (executed : ExecutedTool)
    (artifactRefs : List ArtifactRef) {run : ToolRun} (hname : run.toolName = executed.toolName.asStr)
    (hnode : run.nodeId = some nodeId) (hmount : run.workspaceMountId = workspaceMountId)
    (hchunks : run.chunks = executed.outputChunks.map fun output =>
      ⟨executorTaskIdForResult threadId executed.result, output.stream, output.chunk⟩)
    (houtcome : run.outcome = .completed executed.summary (artifactRefs.map ArtifactRef.id)) :
    ∃ ignored, toolExecutionEvents threadId turnId nodeId workspaceMountId executed artifactRefs =
        ignored ++ (run.executionEvents threadId turnId).map ServerEvent.toPendingEvent ∧
      ∀ event ∈ ignored, ∀ createdAt now (state : WorkbenchState),
        projectServerEvent now state { event with createdAt := createdAt } = state := by
  refine ⟨artifactRefs.flatMap fun artifact =>
    ⟨artifact.threadId, some artifact.turnId, .artifactCreated artifact⟩ ::
      if artifact.kind = .diff then
        [⟨artifact.threadId, some artifact.turnId, .diffAvailable artifact⟩]
      else [], ?_, ?_⟩
  · have houtput : (run.outputEvents threadId turnId).map ServerEvent.toPendingEvent =
        run.chunks.map fun chunk => ⟨threadId, some turnId,
          .executorOutputChunk chunk.executorTaskId chunk.stream chunk.chunk run.nodeId
            run.workspaceMountId⟩ := by
      simp [ToolRun.outputEvents, ToolRun.chunks, ToolRun.event]
    rw [ToolRun.executionEvents, List.map_append, houtput, hchunks, List.map_map, hnode, hmount]
    simp only [toolExecutionEvents, ToolRun.settledEvent, ToolRun.event, houtcome, hname, hnode,
      hmount, List.map_cons, List.map_nil, List.append_assoc]
    rfl
  · intro event hevent createdAt now state
    obtain ⟨artifact, -, hartifact⟩ := List.mem_flatMap.mp hevent
    rcases List.mem_cons.mp hartifact with rfl | hdiff
    · rfl
    · split at hdiff
      · rw [List.mem_singleton.mp hdiff]
        rfl
      · exact absurd hdiff List.not_mem_nil

/-- A call that prints a line and completes. -/
def printingRun (callId toolName line : String) (startedAt : Timestamp) : ToolRun :=
  { callId := callId, toolName := toolName, requested := "requested", deltas := [],
    arguments := "\x7b\x7d", riskHint := none, nodeId := some "local", workspaceMountId := none,
    startedAt := startedAt, committedAt := startedAt,
    output := [(⟨"executor_thread_1", .stdout, line⟩, startedAt)],
    outcome := .completed line [], settledAt := startedAt }

theorem own_results_single :
    letI := codePointOrder
    ShowsOwn ((ToolRun.roundEvents "thread_1" "turn_1"
        [printingRun "call_1" "shell.exec" "done" "unix:1.0"]).foldl
          (projectServerEvent ⟨0, ""⟩) initialWorkbenchState) "thread_1"
      (printingRun "call_1" "shell.exec" "done" "unix:1.0") :=
  letI := codePointOrder
  (own_results_iff ⟨0, ""⟩ (fun _ hcall => absurd hcall List.not_mem_nil) (by decide)).mpr
    { named := by decide
      results := fun toolName => rfl
      outputs := List.Forall₂.cons
        ⟨rfl, fun t => ⟨Nat.le_refl 0, fun _ => rfl⟩⟩ List.Forall₂.nil }
    _ (List.mem_singleton_self _)

/-- Two commands of one response each show what the other one printed. -/
theorem own_results_swapped :
    letI := codePointOrder
    ¬ ∀ run ∈ [printingRun "call_1" "shell.exec" "first" "unix:1.0",
        printingRun "call_2" "shell.exec" "second" "unix:2.0"],
      ShowsOwn ((ToolRun.roundEvents "thread_1" "turn_1"
        [printingRun "call_1" "shell.exec" "first" "unix:1.0",
          printingRun "call_2" "shell.exec" "second" "unix:2.0"]).foldl
          (projectServerEvent ⟨0, ""⟩) initialWorkbenchState) "thread_1" run := by
  decide +kernel

end Liz.Web
