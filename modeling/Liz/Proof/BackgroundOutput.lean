import Liz.Executor.Shell

/-!
# Output in the foreground and in the background

A command in the foreground is decoded and decorated once, one in the background read by read. Both
show the same text exactly when the command has printed something, or its sandbox has no banner, and
no read ends within a character that the next one continues.
-/

namespace Liz

/-- What the command has written, in the reads that it arrives in. -/
def bytesOf (reads : List ReadChunk) : Bytes := (reads.map ReadChunk.bytes).flatten

/-- What the readers of a drained stream make of it, read by read. -/
def readTexts (reads : List ReadChunk) : List Char :=
  (reads.map ReadChunk.bytes).flatMap (Bytes.decode none)

theorem banner_ne_empty (sandbox : EffectiveSandboxRequest) : sandbox.banner.toList ≠ [] := by
  unfold EffectiveSandboxRequest.banner
  simp [String.toList_append]

theorem bytesOf_append (reads more : List ReadChunk) :
    bytesOf (reads ++ more) = bytesOf reads ++ bytesOf more := by
  simp [bytesOf]

theorem bytesOf_eq_nil_iff {reads : List ReadChunk} : bytesOf reads = [] ↔ reads = [] := by
  constructor
  · intro h
    cases reads with
    | nil => rfl
    | cons read others => exact absurd (List.append_eq_nil_iff.mp h).1 read.ne_nil
  · rintro rfl
    rfl

/-- A banner is due: the sandbox has one, and nothing is there yet. -/
def BackgroundShellState.Bare (state : BackgroundShellState) : Prop :=
  state.stdout = "" ∧ state.sandbox.mode.isUnrestricted = false

instance (state : BackgroundShellState) : Decidable state.Bare :=
  inferInstanceAs (Decidable (_ ∧ _))

theorem toList_push (state : BackgroundShellState) (bytes : Bytes) :
    (state.push .stdout (Bytes.fromUtf8Lossy bytes)).stdout.toList =
      state.stdout.toList ++ ((if state.Bare then state.sandbox.banner.toList else []) ++
        Bytes.decode none bytes) := by
  have hbanner : (state.stdout.isEmpty && !state.sandbox.mode.isUnrestricted) = true ↔
      state.Bare := by
    rw [Bool.and_eq_true, String.isEmpty_iff, Bool.not_eq_true']
    rfl
  rw [BackgroundShellState.push]
  dsimp only
  rw [String.toList_append, String.toList_append, List.append_assoc, Bytes.fromUtf8Lossy,
    String.toList_ofList]
  by_cases h : state.Bare
  · rw [if_pos (hbanner.mpr h), if_pos h]
  · rw [if_neg (mt hbanner.mp h), if_neg h]
    rfl

/-- After the first read no banner is due. -/
theorem not_bare_push {state : BackgroundShellState} {bytes : Bytes} :
    ¬(state.push .stdout (Bytes.fromUtf8Lossy bytes)).Bare := by
  intro ⟨hempty, hmode⟩
  change state.sandbox.mode.isUnrestricted = false at hmode
  have hlist := toList_push state bytes
  rw [hempty] at hlist
  obtain ⟨hstdout, hrest⟩ := List.append_eq_nil_iff.mp hlist.symm
  have hbare : state.Bare := ⟨String.toList_inj.mp hstdout, hmode⟩
  rw [if_pos hbare] at hrest
  exact banner_ne_empty _ (List.append_eq_nil_iff.mp hrest).1

/-- Past its banner, or without one, the standard output grows by what each read holds. -/
theorem toList_startReader {state : BackgroundShellState} (h : ¬state.Bare)
    (reads : List ReadChunk) :
    (startReader .stdout reads state).stdout.toList = state.stdout.toList ++ readTexts reads := by
  induction reads generalizing state with
  | nil => exact (List.append_nil _).symm
  | cons read others ih =>
      show (startReader .stdout others (state.push .stdout _)).stdout.toList = _
      rw [ih not_bare_push, toList_push, if_neg h, List.append_assoc]
      rfl

/-- The standard output of a task whose stream is drained. -/
theorem stdout_of_drained (sandbox : EffectiveSandboxRequest) (reads : List ReadChunk) :
    (startReader .stdout reads (.new sandbox)).stdout.toList =
      (if sandbox.mode.isUnrestricted = true ∨ reads = [] then [] else sandbox.banner.toList) ++
        readTexts reads := by
  cases reads with
  | nil => rw [if_pos (.inr rfl)]; rfl
  | cons read others =>
      show (startReader .stdout others (.push _ .stdout _)).stdout.toList = _
      have hempty : (BackgroundShellState.new sandbox).stdout.toList = [] := String.toList_empty
      rw [toList_startReader not_bare_push, toList_push, hempty, List.nil_append, List.append_assoc]
      have hbare : (BackgroundShellState.new sandbox).Bare ↔
          ¬(sandbox.mode.isUnrestricted = true ∨ read :: others = []) := by
        simp [BackgroundShellState.Bare, BackgroundShellState.new]
      by_cases h : sandbox.mode.isUnrestricted = true ∨ read :: others = []
      · rw [if_pos h, if_neg fun hb => hbare.mp hb h]
        rfl
      · rw [if_neg h, if_pos (hbare.mpr h)]
        rfl

theorem readTexts_eq_iff (reads : List ReadChunk) :
    readTexts reads = Bytes.decode none (bytesOf reads) ↔
      ∀ before after, reads = before ++ after →
        ¬Bytes.Severed none (bytesOf before) (bytesOf after) := by
  have hne : ∀ piece ∈ reads.map ReadChunk.bytes, piece ≠ [] := by
    intro piece h
    obtain ⟨read, -, rfl⟩ := List.mem_map.mp h
    exact read.ne_nil
  refine (Bytes.flatMap_decode_eq_iff _ hne).trans ⟨fun h before after heq => ?_, ?_⟩
  · exact h _ _ (heq ▸ List.map_append)
  · intro h before after heq
    obtain ⟨before, after, rfl, rfl, rfl⟩ := List.map_eq_append_iff.mp heq
    exact h before after rfl

/-- **Background and foreground agree** exactly when no banner is missing and no character is cut in
two. -/
theorem background_agrees_iff (sandbox : EffectiveSandboxRequest) (reads : List ReadChunk) :
    (startReader .stdout reads (.new sandbox)).stdout =
        decorateStdout sandbox (Bytes.fromUtf8Lossy (bytesOf reads)) ↔
      (sandbox.mode.isUnrestricted = true ∨ bytesOf reads ≠ []) ∧
        ∀ before after, reads = before ++ after →
          ¬Bytes.Severed none (bytesOf before) (bytesOf after) := by
  rw [← readTexts_eq_iff, ← String.toList_inj, stdout_of_drained, decorateStdout, Ne,
    bytesOf_eq_nil_iff]
  by_cases hmode : sandbox.mode.isUnrestricted = true
  · rw [if_pos (.inl hmode), if_pos hmode, Bytes.fromUtf8Lossy, String.toList_ofList,
      List.nil_append]
    exact ⟨fun h => ⟨.inl hmode, h⟩, fun h => h.2⟩
  · rw [if_neg hmode, String.toList_append, Bytes.fromUtf8Lossy, String.toList_ofList]
    by_cases hreads : reads = []
    · -- the foreground shows the banner of a command that prints nothing
      rw [if_pos (.inr hreads), hreads]
      refine iff_of_false (fun h => ?_) fun h => h.1.elim hmode (absurd rfl)
      exact banner_ne_empty sandbox (List.append_eq_nil_iff.mp h.symm).1
    · rw [if_neg (not_or_intro hmode hreads), List.append_cancel_left_eq]
      exact ⟨fun h => ⟨.inr hreads, h⟩, fun h => h.2⟩

/-- The two bytes of one character, each in a read of its own. -/
def splitReads : List ReadChunk :=
  [⟨[0xC3], by decide, by decide⟩, ⟨[0xA9], by decide, by decide⟩]

/-- A character that comes in two reads is lost in the background. -/
theorem background_differs :
    ¬∀ (sandbox : EffectiveSandboxRequest) (reads : List ReadChunk),
      (startReader .stdout reads (.new sandbox)).stdout =
        decorateStdout sandbox (Bytes.fromUtf8Lossy (bytesOf reads)) := by
  intro h
  have hsplit := h ⟨.dangerFullAccess, .enabled, .none, none⟩ splitReads
  revert hsplit
  decide +kernel

/-- The background shows no banner where the command prints nothing. -/
example : let sandbox : EffectiveSandboxRequest := ⟨.readOnly, .disabled, .linuxHelper, none⟩
    (startReader .stdout [] (.new sandbox)).stdout ≠
      decorateStdout sandbox (Bytes.fromUtf8Lossy (bytesOf [])) := by
  decide +kernel

end Liz
