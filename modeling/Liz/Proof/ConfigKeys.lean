import Liz.Base.Runs
import Liz.Cli.ConfigPanel
import Liz.Proof.ConfigEdits
import Liz.Proof.DraftRoundTrip

/-!
# The keys of the configuration panel

Every character of an API key is marked with the provider it was loaded for or typed under. A key
that is visible is kept under the name that the provider field shows after each keystroke, so a
keystroke in the provider field puts it under a name it does not belong to.
-/

namespace Liz.Cli

/-- A text whose characters are marked with the provider they belong to. -/
abbrev MarkedText : Type := List (Char × String)

namespace MarkedText

def text (marked : MarkedText) : List Char := marked.map Prod.fst

def ofProvider (provider text : String) : MarkedText := text.toList.map fun c => (c, provider)

def trim (marked : MarkedText) : MarkedText :=
  ((marked.dropWhile fun c => Text.isWhitespace c.1).reverse.dropWhile
    fun c => Text.isWhitespace c.1).reverse

@[simp] theorem text_ofProvider (provider text : String) :
    (ofProvider provider text).text = text.toList := by
  simp [ofProvider, MarkedText.text, Function.comp_def]

theorem text_dropWhile (marked : MarkedText) :
    MarkedText.text (marked.dropWhile fun c => Text.isWhitespace c.1) =
      marked.text.dropWhile Text.isWhitespace := by
  simp only [MarkedText.text, List.dropWhile_map]
  rfl

theorem text_trim (marked : MarkedText) {text : String} (h : marked.text = text.toList) :
    marked.trim.text = (Text.trim text).toList := by
  have hreverse : ∀ other : MarkedText, MarkedText.text other.reverse = other.text.reverse :=
    fun other => List.map_reverse
  rw [trim, hreverse, text_dropWhile, hreverse, text_dropWhile, h, Text.trim, String.toList_ofList]

theorem mem_of_mem_trim {marked : MarkedText} {c : Char × String} (h : c ∈ marked.trim) :
    c ∈ marked := by
  have hback := (List.dropWhile_sublist _).subset (List.mem_reverse.mp h)
  exact (List.dropWhile_sublist _).subset (List.mem_reverse.mp hback)

theorem owner_of_mem_ofProvider {provider text : String} {c : Char × String}
    (h : c ∈ ofProvider provider text) : c.2 = provider := by
  obtain ⟨_, -, rfl⟩ := List.mem_map.mp h
  rfl

theorem eq_nil_iff {marked : MarkedText} {text : String} (h : marked.text = text.toList) :
    marked = [] ↔ text.isEmpty := by
  rw [String.isEmpty_iff, ← String.toList_eq_nil_iff, ← h]
  exact List.map_eq_nil_iff.symm

end MarkedText

/-- A session with the marks of its keys: of the visible one, of those that are kept for each
provider, and of those in the file. -/
structure MarkedSession where
  session : ConfigSession
  visible : MarkedText
  kept : String → MarkedText
  stored : String → MarkedText

/-- The key that a configuration has for a provider. -/
def storedKey (config : LizConfigFile) (provider : String) : String :=
  ((config.providers.lookup provider).bind LizProviderConfig.apiKey).getD ""

/-- The keys of a configuration belong to the providers they stand under. -/
def marksOf (config : LizConfigFile) (provider : String) : MarkedText :=
  .ofProvider provider (storedKey config provider)

namespace MarkedSession

/-- A client that has just been started, with any file. -/
def fresh (file : LizConfigFile) : MarkedSession :=
  { session := { panel := ConfigPanel.default, file := file }
    visible := []
    kept := fun _ => []
    stored := marksOf file }

def providerId (marked : MarkedSession) : String := marked.session.panel.providerId

/-- What is kept once the visible key is kept under the name. -/
def keptUnder (marked : MarkedSession) (providerId : String) (visible : MarkedText) :
    String → MarkedText :=
  if providerId.isEmpty then marked.kept else Function.update marked.kept providerId visible

/-- The marks after the focused field has got a new value, the visible key being marked so. -/
def edited (marked : MarkedSession) (session : ConfigSession) (visible : MarkedText) :
    MarkedSession :=
  { marked with
    session := session
    visible := visible
    kept := marked.keptUnder session.panel.providerId visible }

def step (marked : MarkedSession) (step : ConfigStep) : MarkedSession :=
  let session := marked.session.step step
  match step with
  | .openPanel _ _ =>
      { marked with
        session := session
        visible := marksOf marked.session.file session.panel.providerId
        kept := marksOf marked.session.file }
  | .focusPrevious | .focusNext => { marked with session := session }
  | .pushChar value =>
      marked.edited session <|
        if marked.session.panel.focus = .apiKey then marked.visible ++ [(value, marked.providerId)]
        else marked.visible
  | .popChar =>
      if marked.session.panel.focusedValue.isEmpty then marked
      else
        marked.edited session <|
          if marked.session.panel.focus = .apiKey then marked.visible.dropLast else marked.visible
  | .cycle _ =>
      let kept := marked.keptUnder marked.providerId marked.visible
      { marked with
        session := session, visible := kept session.panel.providerId, kept := kept }
  | .save =>
      { marked with
        session := session
        stored :=
          if (Text.trim marked.providerId).isEmpty || marked.visible.trim.isEmpty then marked.stored
          else Function.update marked.stored (Text.trim marked.providerId) marked.visible.trim }
  | .rewritten config => { marked with session := session, stored := marksOf config }

/-- The marks are marks of the keys that are there. -/
structure Tied (marked : MarkedSession) : Prop where
  visible : marked.visible.text = marked.session.panel.apiKey.toList
  kept : ∀ provider,
    (marked.kept provider).text = (marked.session.panel.keptKey provider).toList
  stored : ∀ provider,
    (marked.stored provider).text = (storedKey marked.session.file provider).toList

/-- A key is kept only for its own provider, and is in the file only under its own provider, whose
name is trimmed there. -/
structure Confined (marked : MarkedSession) : Prop where
  kept : ∀ provider, ∀ c ∈ marked.kept provider, c.2 = provider
  stored : ∀ provider, ∀ c ∈ marked.stored provider, c.2 = provider ∨ Text.trim c.2 = provider

/-- What is visible under a name is kept under it. -/
def Shown (marked : MarkedSession) : Prop :=
  marked.providerId ≠ "" → marked.kept marked.providerId = marked.visible

/-- The name that a keystroke in the provider field makes, if it makes one. -/
def newName (marked : MarkedSession) : ConfigStep → Option String
  | .pushChar value =>
      if marked.session.panel.focus = .provider then some (marked.providerId.push value) else none
  | .popChar =>
      if marked.session.panel.focus = .provider ∧ ¬ marked.providerId.isEmpty then
        some (String.ofList marked.providerId.toList.dropLast)
      else none
  | _ => none

/-- A keystroke in the provider field makes an empty name, or one that all of the visible key
belongs to. -/
def OwnName (marked : MarkedSession) (step : ConfigStep) : Prop :=
  ∀ name, marked.newName step = some name → name ≠ "" → ∀ c ∈ marked.visible, c.2 = name

/-! ### The marks are those of the keys -/

theorem text_marksOf (config : LizConfigFile) (provider : String) :
    (marksOf config provider).text = (storedKey config provider).toList :=
  MarkedText.text_ofProvider provider (storedKey config provider)

theorem keptKey_loadFrom (config : LizConfigFile) (authProfiles : List ProviderAuthProfile)
    (fallbackProvider : Option String) (provider : String) :
    (ConfigPanel.loadFrom config authProfiles fallbackProvider).keptKey provider =
      storedKey config provider := by
  show (((ConfigPanel.overridesOf config).lookup provider).map _).getD "" = _
  rw [ConfigPanel.overridesOf, Tables.lookup_mapValues, storedKey]
  cases config.providers.lookup provider <;> rfl

theorem apiKey_loadFrom (config : LizConfigFile) (authProfiles : List ProviderAuthProfile)
    (fallbackProvider : Option String) :
    let panel := ConfigPanel.loadFrom config authProfiles fallbackProvider
    panel.apiKey = storedKey config panel.providerId := by
  intro panel
  rw [← keptKey_loadFrom config authProfiles fallbackProvider]
  exact ConfigPanel.apiKey_restoreVisibleFields _

theorem storedKey_eq (config : LizConfigFile) (provider : String) :
    storedKey config provider = (storedValues config provider).get .apiKey := by
  rw [storedValues_eq, storedKey]
  cases config.providers.lookup provider <;> rfl

/-- A saved draft changes the key of its own provider only, and only to its own key. -/
theorem storedKey_applyTo (draft : ConfigDraft) (config : LizConfigFile) (provider : String) :
    storedKey (draft.applyTo config) provider =
      if provider = Text.trim draft.providerId ∧ ¬ (Text.trim draft.apiKey).isEmpty then
        Text.trim draft.apiKey
      else storedKey config provider := by
  rw [storedKey_eq, storedKey_eq, storedValues_applyTo]
  simp only [ConfigDraft.get, String.isEmpty_iff]
  rfl

theorem text_update {marks : String → MarkedText} {keys : String → String}
    (h : ∀ provider, (marks provider).text = (keys provider).toList) {providerId : String}
    {visible : MarkedText} {apiKey : String} (hvisible : visible.text = apiKey.toList)
    (provider : String) :
    MarkedText.text (Function.update marks providerId visible provider) =
      (Function.update keys providerId apiKey provider).toList := by
  by_cases hprovider : provider = providerId
  · rw [hprovider, Function.update_self, Function.update_self, hvisible]
  · rw [Function.update_of_ne hprovider, Function.update_of_ne hprovider, h provider]

theorem Tied.keptUnder {marked : MarkedSession} (h : marked.Tied) {providerId : String}
    {visible : MarkedText} {apiKey : String} (hvisible : visible.text = apiKey.toList)
    (provider : String) :
    (marked.keptUnder providerId visible provider).text =
      (if providerId.isEmpty then marked.session.panel.keptKey provider
        else Function.update marked.session.panel.keptKey providerId apiKey provider).toList := by
  rw [MarkedSession.keptUnder]
  split
  · exact h.kept provider
  · exact text_update h.kept hvisible provider

theorem kept_edited (marked : MarkedSession) (session : ConfigSession) (visible : MarkedText) :
    (marked.edited session visible).kept = marked.keptUnder session.panel.providerId visible :=
  rfl

theorem session_edited (marked : MarkedSession) (session : ConfigSession) (visible : MarkedText) :
    (marked.edited session visible).session = session := rfl

theorem Tied.edited {marked : MarkedSession} (h : marked.Tied) {value : String}
    {visible : MarkedText}
    (hvisible : visible.text = (marked.session.panel.edit value).apiKey.toList) :
    (marked.edited { marked.session with panel := marked.session.panel.edit value }
      visible).Tied := by
  refine ⟨hvisible, fun provider => ?_, h.stored⟩
  rw [kept_edited, session_edited, h.keptUnder hvisible, ConfigPanel.keptKey_edit]

theorem tied_fresh (file : LizConfigFile) : (fresh file).Tied :=
  ⟨rfl, fun _ => rfl, text_marksOf file⟩

/-- A keystroke marks the key as it changes it. -/
theorem Tied.pushChar {marked : MarkedSession} (h : marked.Tied) (value : Char) :
    (marked.step (.pushChar value)).Tied := by
  apply h.edited
  rw [ConfigPanel.apiKey_edit]
  split
  · rename_i hfocus
    rw [MarkedText.text, List.map_append, ConfigPanel.focusedValue, hfocus, String.toList_push,
      ← h.visible]
    rfl
  · exact h.visible

theorem step_popChar_empty {marked : MarkedSession}
    (h : marked.session.panel.focusedValue.isEmpty = true) : marked.step .popChar = marked :=
  if_pos h

theorem step_popChar {marked : MarkedSession}
    (h : marked.session.panel.focusedValue.isEmpty = false) :
    marked.step .popChar =
      marked.edited
        { marked.session with
          panel := marked.session.panel.edit
            (String.ofList marked.session.panel.focusedValue.toList.dropLast) }
        (if marked.session.panel.focus = .apiKey then marked.visible.dropLast
          else marked.visible) := by
  rw [MarkedSession.step, h, ConfigSession.step, ConfigPanel.popChar, h]
  rfl

theorem Tied.popChar {marked : MarkedSession} (h : marked.Tied) :
    (marked.step .popChar).Tied := by
  cases hempty : marked.session.panel.focusedValue.isEmpty with
  | true =>
      rw [step_popChar_empty hempty]
      exact h
  | false =>
      rw [step_popChar hempty]
      apply h.edited
      rw [ConfigPanel.apiKey_edit]
      split
      · rename_i hfocus
        rw [MarkedText.text, List.map_dropLast, String.toList_ofList, ConfigPanel.focusedValue,
          hfocus, ← h.visible]
        rfl
      · exact h.visible

theorem Tied.cycle {marked : MarkedSession} (h : marked.Tied) (backwards : Bool) :
    (marked.step (.cycle backwards)).Tied := by
  let panel := { marked.session.panel with
    knownProviders :=
      if marked.session.panel.knownProviders.isEmpty then [marked.session.panel.providerId]
      else marked.session.panel.knownProviders }
  let chosen := { panel.persistVisibleFields with providerId := panel.nextProvider backwards }
  have hkept : ∀ provider,
      (marked.keptUnder marked.providerId marked.visible provider).text =
        (chosen.keptKey provider).toList := by
    intro provider
    rw [h.keptUnder h.visible provider]
    exact congrArg String.toList (panel.keptKey_persistVisibleFields provider).symm
  have hkey : (marked.session.panel.cycleProvider backwards).apiKey =
      chosen.keptKey chosen.providerId := ConfigPanel.apiKey_restoreVisibleFields chosen
  refine ⟨?_, hkept, h.stored⟩
  show _ = (marked.session.panel.cycleProvider backwards).apiKey.toList
  rw [hkey]
  exact hkept chosen.providerId

theorem storedKey_save (session : ConfigSession) (provider : String) :
    storedKey session.save.file provider =
      if (Text.trim session.panel.providerId).isEmpty || (Text.trim session.panel.apiKey).isEmpty
      then storedKey session.file provider
      else
        Function.update (storedKey session.file) (Text.trim session.panel.providerId)
          (Text.trim session.panel.apiKey) provider := by
  rw [ConfigSession.save]
  cases (Text.trim session.panel.providerId).isEmpty with
  | true => rw [if_pos rfl, Bool.true_or, if_pos rfl]
  | false =>
      rw [if_neg Bool.false_ne_true, Bool.false_or, storedKey_applyTo]
      generalize Text.trim session.panel.apiKey = apiKey
      generalize Text.trim session.panel.providerId = providerId
      by_cases hprovider : provider = providerId
      · subst hprovider
        rw [Function.update_self]
        cases apiKey.isEmpty <;> simp
      · rw [Function.update_of_ne hprovider, if_neg fun h => hprovider h.1, ite_self]

theorem step_save (marked : MarkedSession) :
    marked.step .save =
      { marked with
        session := marked.session.save
        stored :=
          if (Text.trim marked.session.panel.providerId).isEmpty || marked.visible.trim.isEmpty then
            marked.stored
          else
            Function.update marked.stored (Text.trim marked.session.panel.providerId)
              marked.visible.trim } :=
  rfl

theorem Tied.save {marked : MarkedSession} (h : marked.Tied) : (marked.step .save).Tied := by
  have hpanel : ∀ session : ConfigSession, session.save.panel.apiKey = session.panel.apiKey ∧
      session.save.panel.keptKey = session.panel.keptKey := by
    intro session
    rw [ConfigSession.save]
    split <;> exact ⟨rfl, rfl⟩
  obtain ⟨hvisible, hkept⟩ := hpanel marked.session
  rw [step_save]
  constructor
  · dsimp only
    rw [hvisible]
    exact h.visible
  · intro provider
    dsimp only
    rw [hkept]
    exact h.kept provider
  · intro provider
    dsimp only
    have htext := MarkedText.text_trim _ h.visible
    have hblank : marked.visible.trim.isEmpty =
        (Text.trim marked.session.panel.apiKey).isEmpty := by
      rw [Bool.eq_iff_iff, List.isEmpty_iff]
      exact MarkedText.eq_nil_iff htext
    rw [storedKey_save, hblank]
    split
    · exact h.stored provider
    · exact text_update h.stored htext provider

theorem Tied.step {marked : MarkedSession} (h : marked.Tied) (step : ConfigStep) :
    (marked.step step).Tied := by
  cases step with
  | openPanel authProfiles fallbackProvider =>
      refine ⟨?_, fun provider => ?_, h.stored⟩
      · exact (text_marksOf _ _).trans
          (congrArg String.toList (apiKey_loadFrom _ authProfiles fallbackProvider).symm)
      · exact (text_marksOf _ _).trans
          (congrArg String.toList (keptKey_loadFrom _ authProfiles fallbackProvider _).symm)
  | focusPrevious => exact ⟨h.visible, h.kept, h.stored⟩
  | focusNext => exact ⟨h.visible, h.kept, h.stored⟩
  | pushChar value => exact h.pushChar value
  | popChar => exact h.popChar
  | cycle backwards => exact h.cycle backwards
  | save => exact h.save
  | rewritten config => exact ⟨h.visible, h.kept, text_marksOf config⟩

/-! ### What a step does to the owners -/

theorem keptUnder_self (marked : MarkedSession) {providerId : String} (h : providerId ≠ "")
    (visible : MarkedText) : marked.keptUnder providerId visible providerId = visible := by
  rw [MarkedSession.keptUnder, if_neg fun hempty => h (String.isEmpty_iff.mp hempty),
    Function.update_self]

theorem Shown.edited (marked : MarkedSession) (session : ConfigSession) (visible : MarkedText) :
    (marked.edited session visible).Shown := fun h => keptUnder_self marked h visible

theorem Shown.step {marked : MarkedSession} (h : marked.Shown) (step : ConfigStep) :
    (marked.step step).Shown := by
  cases step with
  | openPanel authProfiles fallbackProvider => exact fun _ => rfl
  | focusPrevious => exact h
  | focusNext => exact h
  | pushChar value => exact Shown.edited marked _ _
  | popChar =>
      rw [MarkedSession.step]
      split
      · exact h
      · exact Shown.edited marked _ _
  | cycle backwards => exact fun _ => rfl
  | save =>
      rw [step_save]
      have hpanel : marked.session.save.panel.providerId = marked.session.panel.providerId := by
        rw [ConfigSession.save]
        split <;> rfl
      rw [Shown, providerId, hpanel]
      exact h
  | rewritten config => exact h

/-- A visible key with a name is its provider's. -/
theorem Confined.visible {marked : MarkedSession} (h : marked.Confined) (hshown : marked.Shown)
    (hname : marked.providerId ≠ "") : ∀ c ∈ marked.visible, c.2 = marked.providerId := by
  rw [← hshown hname]
  exact h.kept marked.providerId

/-- What is kept stays with its provider when a key is kept under the name that owns it. -/
theorem Confined.keptUnder {marked : MarkedSession} (h : marked.Confined) {providerId : String}
    {visible : MarkedText} (hvisible : providerId ≠ "" → ∀ c ∈ visible, c.2 = providerId)
    {provider : String} {c : Char × String} (hc : c ∈ marked.keptUnder providerId visible provider) :
    c.2 = provider := by
  rw [MarkedSession.keptUnder] at hc
  split at hc
  · exact h.kept provider c hc
  · rename_i hname
    by_cases hprovider : provider = providerId
    · rw [hprovider, Function.update_self] at hc
      rw [hprovider]
      exact hvisible (fun hempty => hname (String.isEmpty_iff.mpr hempty)) c hc
    · rw [Function.update_of_ne hprovider] at hc
      exact h.kept provider c hc

/-- A keystroke keeps the keys apart if and only if all of the key that is then visible belongs to
the name that is then shown, if there is one. -/
theorem confined_edited_iff {marked : MarkedSession} (h : marked.Confined) (session : ConfigSession)
    (visible : MarkedText) :
    (marked.edited session visible).Confined ↔
      (session.panel.providerId ≠ "" → ∀ c ∈ visible, c.2 = session.panel.providerId) := by
  constructor
  · intro hedited hname c hc
    apply hedited.kept session.panel.providerId c
    show c ∈ marked.keptUnder session.panel.providerId visible session.panel.providerId
    rw [keptUnder_self marked hname]
    exact hc
  · exact fun hvisible => ⟨fun _ _ hc => h.keptUnder hvisible hc, h.stored⟩

theorem confined_marksOf (config : LizConfigFile) (provider : String) :
    ∀ c ∈ marksOf config provider, c.2 = provider :=
  fun _ hc => MarkedText.owner_of_mem_ofProvider hc

theorem Confined.save {marked : MarkedSession} (h : marked.Confined) (hshown : marked.Shown) :
    (marked.step .save).Confined := by
  rw [step_save]
  refine ⟨h.kept, fun provider c hc => ?_⟩
  split at hc
  · exact h.stored provider c hc
  · rename_i hnamed
    dsimp only at hc
    by_cases hprovider : provider = Text.trim marked.session.panel.providerId
    · rw [hprovider, Function.update_self] at hc
      have hname : marked.providerId ≠ "" := by
        intro hempty
        have hblank : (Text.trim marked.session.panel.providerId).isEmpty := by
          rw [show marked.session.panel.providerId = "" from hempty]
          decide
        exact hnamed (by rw [hblank, Bool.true_or])
      have howner := h.visible hshown hname c (MarkedText.mem_of_mem_trim hc)
      right
      rw [hprovider, howner]
      rfl
    · rw [Function.update_of_ne hprovider] at hc
      exact h.stored provider c hc

/-- What a keystroke in another field than the provider's does to the visible key is done under the
provider's name. -/
theorem Confined.ownKey {marked : MarkedSession} (h : marked.Confined) (hshown : marked.Shown)
    (hname : marked.providerId ≠ "") {visible : MarkedText}
    (hvisible : ∀ c ∈ visible, c ∈ marked.visible ∨ c.2 = marked.providerId) :
    ∀ c ∈ visible, c.2 = marked.providerId := by
  intro c hc
  rcases hvisible c hc with hold | hown
  · exact h.visible hshown hname c hold
  · exact hown

theorem confined_keystroke_iff {marked : MarkedSession} (hshown : marked.Shown)
    (h : marked.Confined) {step : ConfigStep} {value : String} {visible : MarkedText}
    (hvisible : ∀ c ∈ visible, c ∈ marked.visible ∨ c.2 = marked.providerId)
    (hsame : marked.session.panel.focus = .provider → visible = marked.visible)
    (hname : marked.newName step =
      if marked.session.panel.focus = .provider then some value else none) :
    (marked.edited { marked.session with panel := marked.session.panel.edit value }
      visible).Confined ↔ marked.OwnName step := by
  rw [confined_edited_iff h, ConfigPanel.providerId_edit]
  by_cases hfocus : marked.session.panel.focus = .provider
  · rw [if_pos hfocus] at hname ⊢
    rw [hsame hfocus]
    constructor
    · intro howned name hsome
      rw [Option.some.inj (hname.symm.trans hsome)] at howned
      exact howned
    · exact fun howned => howned value hname
  · rw [if_neg hfocus] at hname ⊢
    refine iff_of_true (fun hnamed => h.ownKey hshown hnamed hvisible) fun name hsome => ?_
    rw [hname] at hsome
    cases hsome

/-- Where the keys are kept apart, a step keeps them apart if and only if the name it makes is the
visible key's own. -/
theorem step_confined_iff {marked : MarkedSession} (hshown : marked.Shown) (h : marked.Confined)
    (step : ConfigStep) : (marked.step step).Confined ↔ marked.OwnName step := by
  have hnone : marked.newName step = none → marked.OwnName step := by
    intro hname name hsome
    rw [hname] at hsome
    cases hsome
  cases step with
  | openPanel authProfiles fallbackProvider =>
      exact iff_of_true ⟨confined_marksOf _, h.stored⟩ (hnone rfl)
  | focusPrevious => exact iff_of_true ⟨h.kept, h.stored⟩ (hnone rfl)
  | focusNext => exact iff_of_true ⟨h.kept, h.stored⟩ (hnone rfl)
  | pushChar value =>
      apply confined_keystroke_iff hshown h
      · intro c hc
        split at hc
        · rcases List.mem_append.mp hc with hold | hnew
          · exact .inl hold
          · exact .inr (congrArg Prod.snd (List.mem_singleton.mp hnew))
        · exact .inl hc
      · intro hfocus
        rw [hfocus, if_neg (by simp)]
      · rw [newName, ConfigPanel.focusedValue]
        split
        · rename_i hfocus
          rw [hfocus]
          rfl
        · rfl
  | popChar =>
      cases hempty : marked.session.panel.focusedValue.isEmpty with
      | true =>
          rw [step_popChar_empty hempty]
          refine iff_of_true h (hnone ?_)
          rw [newName, if_neg]
          rintro ⟨hfocus, hsome⟩
          rw [ConfigPanel.focusedValue, hfocus] at hempty
          exact hsome hempty
      | false =>
          rw [step_popChar hempty]
          apply confined_keystroke_iff hshown h
          · intro c hc
            split at hc
            · exact .inl (List.dropLast_subset _ hc)
            · exact .inl hc
          · intro hfocus
            rw [hfocus, if_neg (by simp)]
          · rw [newName]
            by_cases hfocus : marked.session.panel.focus = .provider
            · have hvalue : marked.session.panel.focusedValue = marked.providerId := by
                rw [ConfigPanel.focusedValue, hfocus]
                rfl
              rw [hvalue] at hempty ⊢
              simp [hfocus, hempty]
            · simp [hfocus]
  | cycle backwards =>
      refine iff_of_true ⟨fun provider c hc => ?_, h.stored⟩ (hnone rfl)
      exact h.keptUnder (h.visible hshown) hc
  | save => exact iff_of_true (h.save hshown) (hnone rfl)
  | rewritten config =>
      exact iff_of_true ⟨h.kept, fun provider c hc => .inl (confined_marksOf _ provider c hc)⟩
        (hnone rfl)

/-- The marks are those of the keys in every state, and every key is kept and stored for its own
provider only if and only if every keystroke in the provider field makes an empty name, or one that
all of the visible key belongs to. -/
theorem keys_confined_iff (file : LizConfigFile) (steps : List ConfigStep) :
    (∀ marked ∈ Runs.states MarkedSession.step (fresh file) steps, marked.Tied) ∧
      ((∀ marked ∈ Runs.states MarkedSession.step (fresh file) steps, marked.Confined) ↔
        Runs.AllSteps MarkedSession.step OwnName (fresh file) steps) := by
  have htied : ∀ marked step, Tied marked → True → (marked.step step).Tied :=
    fun _ step h _ => h.step step
  have hconfined : (fresh file).Confined :=
    ⟨fun _ _ hc => absurd hc List.not_mem_nil,
      fun provider c hc => .inl (confined_marksOf file provider c hc)⟩
  have hiff : ∀ marked step, Shown marked → Confined marked → True →
      ((marked.step step).Confined ↔ marked.OwnName step) :=
    fun _ step hshown h _ => step_confined_iff hshown h step
  constructor
  · exact Runs.invariant htied (tied_fresh file) (Runs.allSteps_true _ steps)
  · exact Runs.invariant_iff (fun _ step h => h.step step) hiff (fun _ => rfl) hconfined
      (Runs.allSteps_true _ steps)

/-- A key is typed under the first provider, and a letter more in the provider field puts it under
another name, in the panel and, once it is saved, in the file. -/
theorem key_follows_name :
    let typed : List ConfigStep :=
      [.focusNext, .focusNext, .pushChar 'k', .focusPrevious, .focusPrevious, .pushChar 'x', .save]
    let after := Runs.final MarkedSession.step (fresh LizConfigFile.default) typed
    after.kept "openaix" = [('k', "openai")] ∧ after.stored "openaix" = [('k', "openai")] ∧
      after.session.panel.keptKey "openaix" = "k" ∧
      storedKey after.session.file "openaix" = "k" ∧
      ¬ ∀ marked ∈ Runs.states MarkedSession.step (fresh LizConfigFile.default) typed,
        marked.Confined := by
  intro typed after
  have hkept : after.kept "openaix" = [('k', "openai")] := by decide +kernel
  refine ⟨hkept, by decide +kernel, by decide +kernel, by decide +kernel, fun hall => ?_⟩
  have hconfined := hall after (Runs.final_mem_states _ typed)
  have howner : "openai" = "openaix" :=
    hconfined.kept "openaix" ('k', "openai") (by rw [hkept]; exact List.mem_singleton_self _)
  exact absurd howner (by decide)

end MarkedSession

end Liz.Cli
