import Liz.Base.Bytes
import Liz.Cli.Renderer

/-!
# The live region on the screen

The renderer counts one row for each line of the live region and finds the composer by the first
segment that looks like its own. Both are right exactly when every text that is shown stays on one
line: wrapping does not break a long word, the two halves of the status bar are cut one by one, and
line breaks are taken out of the input only.
-/

namespace Liz

/-! ### Widths of texts -/

@[simp] theorem displayWidth_append (text more : String) :
    displayWidth (text ++ more) = displayWidth text + displayWidth more := by
  rw [displayWidth, String.toList_append, Cells.width_append, displayWidth, displayWidth]

theorem toList_truncate (text : String) (width : Nat) :
    (truncate text width).toList = Cells.cut charWidth '…' width text.toList := String.toList_ofList

theorem displayWidth_truncate_le (text : String) (width : Nat) :
    displayWidth (truncate text width) ≤ width := by
  rw [displayWidth, toList_truncate]
  exact Cells.width_cut_le (by decide) width text.toList

theorem displayWidth_truncate_zero (text : String) : displayWidth (truncate text 0) = 0 :=
  Nat.le_zero.mp (displayWidth_truncate_le text 0)

theorem truncate_of_fits {text : String} {width : Nat} (h : displayWidth text ≤ width) :
    truncate text width = text := by
  have hcells : Cells.width charWidth text.toList ≤ width := h
  rw [truncate, Cells.cut, if_pos hcells, String.ofList_toList]

theorem displayWidth_repeatChar {c : Char} (h : charWidth c = 1) (count : Nat) :
    displayWidth (repeatChar c count) = count := by
  rw [displayWidth, repeatChar, String.toList_ofList, Cells.width_replicate, h, Nat.mul_one]

/-- A line break stands in what is left of the text in the room. -/
def Breaks (room : Nat) (text : String) : Prop := Cells.Reaches charWidth room '\n' text.toList

theorem breaks_iff {room : Nat} {text : String} :
    Breaks room text ↔ '\n' ∈ (truncate text room).toList := by
  rw [toList_truncate]
  exact (Cells.mem_cut_iff (by decide)).symm

/-- A character takes no more cells than bytes. -/
theorem displayWidth_le_utf8ByteSize (text : String) : displayWidth text ≤ text.utf8ByteSize := by
  have hbytes : ∀ chars : List Char,
      Cells.width charWidth chars ≤ (chars.flatMap String.utf8EncodeChar).length := by
    intro chars
    induction chars with
    | nil => exact Nat.le_refl 0
    | cons c rest ih =>
        have hc : charWidth c ≤ c.utf8Size := by
          have hpos := c.utf8Size_pos
          rw [charWidth]
          split
          · exact hpos
          next hwide =>
            have hone : c.utf8Size ≠ 1 := by
              rw [Ne, Char.utf8Size_eq_one_iff, UInt32.le_iff_toNat_le]
              intro hascii
              exact hwide (by simp [Nat.lt_succ_of_le (show c.toNat ≤ 127 from hascii)])
            omega
        rw [Cells.width, List.flatMap_cons, List.length_append, String.length_utf8EncodeChar]
        exact Nat.add_le_add hc ih
  rw [← String.size_toByteArray, ← Bytes.toByteArray_ofText, List.size_toByteArray]
  exact hbytes text.toList

/-! ### Lines -/

namespace ScreenLine

def chars (line : ScreenLine) : List Char := line.flatMap String.toList

/-- The line takes one row. -/
def Fits (width : Nat) (line : ScreenLine) : Prop :=
  '\n' ∉ line.chars ∧ Cells.width charWidth line.chars ≤ width

/-- A segment starts like the one of the composer. -/
def prompts (line : ScreenLine) : Bool := line.any fun segment => "❯ ".toList.isPrefixOf segment.toList

/-- The line takes one row, and is not taken for the composer's. -/
def Clear (width : Nat) (line : ScreenLine) : Prop := line.Fits width ∧ line.prompts = false

theorem fits_singleton {width : Nat} {text : String} :
    Fits width [text] ↔ '\n' ∉ text.toList ∧ displayWidth text ≤ width := by
  rw [Fits, chars, List.flatMap_singleton, displayWidth]

theorem prompts_singleton (text : String) :
    prompts [text] = "❯ ".toList.isPrefixOf text.toList := by
  rw [prompts, List.any_cons, List.any_nil, Bool.or_false]

theorem clear_nil (width : Nat) : Clear width [] := ⟨⟨List.not_mem_nil, Nat.zero_le width⟩, rfl⟩

end ScreenLine

/-- A text of the program: it is no prompt, whatever stands behind it, and has no line break. -/
def Plain (text : String) : Bool :=
  !text.toList.contains '\n' && text.toList.head?.any (· != '❯')

theorem newline_notMem_of_plain {text : String} (h : Plain text = true) : '\n' ∉ text.toList := by
  rw [Plain, Bool.and_eq_true, Bool.not_eq_true', List.contains_eq_mem, decide_eq_false_iff_not] at h
  exact h.1

theorem prompts_of_plain {text : String} (h : Plain text = true) (more : String) :
    "❯ ".toList.isPrefixOf (text ++ more).toList = false := by
  rw [Plain, Bool.and_eq_true] at h
  rw [String.toList_append]
  cases htext : text.toList with
  | nil =>
      rw [htext] at h
      exact absurd h.2 Bool.false_ne_true
  | cons c rest =>
      rw [htext] at h
      have hc : c ≠ '❯' := by simpa using h.2
      simp [List.isPrefixOf, Ne.symm hc]

/-- A label of the program with a value behind it. -/
theorem fits_labelled {width : Nat} {label : String} (h : Plain label = true) (value : String) :
    ScreenLine.Fits width [label ++ value] ↔
      '\n' ∉ value.toList ∧ displayWidth label + displayWidth value ≤ width := by
  rw [ScreenLine.fits_singleton, String.toList_append, List.mem_append,
    or_iff_right (newline_notMem_of_plain h), displayWidth_append]

theorem clear_labelled {width : Nat} {label : String} (h : Plain label = true) (value : String) :
    ScreenLine.Clear width [label ++ value] ↔
      '\n' ∉ value.toList ∧ displayWidth label + displayWidth value ≤ width := by
  rw [ScreenLine.Clear, fits_labelled h, ScreenLine.prompts_singleton, prompts_of_plain h,
    and_iff_left rfl]

/-- A text of the program without line break, of so many cells at most. -/
def Neat (size : Nat) (text : String) : Prop := '\n' ∉ text.toList ∧ displayWidth text ≤ size

/-- A text of the program with which a row begins, of so many cells at most. -/
def Leading (size : Nat) (text : String) : Prop := Plain text = true ∧ displayWidth text ≤ size

theorem clear_plain {width : Nat} {text : String} (h : Plain text = true)
    (hwidth : displayWidth text ≤ width) : ScreenLine.Clear width [text] := by
  have hclear : ScreenLine.Clear width [text ++ ""] :=
    (clear_labelled h "").mpr ⟨List.not_mem_nil, hwidth⟩
  rwa [String.append_empty] at hclear

/-! ### Rows of panels -/

namespace PanelRow

/-- What the program itself puts into the row fits, and is no prompt. -/
def Sound (width : Nat) : PanelRow → Prop
  | blank => True
  | fixed text => Leading 60 text
  | labelled label _ => Plain label = true
  | shortened label _ room => Plain label = true ∧ displayWidth label + room ≤ width
  | named name _ room => room = 0 ∨ name.utf8ByteSize + 2 + room ≤ width

/-- What comes from outside is shown on one line: a value that is not cut fits, and a value that is
cut has no line break left. A name is also no prompt. -/
def OneLine (width : Nat) : PanelRow → Prop
  | blank | fixed _ => True
  | labelled label value => '\n' ∉ value.toList ∧ displayWidth label + displayWidth value ≤ width
  | shortened _ value room => ¬ Breaks room value
  | named name value room =>
      '\n' ∉ name.toList ∧ displayWidth name + 2 ≤ width ∧
        "❯ ".toList.isPrefixOf (name ++ "  ").toList = false ∧ ¬ Breaks room value

/-- Two spaces behind the name decide whether it is a prompt. -/
theorem isPrefixOf_named (name more : String) :
    "❯ ".toList.isPrefixOf (name ++ "  " ++ more).toList =
      "❯ ".toList.isPrefixOf (name ++ "  ").toList := by
  rw [String.toList_append, String.toList_append]
  cases name.toList with
  | nil => rfl
  | cons first rest =>
      cases rest with
      | nil => rfl
      | cons second others => rfl

theorem clear_line_iff {width : Nat} (hwidth : 60 ≤ width) {row : PanelRow} (h : row.Sound width) :
    row.line.Clear width ↔ row.OneLine width := by
  cases row with
  | blank => exact iff_of_true (ScreenLine.clear_nil width) trivial
  | fixed text => exact iff_of_true (clear_plain h.1 (h.2.trans hwidth)) trivial
  | labelled label value => exact clear_labelled h value
  | shortened label value room =>
      have hroom := displayWidth_truncate_le value room
      have hfits := h.2
      rw [line, clear_labelled h.1, OneLine, breaks_iff]
      exact and_iff_left (by omega)
  | named name value room =>
      have hfits : displayWidth (name ++ "  " ++ truncate value room) ≤ width ↔
          displayWidth name + 2 ≤ width := by
        have hspaces : displayWidth "  " = 2 := by decide
        rw [displayWidth_append, displayWidth_append, hspaces]
        rcases h with rfl | h
        · rw [displayWidth_truncate_zero, Nat.add_zero]
        · have hname := displayWidth_le_utf8ByteSize name
          have hroom := displayWidth_truncate_le value room
          omega
      have hbreak : '\n' ∉ (name ++ "  " ++ truncate value room).toList ↔
          '\n' ∉ name.toList ∧ ¬ Breaks room value := by
        rw [breaks_iff, String.toList_append, String.toList_append, List.mem_append, List.mem_append,
          not_or, not_or]
        exact and_congr_left fun _ => and_iff_left (by decide)
      rw [line, ScreenLine.Clear, ScreenLine.fits_singleton, ScreenLine.prompts_singleton,
        isPrefixOf_named, hfits, hbreak, OneLine]
      exact ⟨fun h => ⟨h.1.1.1, h.1.2, h.2, h.1.1.2⟩, fun h => ⟨⟨⟨h.1, h.2.2.2⟩, h.2.1⟩, h.2.2.1⟩⟩

end PanelRow

/-! ### Texts of the program -/

theorem displayWidth_ofList (chars : List Char) :
    displayWidth (String.ofList chars) = Cells.width charWidth chars := by
  rw [displayWidth, String.toList_ofList]

/-! A literal is checked on its characters, which are cheaper to compute with than its bytes. -/

def plainChars (chars : List Char) : Bool := !chars.contains '\n' && chars.head?.any (· != '❯')

def neatChars (size : Nat) (chars : List Char) : Bool :=
  !chars.contains '\n' && decide (Cells.width charWidth chars ≤ size)

def leadingChars (size : Nat) (chars : List Char) : Bool :=
  plainChars chars && decide (Cells.width charWidth chars ≤ size)

section Literals

variable {size : Nat} {chars : List Char}

theorem plain_ofList (h : plainChars chars = true) : Plain (String.ofList chars) = true := by
  rw [Plain, String.toList_ofList]
  exact h

theorem neat_ofList (h : neatChars size chars = true) : Neat size (String.ofList chars) := by
  rw [neatChars, Bool.and_eq_true, Bool.not_eq_true', List.contains_eq_mem, decide_eq_false_iff_not,
    decide_eq_true_eq] at h
  rwa [Neat, String.toList_ofList, displayWidth_ofList]

theorem leading_ofList (h : leadingChars size chars = true) : Leading size (String.ofList chars) := by
  rw [leadingChars, Bool.and_eq_true, decide_eq_true_eq, ← displayWidth_ofList] at h
  exact ⟨plain_ofList h.1, h.2⟩

end Literals

theorem plain_append {text more : String} (h : Plain text = true) (hmore : '\n' ∉ more.toList) :
    Plain (text ++ more) = true := by
  rw [Plain, Bool.and_eq_true] at h ⊢
  have hline : '\n' ∉ text.toList :=
    newline_notMem_of_plain (by rw [Plain, Bool.and_eq_true]; exact h)
  constructor
  · rw [Bool.not_eq_true', List.contains_eq_mem, decide_eq_false_iff_not, String.toList_append,
      List.mem_append, not_or]
    exact ⟨hline, hmore⟩
  · rw [String.toList_append]
    cases htext : text.toList with
    | nil =>
        rw [htext] at h
        exact absurd h.2 Bool.false_ne_true
    | cons c rest =>
        rw [htext] at h
        exact h.2

namespace Leading

variable {m n : Nat} {text more : String}

theorem neat (h : Leading n text) : Neat n text := ⟨newline_notMem_of_plain h.1, h.2⟩

theorem mono (h : Leading m text) (hle : m ≤ n) : Leading n text := ⟨h.1, h.2.trans hle⟩

theorem append (h : Leading m text) (hmore : Neat n more) : Leading (m + n) (text ++ more) := by
  refine ⟨plain_append h.1 hmore.1, ?_⟩
  rw [displayWidth_append]
  exact Nat.add_le_add h.2 hmore.2

end Leading

theorem padEnd_ofList (chars : List Char) (count : Nat) :
    padEnd (String.ofList chars) count =
      String.ofList (chars ++ List.replicate (count - chars.length) ' ') := by
  rw [padEnd, repeatChar, ← String.ofList_append, String.length_ofList]

def usageText (spec : SlashCommandSpec) : String :=
  "/" ++ padEnd spec.name 10 ++ " " ++ spec.description

/-- What the palette and the help show of a command. -/
def usageChars (name description : List Char) : List Char :=
  ['/'] ++ (name ++ List.replicate (10 - name.length) ' ') ++ [' '] ++ description

theorem usageText_ofList (name description : List Char) :
    usageText ⟨String.ofList name, String.ofList description⟩ =
      String.ofList (usageChars name description) := by
  have hslash : "/" = String.ofList ['/'] := rfl
  have hspace : " " = String.ofList [' '] := rfl
  rw [usageText, usageChars, padEnd_ofList, hslash, hspace, ← String.ofList_append,
    ← String.ofList_append, ← String.ofList_append]

theorem leading_usageText_ofList {name description : List Char}
    (h : leadingChars 54 (usageChars name description) = true) :
    Leading 54 (usageText ⟨String.ofList name, String.ofList description⟩) := by
  rw [usageText_ofList]
  exact leading_ofList h

theorem leading_usageText : ∀ spec ∈ slashCommands, Leading 54 (usageText spec) := by
  simp only [slashCommands, List.forall_mem_cons]
  refine ⟨?_, ?_, ?_, ?_, ?_, ?_, ?_, ?_, ?_, ?_, ?_, ?_, ?_, ?_, ?_, ?_, ?_, ?_, List.forall_mem_nil _⟩ <;>
    exact leading_usageText_ofList (by decide)

theorem neat_padEnd_ofList {count : Nat} {chars : List Char}
    (h : neatChars count (chars ++ List.replicate (count - chars.length) ' ') = true) :
    Neat count (padEnd (String.ofList chars) count) := by
  rw [padEnd_ofList]
  exact neat_ofList h

theorem neat_space : Neat 1 " " := neat_ofList (by decide)

theorem neat_sandboxMode (mode : SandboxMode) : Neat 18 mode.asStr := by
  cases mode <;> exact neat_ofList (by decide)

theorem neat_backend (backend : SandboxBackendKind) : Neat 24 backend.asStr := by
  cases backend <;> exact neat_ofList (by decide)

theorem neat_networkAccess (network : SandboxNetworkAccess) : Neat 18 network.asStr := by
  cases network <;> exact neat_ofList (by decide)

theorem neat_approvalPolicy (policy : ApprovalPolicy) : Neat 18 policy.asStr := by
  cases policy <;> exact neat_ofList (by decide)

/-! ### What the panels put into their rows -/

namespace PanelRow

theorem sound_fixed {width : Nat} {chars : List Char} (h : leadingChars 60 chars = true) :
    (fixed (String.ofList chars)).Sound width := leading_ofList h

theorem sound_labelled {width : Nat} {chars : List Char} (h : plainChars chars = true)
    (value : String) : (labelled (String.ofList chars) value).Sound width := plain_ofList h

theorem sound_shortened {width size : Nat} {label : String} (h : Leading size label) (hsize : size ≤ width)
    (value : String) : (shortened label value (width - 4 - size)).Sound width :=
  ⟨h.1, by have hcells := h.2; omega⟩

end PanelRow

open PanelRow

/-- A choice of a picker is not cut. -/
theorem sound_pickerRow {width : Nat} (hwidth : 60 ≤ width) (selected : Bool) {name description : String}
    (hname : Neat 20 (padEnd name 20)) (hdescription : Neat 33 description) :
    (TerminalView.pickerRow selected name description (width - 4)).Sound width := by
  have hmarker : Leading 1 (if selected then "›" else " ") := by
    split <;> exact leading_ofList (by decide)
  have hrow := (((hmarker.append neat_space).append hname).append neat_space).append hdescription
  rw [TerminalView.pickerRow, truncate_of_fits (hrow.2.trans (by omega))]
  exact hrow.mono (by decide)

namespace TerminalView

variable (view : TerminalView) {width : Nat}

theorem sound_commandPaletteLines (hwidth : 60 ≤ width) :
    ∀ row ∈ view.commandPaletteLines (width - 4), row.Sound width := by
  intro row hrow
  rw [commandPaletteLines, List.mem_mapIdx] at hrow
  obtain ⟨index, hindex, rfl⟩ := hrow
  dsimp only
  generalize List.take 6 _ = suggestions at hindex ⊢
  have husage := leading_usageText _ suggestions[index].builtin
  have hcut : truncate (usageText suggestions[index].spec) (width - 4 - 2) =
      usageText suggestions[index].spec := truncate_of_fits (husage.2.trans (by omega))
  rw [usageText] at hcut
  rw [hcut]
  have hmarker : Leading 1 (if index = view.selectedCommandIndex then "›" else " ") := by
    split <;> exact leading_ofList (by decide)
  exact ((hmarker.append neat_space).append husage.neat).mono (by decide)

theorem sound_configLines : ∀ row ∈ view.configLines, row.Sound width := by
  have hlabel : ∀ (focus : Cli.ConfigFocus) (value : String), PanelRow.Sound width (.labelled
      ((if focus = view.configDraft.focus then ">" else " ") ++ " " ++ padEnd focus.label 10 ++ " ")
        value) := by
    intro focus value
    have hmarker : Leading 1 (if focus = view.configDraft.focus then ">" else " ") := by
      split <;> exact leading_ofList (by decide)
    have hfocus : Neat 10 (padEnd focus.label 10) := by
      cases focus <;> exact neat_padEnd_ofList (by decide)
    exact (((hmarker.append neat_space).append hfocus).append neat_space).1
  simp only [configLines, List.forall_mem_cons]
  refine ⟨sound_fixed (by decide), trivial, sound_labelled (by decide) _, trivial,
    hlabel _ _, hlabel _ _, hlabel _ _, hlabel _ _, trivial, sound_labelled (by decide) _, ?_,
    List.forall_mem_nil _⟩
  split <;> exact leading_ofList (by decide)

theorem sound_sandboxLines (hwidth : 60 ≤ width) :
    ∀ row ∈ view.sandboxLines (width - 4), row.Sound width := by
  simp only [sandboxLines, List.forall_mem_append, List.forall_mem_cons]
  refine ⟨⟨?_, fun row hrow => ?_⟩, trivial, sound_fixed (by decide), List.forall_mem_nil _⟩
  · cases view.runtimeSandbox with
    | none => exact List.forall_mem_nil _
    | some sandbox =>
        simp only [List.forall_mem_cons]
        refine ⟨?_, trivial, List.forall_mem_nil _⟩
        have hcurrent : Leading 8 "Current " := leading_ofList (by decide)
        have hvia : Neat 5 " via " := neat_ofList (by decide)
        exact (((hcurrent.append (neat_sandboxMode sandbox.mode)).append hvia).append
          (neat_backend sandbox.backend)).mono (by decide)
  · obtain ⟨index, hindex, rfl⟩ := List.mem_mapIdx.mp hrow
    generalize sandboxModes[index] = mode
    cases mode <;>
      exact sound_pickerRow hwidth _ (neat_padEnd_ofList (by decide)) (neat_ofList (by decide))

theorem sound_permissionsLines (hwidth : 60 ≤ width) :
    ∀ row ∈ view.permissionsLines (width - 4), row.Sound width := by
  simp only [permissionsLines, List.forall_mem_append, List.forall_mem_cons]
  refine ⟨⟨?_, fun row hrow => ?_⟩, trivial, sound_fixed (by decide), List.forall_mem_nil _⟩
  · cases view.runtimeApprovalPolicy with
    | none => exact List.forall_mem_nil _
    | some policy =>
        simp only [List.forall_mem_cons]
        have hcurrent : Leading 8 "Current " := leading_ofList (by decide)
        exact ⟨(hcurrent.append (neat_approvalPolicy policy)).mono (by decide), trivial,
          List.forall_mem_nil _⟩
  · obtain ⟨index, hindex, rfl⟩ := List.mem_mapIdx.mp hrow
    generalize permissionPolicies[index] = policy
    cases policy <;>
      exact sound_pickerRow hwidth _ (neat_padEnd_ofList (by decide)) (neat_ofList (by decide))

theorem sound_statusLines : ∀ row ∈ view.statusLines, row.Sound width := by
  simp only [statusLines, List.forall_mem_append, List.forall_mem_cons]
  have hstate : ∀ {label value : String} {size : Nat}, Leading 12 label → Neat size value →
      size ≤ 48 → (fixed (label ++ value)).Sound width :=
    fun hlabel hvalue hsize => (hlabel.append hvalue).mono (Nat.add_le_add_left hsize 12)
  refine ⟨⟨⟨⟨sound_fixed (by decide), trivial, List.forall_mem_nil _⟩, ?_⟩, trivial,
    sound_fixed (by decide), List.forall_mem_nil _⟩, ?_⟩
  · cases view.modelStatus with
    | none => exact List.forall_mem_singleton.mpr (sound_fixed (by decide))
    | some status =>
        simp only [List.forall_mem_append, List.forall_mem_cons, List.forall_mem_map]
        refine ⟨⟨sound_labelled (by decide) _, sound_labelled (by decide) _,
          hstate (leading_ofList (by decide)) (?_ : Neat 10 _) (by decide),
          hstate (leading_ofList (by decide)) (?_ : Neat 10 _) (by decide),
          List.forall_mem_nil _⟩, fun note _ => sound_labelled (by decide) _⟩ <;>
          split <;> exact neat_ofList (by decide)
  · cases view.runtimeSandbox with
    | none => exact List.forall_mem_singleton.mpr (sound_fixed (by decide))
    | some sandbox =>
        simp only [List.forall_mem_append, List.forall_mem_cons]
        refine ⟨⟨hstate (leading_ofList (by decide)) (neat_sandboxMode sandbox.mode) (by decide),
          hstate (leading_ofList (by decide)) (neat_backend sandbox.backend) (by decide),
          hstate (leading_ofList (by decide)) (neat_networkAccess sandbox.networkAccess) (by decide),
          List.forall_mem_nil _⟩, ?_⟩
        cases view.runtimeApprovalPolicy with
        | none => exact List.forall_mem_nil _
        | some policy =>
            exact List.forall_mem_singleton.mpr
              (hstate (leading_ofList (by decide)) (neat_approvalPolicy policy) (by decide))

/-- The last line of the help is too wide for a narrow screen, but there is no room for it. -/
theorem sound_helpLines : ∀ row ∈ helpLines.take 12, row.Sound width := by
  have hfirst : helpLines.take 12 =
      .fixed "Commands" :: (slashCommands.take 11).map fun spec => .fixed (usageText spec) := rfl
  rw [hfirst, List.forall_mem_cons, List.forall_mem_map]
  exact ⟨sound_fixed (by decide), fun spec hspec =>
    (leading_usageText spec (List.mem_of_mem_take hspec)).mono (by decide)⟩

theorem sound_panelSection {title : PanelRow} (htitle : title.Sound width) {rows : List PanelRow}
    (hrows : ∀ row ∈ rows, row.Sound width) (shown : Bool) :
    ∀ row ∈ panelSection title rows shown, row.Sound width := by
  cases shown with
  | false => exact List.forall_mem_nil _
  | true => exact List.forall_mem_cons.mpr ⟨trivial, List.forall_mem_cons.mpr ⟨htitle, hrows⟩⟩

theorem sound_toList {α : Type} {found : Option α} {row : α → PanelRow}
    (h : ∀ value, (row value).Sound width) : ∀ shown ∈ (found.map row).toList, shown.Sound width := by
  cases found with
  | none => exact List.forall_mem_nil _
  | some value => exact List.forall_mem_singleton.mpr (h value)

theorem sound_memoryLines (hwidth : 60 ≤ width) :
    ∀ row ∈ view.memoryLines (width - 4), row.Sound width := by
  have hshortened : ∀ {label : String} {size : Nat}, Leading size label → size ≤ 10 →
      ∀ value, (shortened label value (width - 4 - size)).Sound width :=
    fun h hsize => sound_shortened h (hsize.trans (by omega))
  simp only [memoryLines, List.forall_mem_append, List.forall_mem_cons, List.forall_mem_map]
  refine ⟨⟨⟨⟨⟨⟨⟨⟨⟨⟨sound_fixed (by decide), trivial, sound_fixed (by decide),
    List.forall_mem_nil _⟩, ?_⟩, trivial, sound_fixed (by decide), List.forall_mem_nil _⟩, ?_⟩,
    ?_⟩, ?_⟩, ?_⟩, ?_⟩, ?_⟩, ?_⟩
  · cases view.wakeup with
    | none => exact List.forall_mem_singleton.mpr (sound_fixed (by decide))
    | some wakeup =>
        refine List.forall_mem_append.mpr
          ⟨sound_toList fun activeState => hshortened (leading_ofList (by decide)) (by decide) _, ?_⟩
        split
        · exact List.forall_mem_nil _
        · exact List.forall_mem_singleton.mpr (hshortened (leading_ofList (by decide)) (by decide) _)
  · intro topic _
    simp only [PanelRow.Sound]
    omega
  · refine sound_panelSection (sound_fixed (by decide)) (fun row hrow => ?_) _
    obtain ⟨hit, -, hrow⟩ := List.mem_flatMap.mp hrow
    rcases List.mem_cons.mp hrow with rfl | hrow
    · have hkind : Leading 8 hit.kind.debugText := by
        cases hit.kind <;> exact leading_ofList (by decide)
      have hspaces : Neat 2 "  " := neat_ofList (by decide)
      exact hshortened (hkind.append hspaces) (by decide) _
    · rw [List.mem_singleton.mp hrow]
      exact hshortened (leading_ofList (by decide)) (by decide) _
  · cases view.sessionView with
    | none => exact List.forall_mem_nil _
    | some session =>
        exact sound_panelSection (sound_labelled (by decide) _)
          (List.forall_mem_map.mpr fun entry _ => hshortened (leading_ofList (by decide)) (by decide) _) true
  · cases view.evidenceView with
    | none => exact List.forall_mem_nil _
    | some evidence =>
        refine sound_panelSection (sound_fixed (by decide)) ?_ true
        simp only [List.forall_mem_append]
        exact ⟨⟨sound_toList fun title => hshortened (leading_ofList (by decide)) (by decide) _,
          sound_toList fun summary => hshortened (leading_ofList (by decide)) (by decide) _⟩,
          sound_toList fun value => hshortened (leading_ofList (by decide)) (by decide) _⟩
  · exact sound_panelSection (sound_fixed (by decide))
      (List.forall_mem_map.mpr fun procedure _ => hshortened (leading_ofList (by decide)) (by decide) _) _
  · exact sound_panelSection (sound_fixed (by decide))
      (List.forall_mem_map.mpr fun summary _ => hshortened (leading_ofList (by decide)) (by decide) _) _
  · cases view.diffPreview with
    | none => exact List.forall_mem_nil _
    | some diff =>
        exact List.forall_mem_cons.mpr ⟨trivial, List.forall_mem_singleton.mpr
          (sound_labelled (by decide) _)⟩

theorem sound_threadLines : ∀ row ∈ view.threadLines, row.Sound width := by
  simp only [threadLines, List.forall_mem_append, List.forall_mem_cons]
  refine ⟨⟨⟨sound_fixed (by decide), trivial, List.forall_mem_nil _⟩, ?_⟩, trivial,
    sound_fixed (by decide), List.forall_mem_nil _⟩
  split
  · exact List.forall_mem_singleton.mpr (sound_fixed (by decide))
  · intro row hrow
    obtain ⟨rows, hrows, hrow⟩ := List.mem_flatten.mp hrow
    obtain ⟨index, hindex, rfl⟩ := List.mem_mapIdx.mp hrows
    rcases List.mem_cons.mp hrow with rfl | hrow
    · have hmarker : Leading 1 (if index = view.selectedThreadIndex then ">" else " ") := by
        split <;> exact leading_ofList (by decide)
      exact (hmarker.append neat_space).1
    · exact sound_toList (fun summary => sound_labelled (by decide) summary) row hrow

theorem sound_panelRows {width : UInt16} (hwidth : 60 ≤ width.toNat) (panel : OverlayPanel)
    (terminalHeight : UInt16) :
    ∀ row ∈ view.panelRows panel width terminalHeight, row.Sound width.toNat := by
  intro row hrow
  rw [panelRows] at hrow
  cases panel with
  | commandPalette => exact view.sound_commandPaletteLines hwidth row hrow
  | config => exact view.sound_configLines row (List.mem_of_mem_take hrow)
  | status => exact view.sound_statusLines row (List.mem_of_mem_take hrow)
  | help =>
      have hbudget : min (max (terminalHeight.toNat - 6) 3) 12 ≤ 12 := Nat.min_le_right _ 12
      rw [if_neg (by decide), ← Nat.min_eq_left hbudget, ← List.take_take] at hrow
      exact sound_helpLines row (List.mem_of_mem_take hrow)
  | memory => exact view.sound_memoryLines hwidth row (List.mem_of_mem_take hrow)
  | threads => exact view.sound_threadLines row (List.mem_of_mem_take hrow)
  | sandbox => exact view.sound_sandboxLines hwidth row (List.mem_of_mem_take hrow)
  | permissions => exact view.sound_permissionsLines hwidth row (List.mem_of_mem_take hrow)

end TerminalView

/-! ### The preview -/

theorem notMem_of_mem_splitOn {sep : Char → Bool} {text piece : String}
    (h : piece ∈ Text.splitOn sep text) : ∀ c ∈ piece.toList, sep c = false := by
  have hpieces : ∀ chars : List Char, ∀ piece ∈ chars.splitOnP sep, ∀ c ∈ piece, sep c = false := by
    intro chars
    induction chars with
    | nil =>
        intro piece hpiece
        rw [List.splitOnP_nil, List.mem_singleton] at hpiece
        rw [hpiece]
        exact List.forall_mem_nil _
    | cons first rest ih =>
        rw [List.splitOnP_cons_eq_if_modifyHead]
        split
        · exact List.forall_mem_cons.mpr ⟨List.forall_mem_nil _, ih⟩
        next hfirst =>
          cases hrest : rest.splitOnP sep with
          | nil => exact absurd hrest (List.splitOnP_ne_nil sep rest)
          | cons piece others =>
              rw [hrest, List.forall_mem_cons] at ih
              exact List.forall_mem_cons.mpr
                ⟨List.forall_mem_cons.mpr ⟨Bool.not_eq_true _ ▸ hfirst, ih.1⟩, ih.2⟩
  obtain ⟨chars, hchars, rfl⟩ := List.mem_map.mp h
  rw [String.toList_ofList]
  exact hpieces text.toList chars hchars

/-- A word has characters, and none of them is white space. -/
structure IsWord (word : String) : Prop where
  nonempty : word.isEmpty = false
  solid : ∀ c ∈ word.toList, Text.isWhitespace c = false

theorem isWord_of_mem_splitWhitespace {text word : String} (h : word ∈ splitWhitespace text) :
    IsWord word := by
  obtain ⟨hpiece, hne⟩ := List.mem_filter.mp h
  exact ⟨by simpa using hne, notMem_of_mem_splitOn hpiece⟩

theorem displayWidth_join (line : List String) :
    displayWidth (Text.join line " ") = Cells.lineSize displayWidth line := by
  have hspace : displayWidth " " = 1 := by decide
  induction line with
  | nil => rfl
  | cons word rest ih =>
      cases rest with
      | nil => rw [Text.join, String.intercalate_singleton, Cells.lineSize]
      | cons next others =>
          rw [Text.join, String.intercalate_cons_cons, displayWidth_append, displayWidth_append, hspace,
            Cells.lineSize]
          exact congrArg _ ih

theorem isEmpty_join {line : List String} (h : ∀ word ∈ line, IsWord word) :
    (Text.join line " ").isEmpty = line.isEmpty := by
  cases line with
  | nil => rfl
  | cons word rest =>
      have hword := (h word List.mem_cons_self).nonempty
      rw [String.isEmpty_eq_false_iff] at hword
      rw [List.isEmpty_cons, String.isEmpty_eq_false_iff]
      cases rest with
      | nil =>
          rwa [Text.join, String.intercalate_singleton]
      | cons next others =>
          rw [Text.join, String.intercalate_cons_cons]
          simp [hword]

theorem join_concat {line : List String} (h : line ≠ []) (word : String) :
    Text.join (line ++ [word]) " " = Text.join line " " ++ " " ++ word := by
  induction line with
  | nil => exact absurd rfl h
  | cons first rest ih =>
      cases rest with
      | nil =>
          rw [List.singleton_append, Text.join, String.intercalate_cons_cons, Text.join,
            String.intercalate_singleton, String.intercalate_singleton]
      | cons next others =>
          have hrest := ih (List.cons_ne_nil next others)
          rw [Text.join] at hrest
          rw [Text.join, List.cons_append, List.cons_append, String.intercalate_cons_cons,
            ← List.cons_append, hrest, Text.join, Text.join, String.intercalate_cons_cons]
          simp only [String.append_assoc]

/-- Wrapping fills lines with words. -/
theorem wrapWords_eq (width : Nat) {words : List String} (hwords : ∀ word ∈ words, IsWord word)
    {current : List String} (hcurrent : ∀ word ∈ current, IsWord word) :
    wrapWords width (Text.join current " ") words =
      (Cells.fill displayWidth (max width 20) current words).map (Text.join · " ") := by
  induction words generalizing current with
  | nil =>
      rw [wrapWords, Cells.fill, isEmpty_join hcurrent]
      split <;> rfl
  | cons word rest ih =>
      obtain ⟨hword, hrest⟩ := List.forall_mem_cons.mp hwords
      have hone := ih hrest (List.forall_mem_singleton.mpr hword)
      rw [Text.join, String.intercalate_singleton] at hone
      rw [wrapWords, Cells.fill, isEmpty_join hcurrent, displayWidth_join]
      split
      · exact hone
      next hne =>
        have hnil : current ≠ [] := fun hnil => hne (List.isEmpty_iff.mpr hnil)
        split
        · rw [← join_concat hnil]
          exact ih hrest (List.forall_mem_append.mpr ⟨hcurrent, List.forall_mem_singleton.mpr hword⟩)
        · rw [List.map_cons, hone]

/-- The words of the lines of a paragraph; one without any characters has one line. -/
def wrappedWords (width : Nat) (paragraph : String) : List (List String) :=
  if paragraph.isEmpty then [[]]
  else Cells.fill displayWidth (max width 20) [] (splitWhitespace paragraph)

/-- The words of the lines of the preview. -/
def previewWords (streaming : String) (width : Nat) : List (List String) :=
  (Text.lines streaming).flatMap (wrappedWords (max (width - 2) 20))

theorem wrapText_eq (width : Nat) (paragraph : String) :
    wrapText paragraph width = (wrappedWords width paragraph).map (Text.join · " ") := by
  rw [wrapText, wrappedWords]
  split
  · rfl
  · exact wrapWords_eq width (fun _ h => isWord_of_mem_splitWhitespace h) (List.forall_mem_nil _)

/-- A line of the preview holds words, and is wide because of a single word only. -/
structure Filled (width : Nat) (words : List String) : Prop where
  spelled : ∀ word ∈ words, IsWord word
  fits : words.length ≤ 1 ∨ Cells.lineSize displayWidth words ≤ width - 2

theorem filled_of_mem {width : Nat} (hwidth : 60 ≤ width) {streaming : String} {words : List String}
    (h : words ∈ previewWords streaming width) : Filled width words := by
  obtain ⟨paragraph, -, hwords⟩ := List.mem_flatMap.mp h
  have hroom : max (max (width - 2) 20) 20 = width - 2 := by omega
  rw [wrappedWords, hroom] at hwords
  split at hwords
  · rw [List.mem_singleton.mp hwords]
    exact ⟨List.forall_mem_nil _, .inl (Nat.zero_le 1)⟩
  · have hnil : ([] : List String).length ≤ 1 := Nat.zero_le 1
    refine ⟨fun word hword => ?_, Cells.fits_of_mem_fill (.inl hnil) hwords⟩
    rcases Cells.mem_of_mem_fill hwords hword with hnil | hmem
    · exact absurd hnil List.not_mem_nil
    · exact isWord_of_mem_splitWhitespace hmem

/-- The line begins like the composer's: with its mark as a word, and another word behind it. -/
def StartsLikePrompt : List String → Prop
  | first :: _ :: _ => first = "❯"
  | _ => False

theorem newline_notMem_join {words : List String} (h : ∀ word ∈ words, IsWord word) :
    '\n' ∉ (Text.join words " ").toList := by
  have hsolid : ∀ word ∈ words, '\n' ∉ word.toList := by
    intro word hword hmem
    exact absurd ((h word hword).solid '\n' hmem) (by decide)
  exact Text.not_mem_join hsolid (by decide)

theorem prompts_join {words : List String} (h : ∀ word ∈ words, IsWord word) :
    "❯ ".toList.isPrefixOf (Text.join words " ").toList = true ↔ StartsLikePrompt words := by
  have hprompt : "❯ ".toList = ['❯', ' '] := by decide
  rw [hprompt, List.isPrefixOf_iff_prefix]
  cases words with
  | nil =>
      refine iff_of_false ?_ id
      rw [show (Text.join [] " ").toList = [] from rfl, List.prefix_nil]
      exact List.cons_ne_nil _ _
  | cons first rest =>
      have hfirst := h first List.mem_cons_self
      have hspace : ' ' ∉ first.toList := fun hmem => absurd (hfirst.solid ' ' hmem) (by decide)
      cases rest with
      | nil =>
          refine iff_of_false ?_ id
          rw [Text.join, String.intercalate_singleton]
          intro hbegins
          exact hspace (hbegins.subset (by simp))
      | cons next others =>
          rw [Text.join, String.intercalate_cons_cons, StartsLikePrompt, String.toList_append,
            String.toList_append]
          constructor
          · rintro ⟨more, hmore⟩
            cases hchars : first.toList with
            | nil =>
                have hempty := hfirst.nonempty
                rw [String.isEmpty_eq_false_iff] at hempty
                exact absurd (String.toList_eq_nil_iff.mp hchars) hempty
            | cons c remaining =>
                rw [hchars] at hmore
                cases remaining with
                | nil =>
                    have hc : c = '❯' := (List.cons.inj hmore).1.symm
                    rw [← String.toList_inj, hchars, hc]
                    rfl
                | cons d after =>
                    have hd : d = ' ' := (List.cons.inj (List.cons.inj hmore).2).1.symm
                    rw [hchars, hd] at hspace
                    exact absurd (by simp) hspace
          · rintro rfl
            exact ⟨_, rfl⟩

/-- A line of the preview stays one line, and is not taken for the composer's. -/
theorem clear_previewLine {width : Nat} (hwidth : 60 ≤ width) {marker : String}
    (hmarker : Plain marker = true) (hcells : displayWidth marker = 2) {words : List String}
    (h : Filled width words) :
    ScreenLine.Clear width [marker, Text.join words " "] ↔
      (∀ word ∈ words, displayWidth word ≤ width - 2) ∧ ¬ StartsLikePrompt words := by
  have hchars : ScreenLine.chars [marker, Text.join words " "] =
      ScreenLine.chars [marker ++ Text.join words " "] := by
    simp [ScreenLine.chars]
  have hprompts : ScreenLine.prompts [marker, Text.join words " "] =
      "❯ ".toList.isPrefixOf (Text.join words " ").toList := by
    have hmark := prompts_of_plain hmarker ""
    rw [String.append_empty] at hmark
    rw [ScreenLine.prompts, List.any_cons, hmark, Bool.false_or, List.any_cons, List.any_nil,
      Bool.or_false]
  have hfits : displayWidth marker + displayWidth (Text.join words " ") ≤ width ↔
      ∀ word ∈ words, displayWidth word ≤ width - 2 := by
    rw [← Cells.lineSize_le_iff h.fits, displayWidth_join, hcells]
    omega
  have hline : ScreenLine.Fits width [marker, Text.join words " "] ↔
      ∀ word ∈ words, displayWidth word ≤ width - 2 := by
    rw [ScreenLine.Fits, hchars, ← ScreenLine.Fits, fits_labelled hmarker, hfits,
      and_iff_right (newline_notMem_join h.spelled)]
  rw [ScreenLine.Clear, hline, hprompts, ← Bool.not_eq_true, prompts_join h.spelled]

theorem clear_preview_iff {width : Nat} (hwidth : 60 ≤ width) (streaming : String) (shown : Nat) :
    (∀ line ∈ (appendMarkedBlock "● " streaming width).take shown, line.Clear width) ↔
      ∀ words ∈ (previewWords streaming width).take shown,
        (∀ word ∈ words, displayWidth word ≤ width - 2) ∧ ¬ StartsLikePrompt words := by
  have hmark : displayWidth "● " = 2 := by decide
  have htexts : (Text.lines streaming).flatMap (fun paragraph => wrapText paragraph (max (width - 2) 20)) =
      (previewWords streaming width).map (Text.join · " ") := by
    rw [previewWords, List.map_flatMap]
    exact List.flatMap_congr fun paragraph _ => wrapText_eq _ paragraph
  have hfilled : ∀ words ∈ previewWords streaming width, Filled width words :=
    fun _ => filled_of_mem hwidth
  rw [appendMarkedBlock, hmark, htexts]
  generalize previewWords streaming width = lines at hfilled ⊢
  cases lines with
  | nil => simp
  | cons first rest =>
      cases shown with
      | zero => simp
      | succ shown =>
          obtain ⟨hfirst, hrest⟩ := List.forall_mem_cons.mp hfilled
          simp only [List.map_cons, List.take_succ_cons, List.forall_mem_cons]
          refine and_congr (clear_previewLine hwidth (plain_ofList (by decide)) hmark hfirst) ?_
          rw [List.map_map, ← List.map_take, List.forall_mem_map]
          refine forall₂_congr fun words hwords => ?_
          exact clear_previewLine hwidth (plain_ofList (by decide)) (by decide)
            (hrest words (List.mem_of_mem_take hwords))

/-! ### The composer -/

theorem newline_notMem_replaceChars (text : List Char) (skip : Nat) :
    '\n' ∉ Text.replaceChars ['\n'] "⏎ ".toList skip text := by
  induction text generalizing skip with
  | nil =>
      cases skip <;> exact List.not_mem_nil
  | cons c rest ih =>
      cases skip with
      | succ skip => exact ih skip
      | zero =>
          rw [Text.replaceChars]
          split
          · exact fun hmem => (List.mem_append.mp hmem).elim (by decide) (ih _)
          next hc =>
            refine fun hmem => (List.mem_cons.mp hmem).elim (fun heq => hc ?_) (ih _)
            rw [← heq]
            rfl

theorem newline_notMem_truncate {text : String} (h : '\n' ∉ text.toList) (width : Nat) :
    '\n' ∉ (truncate text width).toList := by
  rw [toList_truncate]
  exact fun hmem => h (Cells.mem_of_mem_cut hmem (by decide))

theorem digits_toString (n : Nat) : ∀ c ∈ (toString n).toList, c.isDigit = true := by
  intro c hc
  rw [Nat.toString_eq_ofList_toDigits, String.toList_ofList] at hc
  exact Nat.isDigit_of_mem_toDigits (by decide) (by decide) hc

namespace TerminalView

variable (view : TerminalView)

theorem newline_notMem_shownInput : '\n' ∉ view.shownInput.toList := by
  rw [shownInput, Text.replace, String.toList_ofList]
  exact newline_notMem_replaceChars _ 0

/-- The line breaks of the input are shown as marks, and its end is cut off. -/
theorem fits_composerInputLine {width : Nat} (hwidth : 60 ≤ width) :
    (view.composerInputLine width).Fits width := by
  have hprompt : displayWidth "❯ " = 2 := by decide
  have hshown : ∀ text : String, '\n' ∉ text.toList →
      ScreenLine.Fits width ["❯ ", truncate text (width - 2)] := by
    intro text htext
    have hcut := displayWidth_truncate_le text (width - 2)
    have hmark : Cells.width charWidth "❯ ".toList = 2 := hprompt
    rw [ScreenLine.Fits, ScreenLine.chars, List.flatMap_cons, List.flatMap_singleton, List.mem_append,
      not_or, Cells.width_append, hmark]
    rw [displayWidth] at hcut
    exact ⟨⟨by decide, newline_notMem_truncate htext _⟩, by omega⟩
  rw [composerInputLine, hprompt]
  apply hshown
  split
  · exact (neat_ofList (by decide) : Neat 31 "Try \"how does <filepath> work?\"").1
  · exact view.newline_notMem_shownInput

theorem fits_rule (width : Nat) : ScreenLine.Fits width [repeatChar '─' width] := by
  refine ScreenLine.fits_singleton.mpr ⟨?_, Nat.le_of_eq (displayWidth_repeatChar (by decide) width)⟩
  rw [repeatChar, String.toList_ofList, List.mem_replicate]
  exact fun h => absurd h.2 (by decide)

/-- The halves of the status bar are cut one by one. -/
theorem fits_statusBar_iff (width : Nat) :
    (view.statusBar width).Fits width ↔
      ¬ Breaks (width - 2) view.statusLeft ∧ ¬ Breaks (width - 4) view.statusRight ∧
        displayWidth (truncate view.statusLeft (width - 2)) +
          displayWidth (truncate view.statusRight (width - 4)) ≤ width := by
  rw [breaks_iff, breaks_iff, statusBar]
  generalize truncate view.statusLeft (width - 2) = left
  generalize truncate view.statusRight (width - 4) = right
  have hspaces : ∀ count, '\n' ∉ (repeatChar ' ' count).toList := by
    intro count hmem
    rw [repeatChar, String.toList_ofList, List.mem_replicate] at hmem
    exact absurd hmem.2 (by decide)
  have hpadding : ∀ count, Cells.width charWidth (repeatChar ' ' count).toList = count :=
    displayWidth_repeatChar (by decide)
  rw [ScreenLine.Fits, ScreenLine.chars, List.flatMap_cons, List.flatMap_cons, List.flatMap_singleton,
    List.mem_append, List.mem_append, or_iff_right (hspaces _), not_or, Cells.width_append,
    Cells.width_append, hpadding, ← displayWidth, ← displayWidth, and_assoc]
  refine and_congr_right fun _ => and_congr_right fun _ => ?_
  omega

/-! ### The notice of approvals -/

theorem displayWidth_toString (n : Nat) : displayWidth (toString n) = (toString n).length := by
  have hcells : ∀ chars : List Char, (∀ c ∈ chars, c.isDigit = true) →
      Cells.width charWidth chars = chars.length := by
    intro chars hchars
    induction chars with
    | nil => rfl
    | cons c rest ih =>
        obtain ⟨hc, hrest⟩ := List.forall_mem_cons.mp hchars
        have hone : charWidth c = 1 := by
          rw [Char.isDigit, Bool.and_eq_true, decide_eq_true_eq, decide_eq_true_eq] at hc
          have hascii : c.toNat ≤ 57 := hc.2
          rw [charWidth, decide_eq_true (show c.toNat < 128 by omega), Bool.true_or, if_pos rfl]
        rw [Cells.width, ih hrest, hone, List.length_cons, Nat.add_comm]
  rw [displayWidth, ← String.length_toList]
  exact hcells _ (digits_toString n)

theorem clear_approvalNotice_iff (width : Nat) :
    ScreenLine.Clear width [view.approvalNotice] ↔
      61 + (toString view.pendingApprovals.length).length ≤ width := by
  have hlabel : Plain "Approval required: Enter approves once, Esc denies · " = true ∧
      displayWidth "Approval required: Enter approves once, Esc denies · " = 53 :=
    ⟨plain_ofList (by decide), (displayWidth_ofList _).trans (by decide)⟩
  have hend : '\n' ∉ " pending".toList ∧ displayWidth " pending" = 8 :=
    ⟨(neat_ofList (by decide) : Neat 8 " pending").1, (displayWidth_ofList _).trans (by decide)⟩
  have hdigit : '\n'.isDigit = false := by decide
  unfold approvalNotice
  generalize view.pendingApprovals.length = count
  have hline : '\n' ∉ (toString count ++ " pending").toList := by
    rw [String.toList_append, List.mem_append, not_or]
    refine ⟨fun hmem => ?_, hend.1⟩
    rw [digits_toString count _ hmem] at hdigit
    cases hdigit
  have hwidth : displayWidth (toString count ++ " pending") = (toString count).length + 8 := by
    rw [displayWidth_append, displayWidth_toString, hend.2]
  have hclear := (@clear_labelled width _ hlabel.1 (toString count ++ " pending")).trans
    (and_iff_right hline)
  rw [hwidth, hlabel.2, ← String.append_assoc] at hclear
  refine hclear.trans ?_
  generalize (toString count).length = digits
  omega

/-! ### The whole region -/

/-- The rows that are drawn for the lines. -/
def rowsDrawn (width : Nat) : List ScreenLine → Nat
  | [] => 0
  | line :: rest => Cells.rows charWidth width 0 line.chars + rowsDrawn width rest

/-- Every line is one row, the height is the number of rows that are drawn, and the cursor goes to the
line of the composer and stays on it. -/
structure LiveGeometry (width terminalHeight : UInt16) : Prop where
  lines : ∀ line ∈ view.liveRegionLines width terminalHeight, line.Fits width.toNat
  height : (view.liveRegionHeight width terminalHeight).toNat =
    rowsDrawn width.toNat (view.liveRegionLines width terminalHeight)
  offset : (inputLineOffset (view.liveRegionLines width terminalHeight)).toNat =
    (view.aboveComposer width terminalHeight).length + 1
  cursor : view.cursorColumn width < width

/-- Nothing that is shown is too long. -/
structure FitsScreen (width terminalHeight : UInt16) : Prop where
  /-- The words of the preview fit, and none of its lines begins like the composer's. -/
  preview : ∀ streaming, view.assistantStreaming = some streaming →
    ∀ words ∈ (previewWords streaming width.toNat).take 6,
      (∀ word ∈ words, displayWidth word ≤ width.toNat - 2) ∧ ¬ StartsLikePrompt words
  panel : ∀ panel, view.activeOverlay = some panel →
    ∀ row ∈ view.panelRows panel width terminalHeight, row.OneLine width.toNat
  approvals : view.pendingApprovals ≠ [] →
    61 + (toString view.pendingApprovals.length).length ≤ width.toNat
  /-- The halves of the status bar have no line break left, and fit together. -/
  status : ¬ Breaks (width.toNat - 2) view.statusLeft ∧ ¬ Breaks (width.toNat - 4) view.statusRight ∧
    displayWidth (truncate view.statusLeft (width.toNat - 2)) +
      displayWidth (truncate view.statusRight (width.toNat - 4)) ≤ width.toNat

theorem rowsDrawn_of_fits {width : Nat} {lines : List ScreenLine}
    (h : ∀ line ∈ lines, line.Fits width) : rowsDrawn width lines = lines.length := by
  induction lines with
  | nil => rfl
  | cons line rest ih =>
      obtain ⟨hline, hrest⟩ := List.forall_mem_cons.mp h
      rw [rowsDrawn, ih hrest, Cells.rows_of_fits hline.1 (by rw [Nat.zero_add]; exact hline.2),
        List.length_cons, Nat.add_comm]

theorem length_aboveComposer (width terminalHeight : UInt16) :
    (view.aboveComposer width terminalHeight).length ≤ 22 := by
  have hrows : ∀ panel, (view.panelRows panel width terminalHeight).length ≤ 12 := by
    intro panel
    rw [panelRows]
    split
    next hpalette =>
      rw [hpalette, overlayLines, commandPaletteLines, List.length_mapIdx, List.length_take]
      omega
    · rw [List.length_take]
      omega
  rw [aboveComposer, List.length_append, List.length_append]
  have hpreview : ∀ {lines : List ScreenLine}, (lines.take 6 ++ [[]]).length ≤ 7 := by
    intro lines
    rw [List.length_append, List.length_take, List.length_singleton]
    omega
  have hpanel : ∀ panel (header : ScreenLine),
      (header :: ((view.panelRows panel width terminalHeight).map PanelRow.line ++ [[]])).length ≤ 14 := by
    intro panel header
    have hpanelRows := hrows panel
    rw [List.length_cons, List.length_append, List.length_map, List.length_singleton]
    omega
  have hsum : ∀ {a b c : Nat}, a ≤ 7 → b ≤ 14 → c ≤ 1 → a + b + c ≤ 22 := by
    intro a b c ha hb hc
    omega
  refine hsum ?_ ?_ ?_
  · split
    · exact hpreview
    · exact Nat.zero_le 7
  · split
    · exact hpanel _ _
    · exact Nat.zero_le 14
  · split
    · exact Nat.zero_le 1
    · exact Nat.le_refl 1

/-- The first line with the prompt is the composer's exactly when no line above it has one. -/
theorem inputLineOffset_iff {above rest : List ScreenLine} {rule input : ScreenLine}
    (hlength : above.length ≤ 22) (hrule : rule.prompts = false) (hinput : input.prompts = true) :
    (inputLineOffset (above ++ rule :: input :: rest)).toNat = above.length + 1 ↔
      ∀ line ∈ above, line.prompts = false := by
  have hfound : (above ++ rule :: input :: rest).findIdx? ScreenLine.prompts =
      (above.findIdx? ScreenLine.prompts).or (some (1 + above.length)) := by
    rw [List.findIdx?_append, List.findIdx?_cons, hrule, List.findIdx?_cons, hinput]
    rfl
  have hoffset : (inputLineOffset (above ++ rule :: input :: rest)).toNat =
      (((above.findIdx? ScreenLine.prompts).or (some (1 + above.length))).getD 0) % 2 ^ 16 := by
    rw [← hfound]
    exact UInt16.toNat_ofNat'
  rw [hoffset]
  cases hindex : above.findIdx? ScreenLine.prompts with
  | none =>
      rw [List.findIdx?_eq_none_iff] at hindex
      refine iff_of_true ?_ hindex
      show (1 + above.length) % 2 ^ 16 = _
      omega
  | some index =>
      obtain ⟨hlt, hprompt, -⟩ := List.findIdx?_eq_some_iff_getElem.mp hindex
      refine iff_of_false ?_ fun hnone => ?_
      · show index % 2 ^ 16 ≠ _
        omega
      · rw [hnone _ (List.getElem_mem hlt)] at hprompt
        cases hprompt

theorem clear_header {width : Nat} (hwidth : 60 ≤ width) (panel : OverlayPanel) :
    ScreenLine.Clear width
      [if panel = .commandPalette then "Commands" else slashPageHeader panel] := by
  have hheader : Leading 60 (if panel = .commandPalette then "Commands" else slashPageHeader panel) := by
    split
    · exact leading_ofList (by decide)
    · cases panel <;> exact leading_ofList (by decide)
  exact clear_plain hheader.1 (hheader.2.trans hwidth)

/-- Above the composer every line is clear exactly when what it shows fits. -/
theorem clear_aboveComposer_iff {width : UInt16} (hwidth : 60 ≤ width.toNat) (terminalHeight : UInt16) :
    (∀ line ∈ view.aboveComposer width terminalHeight, line.Clear width.toNat) ↔
      (∀ streaming, view.assistantStreaming = some streaming →
        ∀ words ∈ (previewWords streaming width.toNat).take 6,
          (∀ word ∈ words, displayWidth word ≤ width.toNat - 2) ∧ ¬ StartsLikePrompt words) ∧
      (∀ panel, view.activeOverlay = some panel →
        ∀ row ∈ view.panelRows panel width terminalHeight, row.OneLine width.toNat) ∧
      (view.pendingApprovals ≠ [] →
        61 + (toString view.pendingApprovals.length).length ≤ width.toNat) := by
  rw [aboveComposer, List.forall_mem_append, List.forall_mem_append, and_assoc]
  have hblank : ∀ line ∈ ([[]] : List ScreenLine), line.Clear width.toNat :=
    List.forall_mem_singleton.mpr (ScreenLine.clear_nil _)
  refine and_congr ?_ (and_congr ?_ ?_)
  · cases view.assistantStreaming with
    | none => simp
    | some streaming =>
        simp only [List.forall_mem_append, and_iff_left hblank, clear_preview_iff hwidth,
          Option.some.injEq, forall_eq']
  · cases view.activeOverlay with
    | none => simp
    | some panel =>
        have hsound := view.sound_panelRows hwidth panel terminalHeight
        rw [List.forall_mem_cons, and_iff_right (clear_header hwidth panel), List.forall_mem_append,
          and_iff_left hblank, List.forall_mem_map]
        simp only [Option.some.injEq, forall_eq']
        exact forall₂_congr fun row hrow => PanelRow.clear_line_iff hwidth (hsound row hrow)
  · cases happrovals : view.pendingApprovals with
    | nil => simp
    | cons first rest =>
        have hnotice := view.clear_approvalNotice_iff width.toNat
        rw [happrovals] at hnotice
        rw [if_neg (by simp), List.forall_mem_singleton, hnotice]
        exact ⟨fun h _ => h, fun h => h (List.cons_ne_nil _ _)⟩

theorem prompts_rule (width : Nat) : ScreenLine.prompts [repeatChar '─' width] = false := by
  have hchars : (repeatChar '─' width).toList = List.replicate width '─' := String.toList_ofList
  rw [ScreenLine.prompts_singleton, hchars]
  cases width with
  | zero => rfl
  | succ width =>
      rw [List.replicate_succ]
      rfl

theorem cursorColumn_lt {width : UInt16} (hwidth : 60 ≤ width.toNat) : view.cursorColumn width < width := by
  have hlt := width.toNat_lt
  rw [cursorColumn, UInt16.lt_iff_toNat_lt, UInt16.toNat_ofNat']
  omega

/-- The geometry of the live region is right exactly when everything it shows fits the screen. -/
theorem liveGeometry_iff (width terminalHeight : UInt16) (hwidth : 60 ≤ width.toNat) :
    view.LiveGeometry width terminalHeight ↔ view.FitsScreen width terminalHeight := by
  have habove := view.clear_aboveComposer_iff hwidth terminalHeight
  have hstatus := view.fits_statusBar_iff width.toNat
  have hlength := view.length_aboveComposer width terminalHeight
  have hinput : (view.composerInputLine width.toNat).prompts = true := rfl
  have hoffset := @inputLineOffset_iff _ [[repeatChar '─' width.toNat], view.statusBar width.toNat] _ _
    hlength (prompts_rule width.toNat) hinput
  have hcomposer : (∀ line ∈ view.composerLines width.toNat, line.Fits width.toNat) ↔
      (view.statusBar width.toNat).Fits width.toNat := by
    simp only [composerLines, List.forall_mem_cons, and_iff_right (fits_rule width.toNat),
      and_iff_right (view.fits_composerInputLine hwidth), and_iff_left (List.forall_mem_nil _)]
  constructor
  · intro h
    obtain ⟨hfits, hbar⟩ := List.forall_mem_append.mp h.lines
    have hquiet := hoffset.mp h.offset
    obtain ⟨hpreview, hpanel, happrovals⟩ := habove.mp fun line hline => ⟨hfits line hline, hquiet line hline⟩
    exact ⟨hpreview, hpanel, happrovals, hstatus.mp (hcomposer.mp hbar)⟩
  · intro h
    have hclear := habove.mpr ⟨h.preview, h.panel, h.approvals⟩
    have hlines : ∀ line ∈ view.liveRegionLines width terminalHeight, line.Fits width.toNat :=
      List.forall_mem_append.mpr
        ⟨fun line hline => (hclear line hline).1, hcomposer.mpr (hstatus.mpr h.status)⟩
    refine ⟨hlines, ?_, hoffset.mpr fun line hline => (hclear line hline).2, view.cursorColumn_lt hwidth⟩
    rw [rowsDrawn_of_fits hlines, liveRegionHeight, UInt16.toNat_ofNat']
    have hcount : (view.liveRegionLines width terminalHeight).length =
        (view.aboveComposer width terminalHeight).length + 4 := List.length_append
    omega

/-- A client that has just been started, while a reply comes in. -/
def replying (streaming statusLine : String) : TerminalView :=
  { ViewModel.default with
    assistantStreaming := some streaming, statusLine := statusLine, topics := [], recallHits := []
    sessionView := none, evidenceView := none, modelStatus := none, runtimeSandbox := none
    runtimeApprovalPolicy := none, inputBuffer := "", activeOverlay := none, commandSuggestions := []
    selectedCommandIndex := 0, selectedSandboxIndex := 0, selectedPermissionIndex := 0
    configPath := "", configDraft := .default, authProfiles := [], slashMode := false }

theorem liveGeometry_replying : (replying "Streaming response" "liz is replying").LiveGeometry 80 24 := by
  refine (liveGeometry_iff _ 80 24 (by decide)).mpr ⟨?_, ?_, fun h => absurd rfl h, ?_⟩
  · intro streaming hstreaming words hwords
    obtain rfl : "Streaming response" = streaming := Option.some.inj hstreaming
    have hlines : previewWords "Streaming response" (80 : UInt16).toNat = [["Streaming", "response"]] := by
      decide +kernel
    rw [hlines] at hwords
    obtain rfl := List.mem_singleton.mp hwords
    exact ⟨List.forall_mem_cons.mpr ⟨by decide +kernel, List.forall_mem_singleton.mpr (by decide +kernel)⟩,
      by
        show ¬ "Streaming" = "❯"
        decide⟩
  · intro panel hpanel
    cases hpanel
  · rw [breaks_iff, breaks_iff]
    decide +kernel

/-- A reply that begins like a prompt is taken for the composer, a word without spaces is not broken,
and a status of two lines is drawn as two. -/
theorem live_region_misplaced :
    inputLineOffset ((replying "❯ ls" "liz is replying").liveRegionLines 60 24) = 0 ∧
      ¬ (replying "❯ ls" "liz is replying").LiveGeometry 60 24 ∧
      ¬ (replying (repeatChar 'x' 80) "liz is replying").LiveGeometry 60 24 ∧
      ¬ (replying "" "one\ntwo").LiveGeometry 60 24 ∧
      ¬ ∀ (view : TerminalView) (width terminalHeight : UInt16), 60 ≤ width.toNat →
        view.LiveGeometry width terminalHeight := by
  have hprompt : ¬ (replying "❯ ls" "liz is replying").LiveGeometry 60 24 := by
    intro h
    have hoffset := h.offset
    revert hoffset
    decide +kernel
  refine ⟨by decide +kernel, hprompt, fun h => ?_, fun h => ?_, fun h => hprompt (h _ 60 24 (by decide))⟩
  · have hline := h.lines ["● ", repeatChar 'x' 80] (by decide +kernel)
    exact absurd hline.2 (by decide +kernel)
  · have hline := h.lines _ (List.mem_append_right _ (List.mem_cons_of_mem _ (List.mem_cons_of_mem _
      (List.mem_cons_of_mem _ List.mem_cons_self))))
    exact absurd hline.1 (by decide +kernel)

end TerminalView

end Liz
