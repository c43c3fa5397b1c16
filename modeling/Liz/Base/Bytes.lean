import Liz.Base.Text

/-!
# Bytes

A text as its UTF-8 bytes, and bytes as lines. A prefix of the bytes of a text that is UTF-8 by
itself is the bytes of a prefix of the text, so a cut in the middle of a character is noticed when
the bytes are read.
-/

abbrev Bytes := List UInt8

namespace Bytes

def ofText (text : String) : Bytes := text.toList.flatMap String.utf8EncodeChar

/-- The text of bytes that are UTF-8. -/
def toText (bytes : Bytes) : Option String := String.fromUTF8? bytes.toByteArray

def newline : UInt8 := 10

def carriageReturn : UInt8 := 13

/-- The lines with their line breaks; the last one may have none. -/
def lines : Bytes → List Bytes
  | [] => []
  | byte :: rest =>
      if byte = newline then [byte] :: lines rest
      else
        match lines rest with
        | [] => [[byte]]
        | line :: others => (byte :: line) :: others

/-- A line without its line break. -/
def chomp (line : Bytes) : Bytes :=
  if line.getLast? = some newline then
    let text := line.dropLast
    if text.getLast? = some carriageReturn then text.dropLast else text
  else line

/-- The text from a byte on. There is none when the byte is within a character or past the end. -/
def sliceFrom (text : String) (start : Nat) : Option String :=
  if h : (String.Pos.Raw.mk start).IsValid text then
    some (.ofByteArray (text.toByteArray.extract start text.utf8ByteSize)
      h.isValidUTF8_extract_utf8ByteSize)
  else none

/-- The text up to a byte. There is none when the byte is within a character or past the end. -/
def sliceTo (text : String) (stop : Nat) : Option String :=
  if h : (String.Pos.Raw.mk stop).IsValid text then
    some (.ofByteArray (text.toByteArray.extract 0 stop) h.isValidUTF8_extract_zero)
  else none

/-- The byte at which the pattern is found first. -/
def find? (text pattern : String) : Option Nat :=
  (Text.breakOn text pattern).map fun parts => parts.1.utf8ByteSize

/-- The text without the bytes of a range. There is none when the range cuts through a character or
ends before it starts. -/
def removeRange (text : String) (start stop : Nat) : Option String := do
  let before ← sliceTo text start
  let after ← sliceFrom text stop
  if start ≤ stop then some (before ++ after) else none

/-! ### UTF-8 -/

theorem toByteArray_ofText (text : String) : (ofText text).toByteArray = text.toByteArray := by
  rw [← String.utf8Encode_toList]
  rfl

theorem toText_ofText (text : String) : toText (ofText text) = some text := by
  rw [toText, toByteArray_ofText, String.fromUTF8?, dif_pos text.isValidUTF8]
  rfl

theorem ofText_of_toText {bytes : Bytes} {text : String} (h : toText bytes = some text) :
    ofText text = bytes := by
  apply List.toByteArray_inj.mp
  rw [toByteArray_ofText]
  unfold toText String.fromUTF8? at h
  split at h
  next => rw [← Option.some.inj h]; rfl
  next => exact absurd h (by simp)

theorem ofText_inj {text other : String} : ofText text = ofText other ↔ text = other := by
  constructor
  · intro h
    exact Option.some.inj ((toText_ofText text).symm.trans ((congrArg toText h).trans
      (toText_ofText other)))
  · rintro rfl
    rfl

/-- What is read of a part of a text's bytes is a part of the text. -/
theorem prefix_of_toText {piece : Bytes} {text whole : String} (hpiece : piece <+: ofText whole)
    (htext : toText piece = some text) : text.toList <+: whole.toList := by
  obtain ⟨rest, hrest⟩ := hpiece
  apply List.isPrefix_of_utf8Encode_append_eq_utf8Encode rest.toByteArray
  rw [String.utf8Encode_toList, String.utf8Encode_toList, ← toByteArray_ofText,
    ← toByteArray_ofText, ofText_of_toText htext, ← hrest]
  simp

/-- A text ends on a boundary of whatever it is continued to. -/
theorem isValid_append (before after : String) :
    (String.Pos.Raw.mk before.utf8ByteSize).IsValid (before ++ after) :=
  String.Pos.Raw.isValid_iff_exists_append.mpr ⟨before, after, rfl, rfl⟩

theorem sliceFrom_append (before after : String) :
    sliceFrom (before ++ after) before.utf8ByteSize = some after := by
  rw [sliceFrom, dif_pos (isValid_append before after)]
  congr 1
  apply String.toByteArray_inj.mp
  show (before ++ after).toByteArray.extract _ _ = after.toByteArray
  rw [String.toByteArray_append]
  apply ByteArray.extract_append_eq_right
  · exact String.size_toByteArray.symm
  · rw [String.utf8ByteSize_append, String.size_toByteArray, String.size_toByteArray]

example : sliceFrom "aé" 2 = none := by decide

theorem sliceTo_append (before after : String) :
    sliceTo (before ++ after) before.utf8ByteSize = some before := by
  rw [sliceTo, dif_pos (isValid_append before after)]
  congr 1
  apply String.toByteArray_inj.mp
  show (before ++ after).toByteArray.extract _ _ = before.toByteArray
  rw [String.toByteArray_append]
  exact ByteArray.extract_append_eq_left String.size_toByteArray.symm

theorem removeRange_append (before middle after : String) :
    removeRange (before ++ (middle ++ after)) before.utf8ByteSize
      (before.utf8ByteSize + middle.utf8ByteSize) = some (before ++ after) := by
  have hafter : sliceFrom (before ++ (middle ++ after))
      (before.utf8ByteSize + middle.utf8ByteSize) = some after := by
    rw [← String.append_assoc, ← String.utf8ByteSize_append]
    exact sliceFrom_append (before ++ middle) after
  rw [removeRange, sliceTo_append, hafter]
  exact if_pos (Nat.le_add_right _ _)

/-- So many bytes of the text have been delivered, in these pieces. -/
def Delivered (text : String) (pieces : List String) (size : Nat) : Prop :=
  ∃ rest, text = String.join pieces ++ rest ∧ size = (String.join pieces).utf8ByteSize

namespace Delivered

variable {text : String} {pieces : List String} {size : Nat}

theorem none (text : String) : Delivered text [] 0 := ⟨text, String.empty_append.symm, rfl⟩

theorem isValid (h : Delivered text pieces size) : (String.Pos.Raw.mk size).IsValid text := by
  obtain ⟨rest, rfl, rfl⟩ := h
  exact isValid_append (String.join pieces) rest

/-- A text that grows at its end keeps what has been delivered of it. -/
theorem append (h : Delivered text pieces size) (more : String) :
    Delivered (text ++ more) pieces size := by
  obtain ⟨rest, htext, hsize⟩ := h
  exact ⟨rest ++ more, by rw [htext, String.append_assoc], hsize⟩

/-- With the text from there on, the pieces are the whole text. -/
theorem join_concat (h : Delivered text pieces size) :
    String.join (pieces ++ [(sliceFrom text size).getD ""]) = text := by
  obtain ⟨rest, rfl, rfl⟩ := h
  rw [sliceFrom_append, String.join_append]
  simp

theorem of_join_eq (h : String.join pieces = text) : Delivered text pieces text.utf8ByteSize :=
  ⟨"", by rw [h, String.append_empty], by rw [h]⟩

end Delivered

/-- A byte of ASCII is a character of the text. -/
theorem exists_mem_of_ascii {byte : UInt8} (hascii : byte.toNat < 128) {text : String}
    (h : byte ∈ ofText text) : ∃ c ∈ text.toList, c.toNat = byte.toNat := by
  obtain ⟨c, hc, hbyte⟩ := List.mem_flatMap.mp h
  refine ⟨c, hc, ?_⟩
  change c.val.toNat = byte.toNat
  have hvalue : ∀ n, byte = UInt8.ofNat n → byte.toNat = n % 256 := by
    rintro n rfl
    exact UInt8.toNat_ofNat'
  unfold String.utf8EncodeChar at hbyte
  dsimp only at hbyte
  split at hbyte
  next hone =>
    have hsingle := hvalue _ (List.mem_singleton.mp hbyte)
    omega
  next =>
    -- every byte of a longer sequence is 128 or more
    split at hbyte
    next =>
      simp only [List.mem_cons, List.not_mem_nil, or_false] at hbyte
      rcases hbyte with hbyte | hbyte <;> have := hvalue _ hbyte <;> omega
    next =>
      split at hbyte
      next =>
        simp only [List.mem_cons, List.not_mem_nil, or_false] at hbyte
        rcases hbyte with hbyte | hbyte | hbyte <;> have := hvalue _ hbyte <;> omega
      next =>
        simp only [List.mem_cons, List.not_mem_nil, or_false] at hbyte
        rcases hbyte with hbyte | hbyte | hbyte | hbyte <;> have := hvalue _ hbyte <;> omega

theorem newline_not_mem_ofText {text : String} (h : '\n' ∉ text.toList) :
    newline ∉ ofText text := by
  intro hmem
  obtain ⟨c, hc, hvalue⟩ := exists_mem_of_ascii (by decide) hmem
  obtain rfl : c = '\n' := Char.toNat_inj.mp hvalue
  exact h hc

theorem carriageReturn_not_mem_ofText {text : String} (h : '\r' ∉ text.toList) :
    carriageReturn ∉ ofText text := by
  intro hmem
  obtain ⟨c, hc, hvalue⟩ := exists_mem_of_ascii (by decide) hmem
  obtain rfl : c = '\r' := Char.toNat_inj.mp hvalue
  exact h hc

/-! ### Lines -/

theorem lines_append {line : Bytes} (h : newline ∉ line) (rest : Bytes) :
    lines (line ++ newline :: rest) = (line ++ [newline]) :: lines rest := by
  induction line with
  | nil => rfl
  | cons byte others ih =>
      rw [List.mem_cons, not_or] at h
      rw [List.cons_append, lines, if_neg (Ne.symm h.1), ih h.2]
      rfl

/-- Bytes without a line break are one line. -/
theorem lines_eq_singleton {piece : Bytes} (h : newline ∉ piece) (hne : piece ≠ []) :
    lines piece = [piece] := by
  induction piece with
  | nil => exact absurd rfl hne
  | cons byte others ih =>
      rw [List.mem_cons, not_or] at h
      rw [lines, if_neg (Ne.symm h.1)]
      cases others with
      | nil => rfl
      | cons next rest => rw [ih h.2 (List.cons_ne_nil _ _)]

theorem chomp_append {line : Bytes} (h : carriageReturn ∉ line) : chomp (line ++ [newline]) = line := by
  have hlast : line.getLast? ≠ some carriageReturn := fun hlast => h (List.mem_of_getLast? hlast)
  simp [chomp, hlast]

theorem chomp_eq_self {piece : Bytes} (h : newline ∉ piece) : chomp piece = piece :=
  if_neg fun hlast => h (List.mem_of_getLast? hlast)

end Bytes
