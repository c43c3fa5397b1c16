import Liz.Base.Bytes

/-!
# Bytes that may not be UTF-8

Bytes read as text one after the other, with a replacement character for each sequence that does not
become a character. A text that arrives in pieces, each of them read by itself, is the text of all
the bytes exactly when no piece ends within a sequence that the next one continues. Otherwise it is
longer.
-/

namespace Bytes

def replacement : Char := Char.ofNat 0xFFFD

/-- A character of which some bytes have been read. -/
structure Unfinished where
  value : Nat
  /-- How many bytes come after the next one. -/
  later : Nat
  /-- The least and the greatest byte that may come next. -/
  least : Nat
  greatest : Nat
  least_le : 0x80 ≤ least
  greatest_le : greatest ≤ 0xBF
  deriving DecidableEq, Repr

namespace Unfinished

def ContinuedBy (unfinished : Unfinished) (byte : UInt8) : Prop :=
  unfinished.least ≤ byte.toNat ∧ byte.toNat ≤ unfinished.greatest

instance (unfinished : Unfinished) (byte : UInt8) : Decidable (unfinished.ContinuedBy byte) :=
  inferInstanceAs (Decidable (_ ∧ _))

/-- A byte that continues the character gives the character or brings it nearer. -/
def next (unfinished : Unfinished) (byte : UInt8) : List Char × Option Unfinished :=
  let value := unfinished.value * 64 + (byte.toNat - 0x80)
  match unfinished.later with
  | 0 => ([Char.ofNat value], none)
  | later + 1 => ([], some ⟨value, later, 0x80, 0xBF, by decide, by decide⟩)

end Unfinished

/-- The first byte of a character, or one that is none. -/
def first (byte : UInt8) : List Char × Option Unfinished :=
  let n := byte.toNat
  if n < 0x80 then ([Char.ofNat n], none)
  else if n < 0xC2 then ([replacement], none)
  else if n < 0xE0 then ([], some ⟨n - 0xC0, 0, 0x80, 0xBF, by decide, by decide⟩)
  else if n < 0xF0 then
    ([], some ⟨n - 0xE0, 1, if n = 0xE0 then 0xA0 else 0x80, if n = 0xED then 0x9F else 0xBF,
      by split <;> decide, by split <;> decide⟩)
  else if n < 0xF5 then
    ([], some ⟨n - 0xF0, 2, if n = 0xF0 then 0x90 else 0x80, if n = 0xF4 then 0x8F else 0xBF,
      by split <;> decide, by split <;> decide⟩)
  else ([replacement], none)

/-- What one byte makes of what is unfinished: an unfinished character that it does not continue is
replaced, and the byte is read afresh. -/
def push : Option Unfinished → UInt8 → List Char × Option Unfinished
  | none, byte => first byte
  | some unfinished, byte =>
      if unfinished.ContinuedBy byte then unfinished.next byte
      else (replacement :: (first byte).1, (first byte).2)

/-- What is unfinished where the bytes end is replaced. -/
def flush : Option Unfinished → List Char
  | none => []
  | some _ => [replacement]

def decode (unfinished : Option Unfinished) : Bytes → List Char
  | [] => flush unfinished
  | byte :: rest => (push unfinished byte).1 ++ decode (push unfinished byte).2 rest

/-- What is unfinished after the bytes. -/
def unfinishedAfter (unfinished : Option Unfinished) : Bytes → Option Unfinished
  | [] => unfinished
  | byte :: rest => unfinishedAfter (push unfinished byte).2 rest

/-- The characters of the bytes, without what is unfinished after them. -/
def finished (unfinished : Option Unfinished) : Bytes → List Char
  | [] => []
  | byte :: rest => (push unfinished byte).1 ++ finished (push unfinished byte).2 rest

def fromUtf8Lossy (bytes : Bytes) : String := String.ofList (decode none bytes)

/-- The second bytes continue a sequence that the first end in. -/
def Severed (unfinished : Option Unfinished) (read after : Bytes) : Prop :=
  ∃ sequence byte, unfinishedAfter unfinished read = some sequence ∧ after.head? = some byte ∧
    sequence.ContinuedBy byte

/-! ### Pieces -/

theorem decode_append (unfinished : Option Unfinished) (read after : Bytes) :
    decode unfinished (read ++ after) =
      finished unfinished read ++ decode (unfinishedAfter unfinished read) after := by
  induction read generalizing unfinished with
  | nil => rfl
  | cons byte rest ih =>
      rw [List.cons_append, decode, ih, finished, unfinishedAfter, List.append_assoc]

theorem decode_eq (unfinished : Option Unfinished) (read : Bytes) :
    decode unfinished read =
      finished unfinished read ++ flush (unfinishedAfter unfinished read) := by
  have h := decode_append unfinished read []
  rwa [List.append_nil] at h

theorem unfinishedAfter_append (unfinished : Option Unfinished) (read after : Bytes) :
    unfinishedAfter unfinished (read ++ after) =
      unfinishedAfter (unfinishedAfter unfinished read) after := by
  induction read generalizing unfinished with
  | nil => rfl
  | cons byte rest ih => exact ih (push unfinished byte).2

/-- A byte that continues a character begins none. -/
theorem first_of_continuedBy {unfinished : Unfinished} {byte : UInt8}
    (h : unfinished.ContinuedBy byte) : first byte = ([replacement], none) := by
  have hlow : ¬byte.toNat < 0x80 := by
    have := unfinished.least_le
    have := h.1
    omega
  have hhigh : byte.toNat < 0xC2 := by
    have := unfinished.greatest_le
    have := h.2
    omega
  show (if _ then _ else if _ then _ else _) = _
  rw [if_neg hlow, if_pos hhigh]

/-- A sequence that is not continued is replaced where it ends, as at the end of the bytes. -/
theorem decode_of_not_continuedBy {sequence : Unfinished} {byte : UInt8} (rest : Bytes)
    (h : ¬sequence.ContinuedBy byte) :
    decode (some sequence) (byte :: rest) = flush (some sequence) ++ decode none (byte :: rest) := by
  have hpush : push (some sequence) byte = (replacement :: (first byte).1, (first byte).2) :=
    if_neg h
  rw [decode, hpush]
  rfl

/-- What continues a sequence needs fewer characters after it than by itself. -/
theorem length_decode_some (sequence : Unfinished) (bytes : Bytes) :
    (decode (some sequence) bytes).length ≤ (decode none bytes).length + 1 ∧
      ∀ byte rest, bytes = byte :: rest → sequence.ContinuedBy byte →
        (decode (some sequence) bytes).length ≤ (decode none bytes).length := by
  induction bytes generalizing sequence with
  | nil => exact ⟨Nat.le_refl 1, fun byte rest h => nomatch h⟩
  | cons byte rest ih =>
      have hcontinued : sequence.ContinuedBy byte →
          (decode (some sequence) (byte :: rest)).length ≤
            (decode none (byte :: rest)).length := by
        intro h
        have hnone : decode none (byte :: rest) = replacement :: decode none rest := by
          show (first byte).1 ++ decode (first byte).2 rest = _
          rw [first_of_continuedBy h]
          rfl
        have hpush : push (some sequence) byte = sequence.next byte := if_pos h
        rw [hnone, decode, hpush, List.length_append, List.length_cons]
        cases hlater : sequence.later with
        | zero =>
            -- the byte completes the character
            have hnext : sequence.next byte =
                ([Char.ofNat (sequence.value * 64 + (byte.toNat - 0x80))], none) := by
              rw [Unfinished.next, hlater]
            rw [hnext]
            exact Nat.le_of_eq (Nat.add_comm 1 _)
        | succ later =>
            obtain ⟨sequence', hnext⟩ : ∃ sequence', sequence.next byte = ([], some sequence') := by
              rw [Unfinished.next, hlater]
              exact ⟨_, rfl⟩
            have hrest := (ih sequence').1
            rw [hnext, List.length_nil, Nat.zero_add]
            exact hrest
      constructor
      · by_cases h : sequence.ContinuedBy byte
        · exact Nat.le_succ_of_le (hcontinued h)
        · rw [decode_of_not_continuedBy rest h, List.length_append]
          show 1 + _ ≤ _
          omega
      · intro head tail heq h
        obtain ⟨rfl, rfl⟩ := List.cons.inj heq
        exact hcontinued h

theorem decode_some_ne_nil (sequence : Unfinished) (bytes : Bytes) :
    decode (some sequence) bytes ≠ [] := by
  induction bytes generalizing sequence with
  | nil => exact List.cons_ne_nil _ _
  | cons byte rest ih =>
      by_cases h : sequence.ContinuedBy byte
      · have hpush : push (some sequence) byte = sequence.next byte := if_pos h
        rw [decode, hpush, Unfinished.next]
        cases sequence.later with
        | zero => exact List.cons_ne_nil _ _
        | succ later => exact ih _
      · rw [decode_of_not_continuedBy rest h]
        exact List.cons_ne_nil _ _

/-- Some bytes make some text. -/
theorem decode_ne_nil {bytes : Bytes} (h : bytes ≠ []) : decode none bytes ≠ [] := by
  obtain ⟨byte, rest, rfl⟩ := List.exists_cons_of_ne_nil h
  show (first byte).1 ++ decode (first byte).2 rest ≠ []
  intro hnil
  obtain ⟨hfirst, hrest⟩ := List.append_eq_nil_iff.mp hnil
  cases hsequence : (first byte).2 with
  | some sequence => exact decode_some_ne_nil sequence rest (hsequence ▸ hrest)
  | none =>
      -- a byte that begins no sequence is a character or is replaced
      have hboth : first byte = ([], none) := Prod.ext hfirst hsequence
      unfold first at hboth
      dsimp only at hboth
      split_ifs at hboth <;> simp at hboth

/-- Where the bytes do not continue what is unfinished, it is replaced and they are read afresh. -/
theorem afresh {unfinished : Option Unfinished} {bytes : Bytes} (hne : bytes ≠ [])
    (h : ¬Severed unfinished [] bytes) :
    decode unfinished bytes = flush unfinished ++ decode none bytes ∧
      unfinishedAfter unfinished bytes = unfinishedAfter none bytes := by
  cases unfinished with
  | none => exact ⟨rfl, rfl⟩
  | some sequence =>
      obtain ⟨byte, rest, rfl⟩ := List.exists_cons_of_ne_nil hne
      have hcontinued : ¬sequence.ContinuedBy byte := fun hc => h ⟨sequence, byte, rfl, rfl, hc⟩
      have hpush : push (some sequence) byte = (replacement :: (first byte).1, (first byte).2) :=
        if_neg hcontinued
      refine ⟨decode_of_not_continuedBy rest hcontinued, ?_⟩
      rw [unfinishedAfter, hpush]
      rfl

theorem severed_nil_append {unfinished : Option Unfinished} {bytes : Bytes} (hne : bytes ≠ [])
    (rest : Bytes) : Severed unfinished [] (bytes ++ rest) ↔ Severed unfinished [] bytes := by
  obtain ⟨byte, others, rfl⟩ := List.exists_cons_of_ne_nil hne
  rfl

theorem severed_append (unfinished : Option Unfinished) (bytes read after : Bytes) :
    Severed unfinished (bytes ++ read) after ↔
      Severed (unfinishedAfter unfinished bytes) read after := by
  rw [Severed, Severed, unfinishedAfter_append]

/-- Bytes in pieces, with a sequence that is unfinished before them: read as one they are no longer
than read by themselves, and the same exactly when no piece continues what the ones before it end
in. -/
theorem pieces_spec (unfinished : Option Unfinished) (pieces : List Bytes)
    (hne : ∀ piece ∈ pieces, piece ≠ []) :
    (decode unfinished pieces.flatten).length ≤
        (flush unfinished ++ pieces.flatMap (decode none)).length ∧
      (flush unfinished ++ pieces.flatMap (decode none) = decode unfinished pieces.flatten ↔
        ∀ before after, pieces = before ++ after →
          ¬Severed unfinished before.flatten after.flatten) := by
  induction pieces generalizing unfinished with
  | nil =>
      refine ⟨Nat.le_of_eq (congrArg List.length (List.append_nil _).symm), ?_⟩
      have hnot : ∀ before after : List Bytes, [] = before ++ after →
          ¬Severed unfinished before.flatten after.flatten := by
        rintro before after h ⟨sequence, byte, -, hhead, -⟩
        obtain ⟨-, rfl⟩ := List.append_eq_nil_iff.mp h.symm
        exact nomatch hhead
      exact iff_of_true (List.append_nil _) hnot
  | cons piece others ih =>
      have hothers : ∀ piece ∈ others, piece ≠ [] := fun piece h => hne piece (.tail _ h)
      obtain ⟨hlength, hiff⟩ := ih (unfinishedAfter none piece) hothers
      -- read afresh, the first piece gives what it finishes in the whole and then what it ends in
      have hafresh : decode none (piece ++ others.flatten) =
          finished none piece ++ decode (unfinishedAfter none piece) others.flatten :=
        decode_append none piece others.flatten
      have hpieces : (piece :: others).flatMap (decode none) = finished none piece ++
          (flush (unfinishedAfter none piece) ++ others.flatMap (decode none)) := by
        rw [List.flatMap_cons, decode_eq none piece, List.append_assoc]
      have hshort : (decode none (piece ++ others.flatten)).length ≤
          ((piece :: others).flatMap (decode none)).length := by
        rw [hafresh, hpieces, List.length_append, List.length_append]
        omega
      have hpiece : piece ≠ [] := hne piece (.head _)
      have hwhole : piece ++ others.flatten ≠ [] := List.append_ne_nil_of_left_ne_nil hpiece _
      rw [List.flatten_cons]
      by_cases hcut : Severed unfinished [] piece
      · -- the first piece continues what is unfinished, and that needs a character less
        have hless : (decode unfinished (piece ++ others.flatten)).length <
            (flush unfinished ++ (piece :: others).flatMap (decode none)).length := by
          obtain ⟨sequence, byte, hsequence, hhead, hcontinued⟩ := hcut
          obtain rfl : unfinished = some sequence := hsequence
          obtain ⟨rest, rfl⟩ := List.head?_eq_some_iff.mp hhead
          have hsome := (length_decode_some sequence _).2 byte (rest ++ others.flatten) rfl
            hcontinued
          rw [List.length_append]
          show _ < 1 + _
          exact Nat.lt_one_add_iff.mpr (hsome.trans hshort)
        refine ⟨hless.le, iff_of_false (fun heq => ?_) fun hnone => ?_⟩
        · exact absurd (congrArg List.length heq) hless.ne'
        · exact hnone [] _ rfl ((severed_nil_append hpiece _).mpr hcut)
      · have hread := (afresh hwhole fun h => hcut ((severed_nil_append hpiece _).mp h)).1
        rw [hread, hafresh, hpieces]
        constructor
        · simp only [List.length_append] at hlength ⊢
          omega
        rw [List.append_cancel_left_eq, List.append_cancel_left_eq, hiff]
        constructor
        · intro hrest before after heq
          cases before with
          | nil =>
              obtain rfl : piece :: others = after := heq
              exact fun h => hcut ((severed_nil_append hpiece _).mp h)
          | cons head before =>
              obtain ⟨rfl, hothers⟩ := List.cons.inj heq
              rw [List.flatten_cons, severed_append, (afresh hpiece hcut).2]
              exact hrest before after hothers
        · intro hall before after heq
          have h := hall (piece :: before) after (congrArg (piece :: ·) heq)
          rwa [List.flatten_cons, severed_append, (afresh hpiece hcut).2] at h

/-- Pieces read each by itself give the text of the whole exactly when no piece ends within a
sequence that the next one continues. -/
theorem flatMap_decode_eq_iff (pieces : List Bytes) (hne : ∀ piece ∈ pieces, piece ≠ []) :
    pieces.flatMap (decode none) = decode none pieces.flatten ↔
      ∀ before after, pieces = before ++ after → ¬Severed none before.flatten after.flatten :=
  (pieces_spec none pieces hne).2

end Bytes
