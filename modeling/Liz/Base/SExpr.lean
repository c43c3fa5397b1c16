import Mathlib.Data.List.Basic
import Mathlib.Tactic.Common

/-!
# Reading S-expressions

A text is read character by character into atoms, strings and lists. A string stands between quotes,
and a backslash in it takes the next character out of the syntax. Whatever a string has of quotes and
backslashes has cost the text backslashes: one for each quote, and two for each backslash.
-/

inductive SExpr
  | atom (name : List Char)
  | text (chars : List Char)
  | list (items : List SExpr)

namespace SExpr

/-- What is being read. -/
inductive Token
  | gap
  | atom (read : List Char)
  | text (read : List Char)
  | escape (read : List Char)

/-- The items of the innermost open list, of those around it, and what is being read. -/
structure Reader where
  items : List SExpr
  outer : List (List SExpr)
  token : Token

namespace Reader

def start : Reader := ⟨[], [], .gap⟩

def add (reader : Reader) (item : SExpr) : Reader :=
  ⟨reader.items ++ [item], reader.outer, .gap⟩

/-- The atom that is being read ends. -/
def endAtom (reader : Reader) : Reader :=
  match reader.token with
  | .atom read => reader.add (.atom read)
  | _ => reader

/-- What a character behind a backslash stands for. -/
def unescape (c : Char) : Char :=
  if c = 'n' then '\n' else if c = 't' then '\t' else if c = 'r' then '\r' else c

/-- One character outside of strings. -/
def outside (reader : Reader) (c : Char) : Option Reader :=
  if c = '"' then some { reader.endAtom with token := .text [] }
  else if c = '(' then some ⟨[], reader.endAtom.items :: reader.endAtom.outer, .gap⟩
  else if c = ')' then
    match reader.endAtom.outer with
    | [] => none
    | around :: outer => some ⟨around ++ [.list reader.endAtom.items], outer, .gap⟩
  else if c.isWhitespace then some reader.endAtom
  else
    match reader.token with
    | .atom read => some { reader with token := .atom (read ++ [c]) }
    | _ => some { reader with token := .atom [c] }

def step (reader : Reader) (c : Char) : Option Reader :=
  match reader.token with
  | .text read =>
      if c = '"' then some (reader.add (.text read))
      else if c = '\\' then some { reader with token := .escape read }
      else some { reader with token := .text (read ++ [c]) }
  | .escape read => some { reader with token := .text (read ++ [unescape c]) }
  | _ => reader.outside c

/-- The items, if no list and no string is open. -/
def finish (reader : Reader) : Option (List SExpr) :=
  match reader.endAtom with
  | ⟨items, [], .gap⟩ => some items
  | _ => none

end Reader

/-- The S-expressions of a text. -/
def read (text : List Char) : Option (List SExpr) :=
  (text.foldlM Reader.step Reader.start).bind Reader.finish

/-! ### Plain strings -/

/-- A text without quotes and backslashes. -/
def Plain (chars : List Char) : Prop := '"' ∉ chars ∧ '\\' ∉ chars

instance (chars : List Char) : Decidable (Plain chars) := inferInstanceAs (Decidable (_ ∧ _))

namespace Reader

/-- Plain characters in a string stand for themselves. -/
theorem foldlM_plain {chars : List Char} (h : Plain chars) (items : List SExpr)
    (outer : List (List SExpr)) (read : List Char) :
    chars.foldlM step ⟨items, outer, .text read⟩ = some ⟨items, outer, .text (read ++ chars)⟩ := by
  induction chars generalizing read with
  | nil => simp
  | cons c rest ih =>
      obtain ⟨hquote, hescape⟩ := h
      rw [List.mem_cons, not_or] at hquote hescape
      have hstep : step ⟨items, outer, .text read⟩ c =
          some ⟨items, outer, .text (read ++ [c])⟩ := by
        simp [step, Ne.symm hquote.1, Ne.symm hescape.1]
      rw [List.foldlM_cons, hstep]
      show rest.foldlM step ⟨items, outer, .text (read ++ [c])⟩ = _
      rw [ih ⟨hquote.2, hescape.2⟩, List.append_assoc, List.singleton_append]

end Reader

/-! ### Reading what is printed -/

mutual

/-- The text of an item; a string stands between its quotes as it is. -/
def print : SExpr → List Char
  | atom name => name
  | text chars => '"' :: (chars ++ ['"'])
  | list items => '(' :: (printItems items ++ [')'])

/-- The items with blanks between them. -/
def printItems : List SExpr → List Char
  | [] => []
  | [item] => print item
  | item :: rest => print item ++ ' ' :: printItems rest

end

/-- A character that atoms are made of. -/
def AtomChar (c : Char) : Prop := c ≠ '"' ∧ c ≠ '(' ∧ c ≠ ')' ∧ c.isWhitespace = false

instance (c : Char) : Decidable (AtomChar c) := inferInstanceAs (Decidable (_ ∧ _))

mutual

/-- Its atoms are words, and its strings are plain. -/
def printable : SExpr → Bool
  | atom name => !name.isEmpty && name.all fun c => AtomChar c
  | text chars => Plain chars
  | list items => printableItems items

def printableItems : List SExpr → Bool
  | [] => true
  | item :: rest => printable item && printableItems rest

end

namespace Reader

/-- The reader has read these items, perhaps up to the end of an atom. -/
def Has (reader : Reader) (items : List SExpr) (outer : List (List SExpr)) : Prop :=
  reader = ⟨items, outer, .gap⟩ ∨
    ∃ before name, items = before ++ [.atom name] ∧ reader = ⟨before, outer, .atom name⟩

variable {reader : Reader} {items : List SExpr} {outer : List (List SExpr)}

theorem Has.endAtom (h : reader.Has items outer) : reader.endAtom = ⟨items, outer, .gap⟩ := by
  rcases h with rfl | ⟨before, name, rfl, rfl⟩ <;> rfl

/-- Outside of strings, what is not part of an atom ends it. -/
theorem Has.step_eq (h : reader.Has items outer) {c : Char} (hc : ¬ AtomChar c) :
    reader.step c = Reader.step ⟨items, outer, .gap⟩ c := by
  rcases h with rfl | ⟨before, name, rfl, rfl⟩
  · rfl
  · show Reader.outside _ c = Reader.outside _ c
    unfold outside
    by_cases hquote : c = '"'
    · rw [if_pos hquote, if_pos hquote]
      rfl
    by_cases hopen : c = '('
    · rw [if_neg hquote, if_neg hquote, if_pos hopen, if_pos hopen]
      rfl
    by_cases hclose : c = ')'
    · rw [if_neg hquote, if_neg hquote, if_neg hopen, if_neg hopen, if_pos hclose, if_pos hclose]
      rfl
    by_cases hspace : c.isWhitespace = true
    · rw [if_neg hquote, if_neg hquote, if_neg hopen, if_neg hopen, if_neg hclose, if_neg hclose,
        if_pos hspace, if_pos hspace]
      rfl
    · exact absurd ⟨hquote, hopen, hclose, by simpa using hspace⟩ hc

theorem step_atomChar {c : Char} (h : AtomChar c) (items : List SExpr) (outer : List (List SExpr)) :
    step ⟨items, outer, .gap⟩ c = some ⟨items, outer, .atom [c]⟩ ∧
      ∀ name, step ⟨items, outer, .atom name⟩ c = some ⟨items, outer, .atom (name ++ [c])⟩ := by
  obtain ⟨hquote, hopen, hclose, hspace⟩ := h
  simp [step, outside, hquote, hopen, hclose, hspace]

theorem foldlM_atomChars {chars : List Char} (h : ∀ c ∈ chars, AtomChar c) (items : List SExpr)
    (outer : List (List SExpr)) (name : List Char) :
    chars.foldlM step ⟨items, outer, .atom name⟩ = some ⟨items, outer, .atom (name ++ chars)⟩ := by
  induction chars generalizing name with
  | nil => simp
  | cons c rest ih =>
      rw [List.forall_mem_cons] at h
      rw [List.foldlM_cons, (step_atomChar h.1 items outer).2]
      show rest.foldlM step ⟨items, outer, .atom (name ++ [c])⟩ = _
      rw [ih h.2, List.append_assoc, List.singleton_append]

theorem foldlM_text {chars : List Char} (h : Plain chars) (items : List SExpr)
    (outer : List (List SExpr)) :
    ('"' :: (chars ++ ['"'])).foldlM step ⟨items, outer, .gap⟩ =
      some ⟨items ++ [.text chars], outer, .gap⟩ := by
  rw [List.foldlM_cons]
  show (chars ++ ['"']).foldlM step ⟨items, outer, .text []⟩ = _
  rw [List.foldlM_append, foldlM_plain h]
  rfl

end Reader

open Reader

mutual

/-- An item that is printed is read. -/
theorem foldlM_print : ∀ item : SExpr, item.printable = true → ∀ items outer,
    ∃ reader, item.print.foldlM step ⟨items, outer, .gap⟩ = some reader ∧
      reader.Has (items ++ [item]) outer
  | atom name, hname, items, outer => by
      simp only [printable, Bool.and_eq_true, Bool.not_eq_true', List.isEmpty_eq_false_iff,
        List.all_eq_true, decide_eq_true_eq] at hname
      obtain ⟨hne, hall⟩ := hname
      obtain ⟨c, rest, rfl⟩ := List.exists_cons_of_ne_nil hne
      rw [List.forall_mem_cons] at hall
      refine ⟨⟨items, outer, .atom (c :: rest)⟩, ?_, .inr ⟨items, c :: rest, rfl, rfl⟩⟩
      rw [print, List.foldlM_cons, (step_atomChar hall.1 items outer).1]
      exact foldlM_atomChars hall.2 items outer [c]
  | text chars, hchars, items, outer =>
      ⟨_, foldlM_text (of_decide_eq_true hchars) items outer, .inl rfl⟩
  | list inner, hinner, items, outer => by
      obtain ⟨reader, hread, hhas⟩ := foldlM_printItems inner hinner [] (items :: outer)
      refine ⟨⟨items ++ [list inner], outer, .gap⟩, ?_, .inl rfl⟩
      rw [print, List.foldlM_cons]
      show (printItems inner ++ [')']).foldlM step ⟨[], items :: outer, .gap⟩ = _
      rw [List.foldlM_append, hread]
      show [')'].foldlM step reader = _
      rw [List.foldlM_cons, hhas.step_eq (by decide)]
      rfl

theorem foldlM_printItems : ∀ inner : List SExpr, printableItems inner = true → ∀ items outer,
    ∃ reader, (printItems inner).foldlM step ⟨items, outer, .gap⟩ = some reader ∧
      reader.Has (items ++ inner) outer
  | [], _, items, outer => ⟨⟨items, outer, .gap⟩, rfl, .inl (by rw [List.append_nil])⟩
  | [item], hitem, items, outer => by
      rw [printableItems, Bool.and_eq_true] at hitem
      exact foldlM_print item hitem.1 items outer
  | item :: next :: rest, hitems, items, outer => by
      rw [printableItems, Bool.and_eq_true] at hitems
      obtain ⟨middle, hfirst, hmiddle⟩ := foldlM_print item hitems.1 items outer
      obtain ⟨reader, hrest, hreader⟩ :=
        foldlM_printItems (next :: rest) hitems.2 (items ++ [item]) outer
      refine ⟨reader, ?_, by simpa using hreader⟩
      rw [printItems, List.foldlM_append, hfirst]
      · show (' ' :: printItems (next :: rest)).foldlM step middle = _
        rw [List.foldlM_cons, hmiddle.step_eq (by decide)]
        exact hrest
      · simp

end

/-- Items on lines of their own. -/
def printLines (items : List SExpr) : List Char := items.flatMap fun item => item.print ++ ['\n']

/-- What is printed is read back. -/
theorem read_printLines {items : List SExpr} (h : ∀ item ∈ items, item.printable = true) :
    read (printLines items) = some items := by
  have hlines : ∀ before, (printLines items).foldlM step ⟨before, [], .gap⟩ =
      some ⟨before ++ items, [], .gap⟩ := by
    induction items with
    | nil => intro before; simp [printLines]
    | cons item rest ih =>
        intro before
        rw [List.forall_mem_cons] at h
        obtain ⟨reader, hread, hhas⟩ := foldlM_print item h.1 before []
        have hmore := ih h.2 (before ++ [item])
        rw [List.append_assoc, List.singleton_append] at hmore
        rw [printLines, List.flatMap_cons, List.append_assoc, List.foldlM_append, hread]
        show ('\n' :: printLines rest).foldlM step reader = _
        rw [List.foldlM_cons, hhas.step_eq (by decide)]
        exact hmore
  rw [read, start, hlines, List.nil_append]
  rfl

/-! ### What quotes and backslashes cost -/

/-- One backslash for a quote, and two for a backslash. -/
def cost (chars : List Char) : Nat := 2 * chars.count '\\' + chars.count '"'

theorem cost_append (chars others : List Char) : cost (chars ++ others) = cost chars + cost others := by
  simp only [cost, List.count_append]
  omega

theorem cost_singleton_of_ne {c : Char} (hescape : c ≠ '\\') (hquote : c ≠ '"') : cost [c] = 0 := by
  simp [cost, hescape, hquote]

theorem cost_eq_zero_iff {chars : List Char} : cost chars = 0 ↔ Plain chars := by
  rw [cost, Plain, ← List.count_eq_zero, ← List.count_eq_zero]
  omega

mutual

/-- What the strings of an item have cost. -/
def costOf : SExpr → Nat
  | atom _ => 0
  | text chars => cost chars
  | list items => costOfItems items

def costOfItems : List SExpr → Nat
  | [] => 0
  | item :: rest => costOf item + costOfItems rest

end

theorem costOfItems_append (items others : List SExpr) :
    costOfItems (items ++ others) = costOfItems items + costOfItems others := by
  induction items with
  | nil => simp [costOfItems]
  | cons item rest ih => simp [costOfItems, ih, Nat.add_assoc]

theorem costOfItems_concat (items : List SExpr) (item : SExpr) :
    costOfItems (items ++ [item]) = costOfItems items + costOf item := by
  rw [costOfItems_append, costOfItems, costOfItems, Nat.add_zero]

namespace Reader

def tokenCost : Token → Nat
  | .text read => cost read
  | .escape read => cost read + 1
  | _ => 0

def outerCost : List (List SExpr) → Nat
  | [] => 0
  | items :: outer => costOfItems items + outerCost outer

/-- What has been read so far has cost. -/
def spent (reader : Reader) : Nat :=
  costOfItems reader.items + outerCost reader.outer + tokenCost reader.token

theorem spent_endAtom (reader : Reader) : reader.endAtom.spent = reader.spent := by
  obtain ⟨items, outer, token⟩ := reader
  cases token <;> simp [endAtom, add, spent, tokenCost, costOfItems_concat, costOf]

theorem cost_unescape (c : Char) : cost [unescape c] ≤ 1 + [c].count '\\' := by
  have hcontrol : ∀ d, d ≠ '\\' → d ≠ '"' → cost [d] ≤ 1 + [c].count '\\' := by
    intro d hescape hquote
    rw [cost_singleton_of_ne hescape hquote]
    exact Nat.zero_le _
  unfold unescape
  split
  · exact hcontrol _ (by decide) (by decide)
  split
  · exact hcontrol _ (by decide) (by decide)
  split
  · exact hcontrol _ (by decide) (by decide)
  by_cases hescape : c = '\\'
  · subst hescape
    decide
  · by_cases hquote : c = '"'
    · subst hquote
      decide
    · rw [cost_singleton_of_ne hescape hquote]
      exact Nat.zero_le _

theorem spent_outside {reader next : Reader} {c : Char} (htoken : tokenCost reader.token = 0)
    (h : reader.outside c = some next) : next.spent ≤ reader.spent := by
  have hend := reader.spent_endAtom
  unfold outside at h
  split at h
  · obtain rfl := Option.some.inj h
    simp only [spent, tokenCost] at hend ⊢
    have hempty : cost [] = 0 := rfl
    omega
  split at h
  · obtain rfl := Option.some.inj h
    simp only [spent, tokenCost, costOfItems, outerCost] at hend ⊢
    omega
  split at h
  · cases houter : reader.endAtom.outer with
    | nil =>
        rw [houter] at h
        cases h
    | cons around outer =>
        rw [houter] at h
        obtain rfl := Option.some.inj h
        simp only [spent, houter, outerCost] at hend
        simp only [spent, tokenCost, costOfItems_concat, costOf]
        omega
  split at h
  · obtain rfl := Option.some.inj h
    exact Nat.le_of_eq hend
  · have hatom : ∀ read, next = { reader with token := .atom read } → next.spent ≤ reader.spent := by
      rintro read rfl
      simp only [spent, tokenCost]
      omega
    split at h
    · exact hatom _ (Option.some.inj h).symm
    · exact hatom _ (Option.some.inj h).symm

/-- A character spends no more than it is a backslash. -/
theorem spent_step {reader next : Reader} {c : Char} (h : reader.step c = some next) :
    next.spent ≤ reader.spent + [c].count '\\' := by
  obtain ⟨items, outer, token⟩ := reader
  unfold step at h
  cases token with
  | gap => exact Nat.le_trans (spent_outside rfl h) (Nat.le_add_right _ _)
  | atom read => exact Nat.le_trans (spent_outside rfl h) (Nat.le_add_right _ _)
  | text read =>
      dsimp only at h
      split at h
      · obtain rfl := Option.some.inj h
        simp only [spent, add, tokenCost, costOfItems_concat, costOf]
        omega
      split at h
      · obtain rfl := Option.some.inj h
        have hone : [c].count '\\' = 1 := by simp [*]
        simp only [spent, tokenCost]
        omega
      · obtain rfl := Option.some.inj h
        have hnothing : cost [c] = 0 := cost_singleton_of_ne ‹_› ‹_›
        simp only [spent, tokenCost, cost_append]
        omega
  | escape read =>
      obtain rfl := Option.some.inj h
      have hone := cost_unescape c
      simp only [spent, tokenCost, cost_append]
      omega

theorem spent_foldlM {text : List Char} {reader last : Reader}
    (h : text.foldlM step reader = some last) : last.spent ≤ reader.spent + text.count '\\' := by
  induction text generalizing reader with
  | nil =>
      obtain rfl := Option.some.inj h
      exact Nat.le_add_right _ _
  | cons c rest ih =>
      rw [List.foldlM_cons] at h
      obtain ⟨next, hnext, hrest⟩ := Option.bind_eq_some_iff.mp h
      have hfirst := spent_step hnext
      have hlater := ih hrest
      have hcount : (c :: rest).count '\\' = [c].count '\\' + rest.count '\\' := by
        rw [← List.count_append, List.singleton_append]
      omega

end Reader

/-- The strings of a text cost no more than it has backslashes. -/
theorem cost_le_of_read {text : List Char} {items : List SExpr} (h : read text = some items) :
    costOfItems items ≤ text.count '\\' := by
  obtain ⟨last, hlast, hfinish⟩ := Option.bind_eq_some_iff.mp h
  have hspent := Reader.spent_foldlM hlast
  have hstart : Reader.start.spent = 0 := rfl
  have hend := last.spent_endAtom
  unfold Reader.finish at hfinish
  split at hfinish
  next found heq =>
    obtain rfl := Option.some.inj hfinish
    have hitems : Reader.spent ⟨found, [], .gap⟩ = costOfItems found := rfl
    rw [heq, hitems] at hend
    omega
  next => cases hfinish

end SExpr
