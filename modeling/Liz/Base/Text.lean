import Mathlib.Data.List.AList
import Mathlib.Data.List.DropRight
import Mathlib.Data.List.Infix
import Mathlib.Data.List.TakeWhile

/-!
# Text

String operations over the characters of a string: ASCII case, occurrence, trimming, splitting and
replacement. Occurrence is the infix relation on characters, so what a filter lets through is
reasoned about with the list library. The only thing taken as given is the Unicode table that says
which characters are alphanumeric; on ASCII it is the usual one.
-/

/-- Which characters are alphanumeric. The table is a parameter outside ASCII. -/
class Unicode where
  isAlphanumeric : Char → Bool
  ascii : ∀ c : Char, c.val < 128 → isAlphanumeric c = c.isAlphanum

/-- The table that knows ASCII only. -/
@[reducible] def asciiTable : Unicode := ⟨Char.isAlphanum, fun _ _ => rfl⟩

namespace Text

/-- The characters with the Unicode property `White_Space`. -/
def isWhitespace (c : Char) : Bool :=
  (9 ≤ c.toNat && c.toNat ≤ 13) || (8192 ≤ c.toNat && c.toNat ≤ 8202) ||
    [32, 133, 160, 5760, 8232, 8233, 8239, 8287, 12288].contains c.toNat

def toAsciiLowercase (s : String) : String := String.ofList (s.toList.map Char.toLower)

/-- The characters of `needle` occur in `hay`, one after another. -/
def contains (hay needle : String) : Bool := decide (needle.toList <:+: hay.toList)

/-- `needle` occurs in `hay` up to ASCII case. -/
def containsIgnoreCase (hay needle : String) : Bool :=
  contains (toAsciiLowercase hay) (toAsciiLowercase needle)

def trim (s : String) : String :=
  String.ofList (((s.toList.dropWhile isWhitespace).reverse.dropWhile isWhitespace).reverse)

def isBlank (s : String) : Bool := (trim s).isEmpty

/-- The pieces between the characters that satisfy `sep`, empty ones included. -/
def splitOn (sep : Char → Bool) (s : String) : List String :=
  (s.toList.splitOnP sep).map String.ofList

/-- Every occurrence of `pattern` from left to right is replaced. The counter holds how many
characters of the last occurrence are still to be skipped. -/
def replaceChars (pattern into : List Char) : Nat → List Char → List Char
  | _, [] => []
  | skip + 1, _ :: rest => replaceChars pattern into skip rest
  | 0, c :: rest =>
      if pattern.isPrefixOf (c :: rest) then
        into ++ replaceChars pattern into (pattern.length - 1) rest
      else c :: replaceChars pattern into 0 rest

/-- `pattern` is not empty wherever this is used. -/
def replace (s pattern into : String) : String :=
  String.ofList (replaceChars pattern.toList into.toList 0 s.toList)

/-- As `replace`; an empty pattern stands before every character and at the end. -/
def replaceAll (s pattern into : String) : String :=
  if pattern.isEmpty then into ++ String.ofList (s.toList.flatMap fun c => c :: into.toList)
  else replace s pattern into

def replaceFirstChars (pattern into : List Char) : List Char → List Char
  | [] => []
  | c :: rest =>
      if pattern.isPrefixOf (c :: rest) then into ++ (c :: rest).drop pattern.length
      else c :: replaceFirstChars pattern into rest

/-- Only the first occurrence is replaced. -/
def replaceFirst (s pattern into : String) : String :=
  if pattern.isEmpty then into ++ s
  else String.ofList (replaceFirstChars pattern.toList into.toList s.toList)

/-- The occurrences of `pattern` from left to right, none of which overlap. -/
def countChars (pattern : List Char) : Nat → List Char → Nat
  | _, [] => 0
  | skip + 1, _ :: rest => countChars pattern skip rest
  | 0, c :: rest =>
      if pattern.isPrefixOf (c :: rest) then countChars pattern (pattern.length - 1) rest + 1
      else countChars pattern 0 rest

def countMatches (s pattern : String) : Nat :=
  if pattern.isEmpty then s.length + 1 else countChars pattern.toList 0 s.toList

/-- The lines of a text without their line breaks. A carriage return belongs to the break it stands
before, and a break at the end starts no line. -/
def lines (s : String) : List String :=
  let pieces := s.toList.splitOnP (· == '\n')
  let ended := pieces.dropLast.map fun piece =>
    if piece.getLast? = some '\r' then piece.dropLast else piece
  let last := pieces.getLast?.getD []
  (if last.isEmpty then ended else ended ++ [last]).map String.ofList

example : lines "a\r\n\nb\r" = ["a", "", "b\r"] := by decide +kernel

/-- What stands before the first occurrence of `pattern`, and what stands after it. -/
def breakChars (pattern : List Char) : List Char → Option (List Char × List Char)
  | [] => none
  | c :: rest =>
      if pattern.isPrefixOf (c :: rest) then some ([], (c :: rest).drop pattern.length)
      else (breakChars pattern rest).map fun (before, after) => (c :: before, after)

/-- `pattern` is not empty wherever this is used. -/
def breakOn (s pattern : String) : Option (String × String) :=
  (breakChars pattern.toList s.toList).map fun (before, after) =>
    (String.ofList before, String.ofList after)

def join (parts : List String) (sep : String) : String := sep.intercalate parts

theorem eq_append_of_breakChars {pattern text before after : List Char}
    (h : breakChars pattern text = some (before, after)) : text = before ++ pattern ++ after := by
  induction text generalizing before with
  | nil => exact nomatch h
  | cons c rest ih =>
      rw [breakChars] at h
      split at h
      next hprefix =>
        obtain ⟨rfl, rfl⟩ := Prod.mk.inj (Option.some.inj h)
        obtain ⟨tail, htail⟩ := List.isPrefixOf_iff_prefix.mp hprefix
        rw [← htail, List.drop_left]
        rfl
      next =>
        obtain ⟨⟨before', after'⟩, hrest, heq⟩ := Option.map_eq_some_iff.mp h
        obtain ⟨rfl, rfl⟩ := Prod.mk.inj heq
        rw [ih hrest]
        rfl

/-- What stands on both sides of an occurrence is shorter than the text. -/
theorem length_lt_of_breakChars {pattern text before after : List Char} (hne : pattern ≠ [])
    (h : breakChars pattern text = some (before, after)) :
    before.length + after.length < text.length := by
  have hlength := congrArg List.length (eq_append_of_breakChars h)
  have hpattern := List.length_pos_iff.mpr hne
  rw [List.length_append, List.length_append] at hlength
  omega

theorem replaceChars_of_not_mem {c : Char} {text : List Char} (h : c ∉ text) (into : List Char) :
    replaceChars [c] into 0 text = text := by
  induction text with
  | nil => rfl
  | cons first rest ih =>
      rw [List.mem_cons, not_or] at h
      have hfirst : ([c].isPrefixOf (first :: rest)) = false := by simp [List.isPrefixOf, h.1]
      rw [replaceChars, hfirst, if_neg (by simp), ih h.2]

/-- Replacing one character by another is done character by character. -/
theorem replaceChars_singleton (c d : Char) (text : List Char) :
    replaceChars [c] [d] 0 text = text.map fun x => if x = c then d else x := by
  induction text with
  | nil => rfl
  | cons first rest ih =>
      rw [replaceChars, List.map_cons]
      by_cases hfirst : first = c
      · have hprefix : [c].isPrefixOf (first :: rest) = true := by simp [List.isPrefixOf, hfirst]
        rw [if_pos hprefix, if_pos hfirst]
        exact congrArg (d :: ·) ih
      · have hprefix : ¬ [c].isPrefixOf (first :: rest) = true := by
          simpa [List.isPrefixOf] using fun heq : c = first => hfirst heq.symm
        rw [if_neg hprefix, if_neg hfirst, ih]

/-- Nothing is replaced in a text without the pattern. -/
theorem replace_of_not_mem {c : Char} {s : String} (h : c ∉ s.toList) (into : String) :
    replace s (String.singleton c) into = s := by
  rw [replace, String.toList_singleton, replaceChars_of_not_mem h, String.ofList_toList]

theorem not_mem_join {c : Char} {parts : List String} {sep : String}
    (hparts : ∀ part ∈ parts, c ∉ part.toList) (hsep : c ∉ sep.toList) :
    c ∉ (join parts sep).toList := by
  induction parts with
  | nil => simp [join]
  | cons first rest ih =>
      have hfirst := hparts first List.mem_cons_self
      have hrest := ih fun part hpart => hparts part (List.mem_cons_of_mem first hpart)
      cases rest with
      | nil => rwa [join, String.intercalate_singleton]
      | cons second others =>
          rw [join, String.intercalate_cons_cons, String.toList_append, String.toList_append]
          simp only [List.mem_append, not_or]
          exact ⟨⟨hfirst, hsep⟩, hrest⟩

/-- What is trimmed away is white space on both sides. -/
theorem exists_trim (s : String) :
    ∃ front back, s.toList = front ++ ((trim s).toList ++ back) ∧
      (∀ c ∈ front, isWhitespace c = true) ∧ ∀ c ∈ back, isWhitespace c = true := by
  let kept := s.toList.dropWhile isWhitespace
  refine ⟨s.toList.takeWhile isWhitespace, (kept.reverse.takeWhile isWhitespace).reverse, ?_,
    fun c hc => List.mem_takeWhile_imp hc,
    fun c hc => List.mem_takeWhile_imp (List.mem_reverse.mp hc)⟩
  rw [trim, String.toList_ofList, ← List.reverse_append, List.takeWhile_append_dropWhile,
    List.reverse_reverse, List.takeWhile_append_dropWhile]

/-- Trimming counts no other character away. -/
theorem countP_trim {counts : Char → Bool} (h : ∀ c, isWhitespace c = true → counts c = false)
    (s : String) : (trim s).toList.countP counts = s.toList.countP counts := by
  obtain ⟨front, back, htext, hfront, hback⟩ := exists_trim s
  have hnone : ∀ spaces : List Char, (∀ c ∈ spaces, isWhitespace c = true) →
      spaces.countP counts = 0 := by
    intro spaces hspaces
    rw [List.countP_eq_zero]
    intro c hc
    rw [h c (hspaces c hc)]
    exact Bool.false_ne_true
  rw [htext, List.countP_append, List.countP_append, hnone front hfront, hnone back hback]
  omega

/-- A text without white space at its ends stays as it is. -/
theorem trim_enclosed {s : String} {first last : Char} {middle : List Char}
    (htext : s.toList = first :: (middle ++ [last])) (hfirst : isWhitespace first = false)
    (hlast : isWhitespace last = false) : trim s = s := by
  have hback : (first :: (middle ++ [last])).reverse = last :: (middle.reverse ++ [first]) := by
    simp
  rw [trim, htext, List.dropWhile_cons_of_neg (by simp [hfirst]), hback,
    List.dropWhile_cons_of_neg (by simp [hlast]), ← hback, List.reverse_reverse, ← htext,
    String.ofList_toList]

/-- What has been trimmed stays as it is. -/
theorem trim_trim (s : String) : trim (trim s) = trim s := by
  have hback : ∀ text : List Char,
      (text.reverse.dropWhile isWhitespace).reverse = text.rdropWhile isWhitespace := fun _ => rfl
  have hfront : ∀ text : List Char, text.dropWhile isWhitespace = text →
      (text.rdropWhile isWhitespace).dropWhile isWhitespace = text.rdropWhile isWhitespace := by
    intro text htext
    cases hkept : text.rdropWhile isWhitespace with
    | nil => rfl
    | cons c rest =>
        obtain ⟨after, hafter⟩ := List.rdropWhile_prefix (p := isWhitespace) (l := text)
        rw [hkept] at hafter
        rw [← hafter, List.cons_append, List.dropWhile_cons] at htext
        have hc : isWhitespace c = false := by
          by_contra hspace
          rw [Bool.not_eq_false] at hspace
          rw [if_pos hspace] at htext
          have hlength := congrArg List.length htext
          have hshort := (List.dropWhile_suffix isWhitespace (l := rest ++ after)).length_le
          rw [List.length_cons] at hlength
          omega
        rw [List.dropWhile_cons, hc, if_neg Bool.false_ne_true]
  unfold trim
  rw [hback, hback, String.toList_ofList, hfront _ (List.dropWhile_idempotent _ _),
    List.rdropWhile_idempotent]

/-- A text that starts with something else than white space is not blank. -/
theorem isBlank_of_head? {s : String} {c : Char} (hc : isWhitespace c = false)
    (h : s.toList.head? = some c) : isBlank s = false := by
  obtain ⟨rest, hrest⟩ := List.head?_eq_some_iff.mp h
  have hfront : s.toList.dropWhile isWhitespace = c :: rest := by
    rw [hrest, List.dropWhile_cons_of_neg (by simp [hc])]
  have hback : (c :: rest).reverse.dropWhile isWhitespace ≠ [] := by
    rw [Ne, List.dropWhile_eq_nil_iff]
    intro hall
    simpa [hc] using hall c (by simp)
  have htrim : trim s ≠ "" := by
    rw [trim, hfront, Ne, ← String.toList_inj, String.toList_ofList, String.toList_empty,
      List.reverse_eq_nil_iff]
    exact hback
  rw [isBlank, Bool.eq_false_iff, Ne, String.isEmpty_iff]
  exact htrim

@[simp] theorem contains_eq_true {hay needle : String} :
    contains hay needle = true ↔ needle.toList <:+: hay.toList := by
  simp only [contains, decide_eq_true_eq]

@[simp] theorem toList_toAsciiLowercase (s : String) :
    (toAsciiLowercase s).toList = s.toList.map Char.toLower := by
  simp only [toAsciiLowercase, String.toList_ofList]

/-- What stands before the last separator does not matter when what follows has none. -/
theorem eq_of_append_sep_eq {c : Char} {left left' right right' : List Char}
    (hright : c ∉ right) (hright' : c ∉ right')
    (h : left ++ c :: right = left' ++ c :: right') : right = right' := by
  have hreverse : right.reverse ++ c :: left.reverse = right'.reverse ++ c :: left'.reverse := by
    simpa using congrArg List.reverse h
  have htake := congrArg (List.takeWhile (· != c)) hreverse
  have hclean : ∀ {l : List Char}, c ∉ l → ∀ x ∈ l.reverse, (x != c) = true := by
    intro l hl x hx
    simp only [List.mem_reverse] at hx
    simpa using fun he : x = c => hl (he ▸ hx)
  rw [List.takeWhile_append_of_pos (hclean hright), List.takeWhile_append_of_pos (hclean hright')] at htake
  simpa using htake

/-- What stands before the first separator does not matter when it has none. -/
theorem append_sep_inj {c : Char} {left left' right right' : List Char}
    (hleft : c ∉ left) (hleft' : c ∉ left') :
    left ++ c :: right = left' ++ c :: right' ↔ left = left' ∧ right = right' := by
  constructor
  · intro h
    have hreverse : right.reverse ++ c :: left.reverse = right'.reverse ++ c :: left'.reverse := by
      simpa using congrArg List.reverse h
    have hsame : left = left' := List.reverse_inj.mp
      (eq_of_append_sep_eq (by simpa using hleft) (by simpa using hleft') hreverse)
    rw [hsame, List.append_cancel_left_eq] at h
    exact ⟨hsame, (List.cons.inj h).2⟩
  · rintro ⟨rfl, rfl⟩
    rfl
end Text
