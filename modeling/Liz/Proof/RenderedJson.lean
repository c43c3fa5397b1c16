import Liz.Base.Codes
import Liz.Proof.JsonTexts
import Liz.Runtime.Ids

/-!
# A JSON text tells its value

The first character of a text tells what kind of value it is. A string is closed by a quote that no
character is written with, a number ends where no number goes on, and an array or an object has a
bracket of its own. So the text of a value can be read off wherever something stands behind it that
does not continue a number.
-/

namespace Liz

namespace Json

open Codes

/-! ### Strings -/

/-- The characters that are not written as they are. -/
def escapedChars : List Char := ['"', '\\'] ++ (List.range 32).map Char.ofNat

theorem mem_escapedChars {c : Char} (h : escapeChar c ≠ String.singleton c) : c ∈ escapedChars := by
  have hcontrol : c.toNat < 32 → c ∈ escapedChars := by
    intro hc
    refine List.mem_append_right _ (List.mem_map.mpr ⟨c.toNat, List.mem_range.mpr hc, ?_⟩)
    exact Char.ofNat_toNat c
  by_contra hother
  have hplain : ¬ c.toNat < 32 := fun hc => hother (hcontrol hc)
  have hne : ∀ {d : Char}, d ∈ escapedChars → c ≠ d := fun hd heq => hother (heq ▸ hd)
  have height : c.toNat ≠ 8 := by omega
  have htwelve : c.toNat ≠ 12 := by omega
  rw [escapeChar, if_neg (hne (by decide)), if_neg (hne (by decide)), if_neg (hne (by decide)),
    if_neg (hne (by decide)), if_neg (hne (by decide)), if_neg height, if_neg htwelve,
    if_neg hplain] at h
  exact h rfl

theorem backslash_of_escaped {c : Char} (h : escapeChar c ≠ String.singleton c) :
    ∃ rest, (escapeChar c).toList = '\\' :: rest :=
  ((escapeChar_cases c).resolve_left h).1

/-- A character is read off from what it is written as. -/
theorem escapeChar_readsOff (c : Char) :
    ReadsOff (fun c => (escapeChar c).toList) (fun _ => True) (fun _ => True) c := by
  intro d _ rest rest' _ _ h
  dsimp only at h
  have hsame : c = d → c = d ∧ rest = rest' := by
    rintro rfl
    exact ⟨rfl, List.append_cancel_left h⟩
  have hslash : ∀ {c : Char}, escapeChar c = String.singleton c → c ≠ '\\' := by
    rintro c hc rfl
    exact absurd hc (by decide)
  apply hsame
  by_cases hc : escapeChar c = String.singleton c
  · rw [hc, String.toList_singleton, List.singleton_append] at h
    by_cases hd : escapeChar d = String.singleton d
    · rw [hd, String.toList_singleton] at h
      exact (List.cons.inj h).1
    · obtain ⟨more, hmore⟩ := backslash_of_escaped hd
      rw [hmore] at h
      exact absurd (List.cons.inj h).1 (hslash hc)
  · by_cases hd : escapeChar d = String.singleton d
    · obtain ⟨more, hmore⟩ := backslash_of_escaped hc
      rw [hmore, hd, String.toList_singleton] at h
      exact absurd (List.cons.inj h).1.symm (hslash hd)
    · have hcodes : (escapedChars.all fun c => escapedChars.all fun d => c == d ||
          !(escapeChar c).toList.isPrefixOf (escapeChar d).toList) = true := by decide +kernel
      have hapart : ∀ {c d : Char}, c ∈ escapedChars → d ∈ escapedChars →
          (escapeChar c).toList <+: (escapeChar d).toList → c = d := by
        intro c d hc hd hprefix
        have hpair := List.all_eq_true.mp (List.all_eq_true.mp hcodes c hc) d hd
        rw [List.isPrefixOf_iff_prefix.mpr hprefix] at hpair
        simpa using hpair
      rcases List.prefix_or_prefix_of_prefix (List.prefix_append _ rest)
        (h ▸ List.prefix_append (escapeChar d).toList rest') with hprefix | hprefix
      · exact hapart (mem_escapedChars hc) (mem_escapedChars hd) hprefix
      · exact (hapart (mem_escapedChars hd) (mem_escapedChars hc) hprefix).symm

/-- No character is written with a quote in front. -/
theorem quote_not_written (c : Char) (more rest : List Char) :
    '"' :: rest ≠ (escapeChar c).toList ++ more := by
  by_cases hc : escapeChar c = String.singleton c
  · rw [hc, String.toList_singleton, List.singleton_append]
    intro h
    rw [← (List.cons.inj h).1] at hc
    exact absurd hc (by decide)
  · obtain ⟨others, hothers⟩ := backslash_of_escaped hc
    rw [hothers]
    exact fun h => absurd (List.cons.inj h).1 (by decide)

/-- A text is read off from between its quotes. -/
theorem escaped_unique {s t rest rest' : List Char}
    (h : escaped s ++ '"' :: rest = escaped t ++ '"' :: rest') : s = t ∧ rest = rest' := by
  obtain ⟨hsame, hrest⟩ := flatMap_unique (fun c _ => escapeChar_readsOff c) (fun _ _ => trivial)
    (fun _ _ => trivial) (fun _ _ => trivial) ⟨trivial, fun c _ more => quote_not_written c more rest⟩
    ⟨trivial, fun c _ more => quote_not_written c more rest'⟩ h
  exact ⟨hsame, (List.cons.inj hrest).2⟩

/-! ### Numbers -/

def numeralChar (c : Char) : Bool := c.isDigit || ['-', '+', '.', 'e', 'E'].contains c

/-- A number that is no integer is printed with a point or with an exponent. -/
def PrintedFloat (literal : String) : Prop :=
  literal.toList.all numeralChar = true ∧ ('.' ∈ literal.toList ∨ 'e' ∈ literal.toList)

instance (literal : String) : Decidable (PrintedFloat literal) :=
  inferInstanceAs (Decidable (_ ∧ _))

mutual

/-- The texts of the numbers that are no integers. -/
def floats : Json → List String
  | float literal => [literal]
  | array items => floatsOfItems items
  | object fields => floatsOfFields fields
  | _ => []

def floatsOfItems : List Json → List String
  | [] => []
  | item :: rest => floats item ++ floatsOfItems rest

def floatsOfFields : List (String × Json) → List String
  | [] => []
  | (_, value) :: rest => floats value ++ floatsOfFields rest

end

/-- Its numbers are as they are printed. -/
def Printed (value : Json) : Prop := ∀ literal ∈ value.floats, PrintedFloat literal

instance (value : Json) : Decidable value.Printed := List.decidableBAll _ _

theorem printed_array_iff {items : List Json} :
    (array items).Printed ↔ ∀ item ∈ items, item.Printed := by
  simp only [Printed, floats]
  induction items with
  | nil => simp [floatsOfItems]
  | cons item rest ih => simp [floatsOfItems, or_imp, forall_and, ih]

theorem printed_object_iff {fields : List (String × Json)} :
    (object fields).Printed ↔ ∀ field ∈ fields, field.2.Printed := by
  simp only [Printed, floats]
  induction fields with
  | nil => simp [floatsOfFields]
  | cons field rest ih => simp [floatsOfFields, or_imp, forall_and, ih]

/-- Nothing that would continue a number. -/
def EndsNumber (rest : List Char) : Prop := ∀ c ∈ rest.head?, numeralChar c = false

theorem endsNumber_cons {c : Char} (h : numeralChar c = false) (rest : List Char) :
    EndsNumber (c :: rest) := by
  intro d hd
  obtain rfl := Option.some.inj hd
  exact h

/-! ### What a text begins with -/

/-- The first character of the text, with one for all numbers. -/
def lead : Json → Char
  | null => 'n'
  | bool value => if value then 't' else 'f'
  | natural _ | negative _ | float _ => '0'
  | string _ => '"'
  | array _ => '['
  | object _ => '\x7b'

def leadOf (c : Char) : Char := if numeralChar c then '0' else c

theorem digits_repr (n : Nat) : ∀ c ∈ (Nat.repr n).toList, c.isDigit = true := by
  intro c hc
  rw [Nat.toList_repr] at hc
  exact Nat.isDigit_of_mem_toDigits (by decide) (by decide) hc

theorem numeral_of_digit {c : Char} (h : c.isDigit = true) : numeralChar c = true := by
  rw [numeralChar, h, Bool.true_or]

/-- A number consists of characters of numbers. -/
theorem numeral_written {value : Json} (hnumber : value.lead = '0') (h : value.Printed) :
    value.written ≠ [] ∧ ∀ c ∈ value.written, numeralChar c = true := by
  cases value with
  | natural value =>
      have hne : (Nat.repr value).toList ≠ [] := by
        rw [Nat.toList_repr]
        exact Nat.toDigits_ne_nil
      exact ⟨hne, fun c hc => numeral_of_digit (digits_repr value c hc)⟩
  | negative magnitude =>
      have hwritten : written (negative magnitude) = '-' :: (Nat.repr magnitude).toList := by
        show (render (negative magnitude)).toList = _
        rw [render, String.toList_append]
        rfl
      rw [hwritten, List.forall_mem_cons]
      exact ⟨List.cons_ne_nil _ _, by decide,
        fun c hc => numeral_of_digit (digits_repr magnitude c hc)⟩
  | float literal =>
      obtain ⟨hall, hpoint⟩ := h literal (by simp [floats])
      refine ⟨?_, List.all_eq_true.mp hall⟩
      show literal.toList ≠ []
      rcases hpoint with hpoint | hpoint <;> exact List.ne_nil_of_mem hpoint
  | null => cases hnumber
  | bool value => cases value <;> cases hnumber
  | string _ => cases hnumber
  | array _ => cases hnumber
  | object _ => cases hnumber

/-- The first character tells the kind. -/
theorem lead_written {value : Json} (h : value.Printed) :
    ∃ c rest, value.written = c :: rest ∧ leadOf c = value.lead := by
  by_cases hnumber : value.lead = '0'
  · obtain ⟨hne, hall⟩ := numeral_written hnumber h
    obtain ⟨c, rest, hwritten⟩ := List.exists_cons_of_ne_nil hne
    refine ⟨c, rest, hwritten, ?_⟩
    rw [leadOf, if_pos (hall c (hwritten ▸ List.mem_cons_self)), hnumber]
  · cases value with
    | null => exact ⟨'n', "ull".toList, by decide, by decide⟩
    | bool value =>
        cases value with
        | true => exact ⟨'t', "rue".toList, by decide, by decide⟩
        | false => exact ⟨'f', "alse".toList, by decide, by decide⟩
    | natural _ => exact absurd rfl hnumber
    | negative _ => exact absurd rfl hnumber
    | float _ => exact absurd rfl hnumber
    | string value => exact ⟨'"', _, rfl, (by decide : leadOf '"' = '"')⟩
    | array items => exact ⟨'[', _, rfl, (by decide : leadOf '[' = '[')⟩
    | object fields => exact ⟨'\x7b', _, rfl, (by decide : leadOf '\x7b' = '\x7b')⟩

theorem lead_eq {value other : Json} (hvalue : value.Printed) (hother : other.Printed)
    {rest rest' : List Char} (h : value.written ++ rest = other.written ++ rest') :
    value.lead = other.lead := by
  obtain ⟨c, more, hc, hlead⟩ := lead_written hvalue
  obtain ⟨d, more', hd, hlead'⟩ := lead_written hother
  rw [hc, hd, List.cons_append, List.cons_append] at h
  rw [← hlead, ← hlead', (List.cons.inj h).1]

/-- A value does not begin with a character that stands for no kind. -/
theorem ne_written {value : Json} (h : value.Printed) {c : Char} (hc : numeralChar c = false)
    (hother : ∀ other : Json, other.lead ≠ c) (rest more : List Char) :
    c :: rest ≠ value.written ++ more := by
  obtain ⟨d, others, hd, hlead⟩ := lead_written h
  rw [hd]
  intro heq
  rw [← (List.cons.inj heq).1, leadOf, hc] at hlead
  exact hother value hlead.symm

/-! ### Values -/

/-- Two numbers with one text are the same number. -/
theorem number_unique {value other : Json} (hvalue : value.lead = '0') (hother : other.lead = '0')
    (hprinted : value.Printed) (hprinted' : other.Printed) (h : value.written = other.written) :
    value = other := by
  have hnegative : ∀ n, written (negative n) = '-' :: (Nat.repr n).toList := by
    intro n
    show (render (negative n)).toList = _
    rw [render, String.toList_append]
    rfl
  have hdigits : ∀ {c : Char} {n : Nat}, c.isDigit = false → c ∉ written (natural n) := by
    intro c n hc hmem
    rw [digits_repr n c hmem] at hc
    cases hc
  have hminus : ∀ {m n : Nat}, written (natural m) ≠ written (negative n) := by
    intro m n heq
    refine hdigits (c := '-') (by decide) (n := m) ?_
    rw [heq, hnegative]
    exact List.mem_cons_self
  -- an integer has neither a point nor an exponent
  have hpoint : ∀ {literal : String} {number : Json}, (float literal).Printed →
      number.written = written (float literal) → (∀ c ∈ number.written, c.isDigit ∨ c = '-') →
      False := by
    intro literal number hfloat heq hall
    have hmark := (hfloat literal (by simp [floats])).2
    replace heq : number.written = literal.toList := heq
    rw [← heq] at hmark
    rcases hmark with hmark | hmark
    · exact absurd (hall _ hmark) (by decide)
    · exact absurd (hall _ hmark) (by decide)
  have hnatural : ∀ n, ∀ c ∈ written (natural n), c.isDigit ∨ c = '-' :=
    fun n c hc => .inl (digits_repr n c hc)
  have hminusDigits : ∀ n, ∀ c ∈ written (negative n), c.isDigit ∨ c = '-' := by
    intro n c hc
    rw [hnegative] at hc
    rcases List.mem_cons.mp hc with rfl | hc
    · exact .inr rfl
    · exact .inl (digits_repr n c hc)
  have hkinds : ∀ {number : Json}, number.lead = '0' → (∃ n, number = natural n) ∨
      (∃ n, number = negative n) ∨ ∃ literal, number = float literal := by
    intro number hnumber
    cases number with
    | natural n => exact .inl ⟨n, rfl⟩
    | negative n => exact .inr (.inl ⟨n, rfl⟩)
    | float literal => exact .inr (.inr ⟨literal, rfl⟩)
    | bool value => cases value <;> cases hnumber
    | null | string _ | array _ | object _ => cases hnumber
  rcases hkinds hvalue with ⟨m, rfl⟩ | ⟨m, rfl⟩ | ⟨literal, rfl⟩ <;>
    rcases hkinds hother with ⟨n, rfl⟩ | ⟨n, rfl⟩ | ⟨literal', rfl⟩
  · exact congrArg natural (IdGenerator.repr_injective (String.toList_inj.mp h))
  · exact absurd h hminus
  · exact (hpoint hprinted' h (hnatural m)).elim
  · exact absurd h.symm hminus
  · rw [hnegative, hnegative] at h
    exact congrArg negative (IdGenerator.repr_injective (String.toList_inj.mp (List.cons.inj h).2))
  · exact (hpoint hprinted' h (hminusDigits m)).elim
  · exact (hpoint hprinted h.symm (hnatural n)).elim
  · exact (hpoint hprinted h.symm (hminusDigits n)).elim
  · exact congrArg float (String.toList_inj.mp h)

theorem number_readsOff {value : Json} (hvalue : value.lead = '0') (hprinted : value.Printed) :
    ReadsOff written EndsNumber Printed value := by
  intro other hprinted' rest rest' hrest hrest' h
  have hother : other.lead = '0' := (lead_eq hprinted hprinted' h).symm.trans hvalue
  obtain ⟨hsame, hend⟩ := run_unique (numeral_written hvalue hprinted).2
    (numeral_written hother hprinted').2 hrest hrest' h
  exact ⟨number_unique hvalue hother hprinted hprinted' hsame, hend⟩

/-- The characters of a field. -/
def writtenField (field : String × Json) : List Char :=
  '"' :: (escaped field.1.toList ++ ['"']) ++ ':' :: written field.2

theorem writtenItems_eq (items : List Json) : writtenItems items = items.map written := by
  induction items with
  | nil => rfl
  | cons item rest ih => rw [writtenItems, ih, List.map_cons]

theorem writtenFields_eq (fields : List (String × Json)) :
    writtenFields fields = fields.map writtenField := by
  induction fields with
  | nil => rfl
  | cons field rest ih => rw [writtenFields, ih, List.map_cons, writtenField]

theorem field_readsOff {name : String} {value : Json}
    (h : ReadsOff written EndsNumber Printed value) :
    ReadsOff writtenField EndsNumber (fun field => field.2.Printed) (name, value) := by
  rintro ⟨other, otherValue⟩ hprinted rest rest' hrest hrest' heq
  simp only [writtenField, List.cons_append, List.append_assoc, List.cons.injEq, true_and,
    List.nil_append] at heq
  obtain ⟨hname, hmore⟩ := escaped_unique heq
  obtain ⟨rfl, hend⟩ := h otherValue hprinted rest rest' hrest hrest' (List.cons.inj hmore).2
  exact ⟨by rw [String.toList_inj.mp hname], hend⟩

/-- What closes an array or an object begins no value. -/
theorem lead_ne_closing (other : Json) : other.lead ≠ ']' := by
  cases other with
  | bool value => cases value <;> simp [lead]
  | null | natural _ | negative _ | float _ | string _ | array _ | object _ => simp [lead]

mutual

/-- The text of a value can be read off. -/
theorem written_readsOff : ∀ value : Json, value.Printed → ReadsOff written EndsNumber Printed value
  | null, hprinted => by
      intro other hprinted' rest rest' _ _ h
      have hlead := lead_eq hprinted hprinted' h
      cases other with
      | null => exact ⟨rfl, List.append_cancel_left h⟩
      | bool value => cases value <;> cases hlead
      | natural _ | negative _ | float _ | string _ | array _ | object _ => cases hlead
  | bool value, hprinted => by
      intro other hprinted' rest rest' _ _ h
      have hlead := lead_eq hprinted hprinted' h
      cases other with
      | bool value' =>
          obtain rfl : value = value' := by
            cases value <;> cases value' <;> first | rfl | cases hlead
          exact ⟨rfl, List.append_cancel_left h⟩
      | null | natural _ | negative _ | float _ | string _ | array _ | object _ =>
          cases value <;> cases hlead
  | natural value, hprinted => number_readsOff rfl hprinted
  | negative magnitude, hprinted => number_readsOff rfl hprinted
  | float literal, hprinted => number_readsOff rfl hprinted
  | string value, hprinted => by
      intro other hprinted' rest rest' _ _ h
      have hlead := lead_eq hprinted hprinted' h
      cases other with
      | string value' =>
          simp only [written, List.cons_append, List.append_assoc, List.cons.injEq, true_and,
            List.nil_append] at h
          obtain ⟨hsame, hend⟩ := escaped_unique h
          exact ⟨congrArg string (String.toList_inj.mp hsame), hend⟩
      | bool value' => cases value' <;> cases hlead
      | null | natural _ | negative _ | float _ | array _ | object _ => cases hlead
  | array items, hprinted => by
      intro other hprinted' rest rest' _ _ h
      have hlead := lead_eq hprinted hprinted' h
      cases other with
      | array items' =>
          simp only [written, writtenItems_eq, List.cons_append, List.append_assoc,
            List.cons.injEq, true_and, List.nil_append] at h
          rw [printed_array_iff] at hprinted hprinted'
          have hclosed : ∀ more, Closes written EndsNumber Printed (']' :: more) := fun more =>
            ⟨endsNumber_cons (by decide) _, fun item hitem =>
              ne_written hitem (by decide) lead_ne_closing more⟩
          obtain ⟨rfl, hend⟩ := intercalate_unique (items_readOff items hprinted) hprinted hprinted'
            (fun _ => endsNumber_cons (by decide) _) (hclosed rest) (hclosed rest') (by simp)
            (by simp) h
          exact ⟨rfl, (List.cons.inj hend).2⟩
      | bool value' => cases value' <;> cases hlead
      | null | natural _ | negative _ | float _ | string _ | object _ => cases hlead
  | object fields, hprinted => by
      intro other hprinted' rest rest' _ _ h
      have hlead := lead_eq hprinted hprinted' h
      cases other with
      | object fields' =>
          simp only [written, writtenFields_eq, List.cons_append, List.append_assoc,
            List.cons.injEq, true_and, List.nil_append] at h
          rw [printed_object_iff] at hprinted hprinted'
          have hclosed : ∀ more, Closes writtenField EndsNumber (fun field => field.2.Printed)
              ('\x7d' :: more) := fun more =>
            ⟨endsNumber_cons (by decide) _, fun field _ others => by simp [writtenField]⟩
          obtain ⟨rfl, hend⟩ := intercalate_unique (fields_readOff fields hprinted) hprinted
            hprinted' (fun _ => endsNumber_cons (by decide) _) (hclosed rest) (hclosed rest')
            (by simp) (by simp) h
          exact ⟨rfl, (List.cons.inj hend).2⟩
      | bool value' => cases value' <;> cases hlead
      | null | natural _ | negative _ | float _ | string _ | array _ => cases hlead

theorem items_readOff : ∀ items : List Json, (∀ item ∈ items, item.Printed) →
    ∀ item ∈ items, ReadsOff written EndsNumber Printed item
  | [], _ => fun _ h => absurd h List.not_mem_nil
  | item :: rest, hprinted => by
      rw [List.forall_mem_cons] at hprinted ⊢
      exact ⟨written_readsOff item hprinted.1, items_readOff rest hprinted.2⟩

theorem fields_readOff : ∀ fields : List (String × Json), (∀ field ∈ fields, field.2.Printed) →
    ∀ field ∈ fields, ReadsOff writtenField EndsNumber (fun field => field.2.Printed) field
  | [], _ => fun _ h => absurd h List.not_mem_nil
  | (name, value) :: rest, hprinted => by
      rw [List.forall_mem_cons] at hprinted ⊢
      exact ⟨field_readsOff (written_readsOff value hprinted.1), fields_readOff rest hprinted.2⟩

end

end Json

end Liz
