import Mathlib.Data.List.DropRight
import Mathlib.Data.List.FinRange
import Mathlib.Logic.Function.Basic

/-!
# Base64

Bytes as digits to the base 64, three bytes to four digits, and the digits as characters of an
alphabet. A text is padded to a multiple of four characters, or it is not. A reader of padded texts
takes exactly what the encoder writes: the padding must be there, and the bits of the last digit that
belong to no byte must be zero.
-/

namespace Base64

/-- Sixty-four characters of ASCII, none of which is the padding. -/
structure Alphabet where
  char : Fin 64 → Char
  injective : ∀ digit other, char digit = char other → digit = other
  ascii : ∀ digit, (char digit).toNat < 128
  unpadded : ∀ digit, char digit ≠ '='

/-- Upper case letters, lower case letters and decimal digits, then two more. -/
def spelled (beforeLast last : Char) (digit : Fin 64) : Char :=
  if digit.val < 26 then Char.ofNat (65 + digit.val)
  else if digit.val < 52 then Char.ofNat (97 + (digit.val - 26))
  else if digit.val < 62 then Char.ofNat (48 + (digit.val - 52))
  else if digit.val = 62 then beforeLast
  else last

/-- The digit that a character stands for. -/
def valueOf (beforeLast last c : Char) : Nat :=
  if c = beforeLast then 62
  else if c = last then 63
  else if c.toNat < 65 then c.toNat - 48 + 52
  else if c.toNat < 97 then c.toNat - 65
  else c.toNat - 97 + 26

theorem spelled_injective {beforeLast last : Char}
    (h : ∀ digit, valueOf beforeLast last (spelled beforeLast last digit) = digit.val)
    (digit other : Fin 64) (heq : spelled beforeLast last digit = spelled beforeLast last other) :
    digit = other :=
  Fin.ext (by rw [← h digit, heq, h other])

theorem standard_injective : ∀ digit other, spelled '+' '/' digit = spelled '+' '/' other →
    digit = other := spelled_injective (by decide +kernel)

theorem standard_ascii : ∀ digit, (spelled '+' '/' digit).toNat < 128 := by decide +kernel

theorem standard_unpadded : ∀ digit, spelled '+' '/' digit ≠ '=' := by decide +kernel

def standard : Alphabet :=
  ⟨spelled '+' '/', standard_injective, standard_ascii, standard_unpadded⟩

theorem urlSafe_injective : ∀ digit other, spelled '-' '_' digit = spelled '-' '_' other →
    digit = other := spelled_injective (by decide +kernel)

theorem urlSafe_ascii : ∀ digit, (spelled '-' '_' digit).toNat < 128 := by decide +kernel

theorem urlSafe_unpadded : ∀ digit, spelled '-' '_' digit ≠ '=' := by decide +kernel

def urlSafe : Alphabet :=
  ⟨spelled '-' '_', urlSafe_injective, urlSafe_ascii, urlSafe_unpadded⟩

/-! ### Bytes and digits -/

def digit (n : Nat) : Fin 64 := Fin.ofNat 64 n

def digits : List UInt8 → List (Fin 64)
  | [] => []
  | [a] => [digit (a.toNat / 4), digit (a.toNat % 4 * 16)]
  | [a, b] =>
      [digit (a.toNat / 4), digit (a.toNat % 4 * 16 + b.toNat / 16), digit (b.toNat % 16 * 4)]
  | a :: b :: c :: rest =>
      digit (a.toNat / 4) :: digit (a.toNat % 4 * 16 + b.toNat / 16) ::
        digit (b.toNat % 16 * 4 + c.toNat / 64) :: digit (c.toNat % 64) :: digits rest

/-- The bytes of digits. The bits behind the last byte are zero. -/
def bytes : List (Fin 64) → Option (List UInt8)
  | [] => some []
  | [_] => none
  | [p, q] => if q.val % 16 = 0 then some [UInt8.ofNat (p.val * 4 + q.val / 16)] else none
  | [p, q, r] =>
      if r.val % 4 = 0 then
        some [UInt8.ofNat (p.val * 4 + q.val / 16), UInt8.ofNat (q.val % 16 * 16 + r.val / 4)]
      else none
  | p :: q :: r :: s :: rest =>
      (bytes rest).map fun more =>
        UInt8.ofNat (p.val * 4 + q.val / 16) :: UInt8.ofNat (q.val % 16 * 16 + r.val / 4) ::
          UInt8.ofNat (r.val % 4 * 64 + s.val) :: more

theorem val_digit {n : Nat} (h : n < 64) : (digit n).val = n := Nat.mod_eq_of_lt h

theorem ofNat_eq {n : Nat} (byte : UInt8) (h : n = byte.toNat) : UInt8.ofNat n = byte := by
  rw [h, UInt8.ofNat_toNat]

/-- What has been taken apart is put together again. -/
theorem bytes_digits (input : List UInt8) : bytes (digits input) = some input := by
  induction input using digits.induct with
  | case1 => rfl
  | case2 a =>
      have ha := a.toNat_lt
      rw [digits, bytes, val_digit (by omega), val_digit (by omega), if_pos (by omega)]
      rw [ofNat_eq a (by omega)]
  | case3 a b =>
      have ha := a.toNat_lt
      have hb := b.toNat_lt
      rw [digits, bytes, val_digit (by omega), val_digit (by omega), val_digit (by omega),
        if_pos (by omega)]
      rw [ofNat_eq a (by omega), ofNat_eq b (by omega)]
  | case4 a b c rest ih =>
      have ha := a.toNat_lt
      have hb := b.toNat_lt
      have hc := c.toNat_lt
      rw [digits, bytes, ih, Option.map_some, val_digit (by omega), val_digit (by omega),
        val_digit (by omega), val_digit (by omega)]
      rw [ofNat_eq a (by omega), ofNat_eq b (by omega), ofNat_eq c (by omega)]

/-! ### Texts -/

/-- How many characters are missing to a multiple of four. -/
def missing (length : Nat) : Nat := (4 - length % 4) % 4

def pad (text : List Char) : List Char := text ++ List.replicate (missing text.length) '='

def unpad (text : List Char) : List Char := text.rdropWhile (· == '=')

def encode (alphabet : Alphabet) (input : List UInt8) : List Char :=
  (digits input).map alphabet.char

def Alphabet.value? (alphabet : Alphabet) (c : Char) : Option (Fin 64) :=
  (List.finRange 64).find? fun digit => alphabet.char digit = c

/-- Reads a padded text. -/
def decode (alphabet : Alphabet) (text : List Char) : Option (List UInt8) :=
  if pad (unpad text) = text then ((unpad text).mapM alphabet.value?).bind bytes else none

variable {alphabet other : Alphabet} {input : List UInt8} {text : List Char}

theorem value?_char (alphabet : Alphabet) (digit : Fin 64) :
    alphabet.value? (alphabet.char digit) = some digit := by
  cases hfound : alphabet.value? (alphabet.char digit) with
  | none =>
      have hother := List.find?_eq_none.mp hfound digit (List.mem_finRange digit)
      simp at hother
  | some found =>
      have hchar := List.find?_some hfound
      rw [alphabet.injective found digit (by simpa using hchar)]

theorem mapM_value? (alphabet : Alphabet) (digits : List (Fin 64)) :
    (digits.map alphabet.char).mapM alphabet.value? = some digits := by
  induction digits with
  | nil => rfl
  | cons digit rest ih => simp [value?_char, ih]

theorem ascii_of_mem_encode {c : Char} (h : c ∈ encode alphabet input) : c.toNat < 128 := by
  obtain ⟨digit, -, rfl⟩ := List.mem_map.mp h
  exact alphabet.ascii digit

theorem not_mem_encode : '=' ∉ encode alphabet input := by
  intro h
  obtain ⟨digit, -, hdigit⟩ := List.mem_map.mp h
  exact alphabet.unpadded digit hdigit

/-- Padding behind a text without any is taken off again. -/
theorem unpad_pad (h : '=' ∉ text) : unpad (pad text) = text := by
  have hpadding : ∀ n, unpad (text ++ List.replicate n '=') = text := by
    intro n
    induction n with
    | zero =>
        rw [List.replicate_zero, List.append_nil, unpad, List.rdropWhile_eq_self_iff]
        intro hne hlast
        rw [beq_iff_eq] at hlast
        exact h (hlast ▸ List.getLast_mem hne)
    | succ n ih =>
        rw [List.replicate_succ', ← List.append_assoc, unpad, List.rdropWhile_concat_pos _ _ _ rfl]
        exact ih
  exact hpadding _

/-- The padding stays where it is when it is spelled as itself. -/
theorem map_pad {respell : Char → Char} (h : respell '=' = '=') (text : List Char) :
    (pad text).map respell = pad (text.map respell) := by
  rw [pad, List.map_append, List.map_replicate, h, pad, List.length_map]

/-- What has been encoded is decoded. -/
theorem decode_pad_encode (alphabet : Alphabet) (input : List UInt8) :
    decode alphabet (pad (encode alphabet input)) = some input := by
  rw [decode, unpad_pad not_mem_encode, if_pos rfl, encode, mapM_value?, Option.bind_some,
    bytes_digits]

/-- Spelling the digits of one alphabet as those of another. -/
theorem map_encode {respell : Char → Char}
    (h : ∀ digit, respell (alphabet.char digit) = other.char digit) :
    (encode alphabet input).map respell = encode other input := by
  rw [encode, List.map_map, encode]
  exact List.map_congr_left fun digit _ => h digit

example : encode urlSafe [251, 255] = ['-', '_', '8'] := by decide

end Base64
