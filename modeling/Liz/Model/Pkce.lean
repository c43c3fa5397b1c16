import Liz.Base.Base64
import Liz.Base.Bytes
import Liz.Model.Credentials

/-!
# Code challenges

A login starts with a challenge made from a secret verifier. Two modules make it, one through the
padded standard alphabet and some replacements and one through the URL-safe alphabet; the claims of a
token are read back through the standard alphabet. The hash and the Base64 engines come from
libraries: the hash may be any function, and the engines write and read Base64 as it is specified.
-/

namespace Liz

class Sha256 where
  digest : Bytes → Bytes

class Base64Engines where
  standard : Bytes → String
  urlSafeNoPad : Bytes → String
  decodeStandard : String → Option Bytes
  standard_eq : ∀ input,
    (standard input).toList = Base64.pad (Base64.encode Base64.standard input)
  urlSafeNoPad_eq : ∀ input, (urlSafeNoPad input).toList = Base64.encode Base64.urlSafe input
  decodeStandard_eq : ∀ text, decodeStandard text = Base64.decode Base64.standard text.toList

/-- Base64 as it is specified. -/
@[reducible] def specifiedEngines : Base64Engines where
  standard input := String.ofList (Base64.pad (Base64.encode Base64.standard input))
  urlSafeNoPad input := String.ofList (Base64.encode Base64.urlSafe input)
  decodeStandard text := Base64.decode Base64.standard text.toList
  standard_eq _ := String.toList_ofList
  urlSafeNoPad_eq _ := String.toList_ofList
  decodeStandard_eq _ := rfl

def pkceCodeChallenge [Sha256] [Base64Engines] (verifier : String) : String :=
  let hash := Sha256.digest (Bytes.ofText verifier)
  withoutFinal '='
    (Text.replace (Text.replace (Base64Engines.standard hash) "+" "-") "/" "_")

def pkceSha256Challenge [Sha256] [Base64Engines] (verifier : String) : String :=
  let digest := Sha256.digest (Bytes.ofText verifier)
  Base64Engines.urlSafeNoPad digest

/-- Padding is pushed while the length in bytes is no multiple of four. -/
def normalized (text : String) : String :=
  if text.utf8ByteSize % 4 ≠ 0 then normalized (text.push '=') else text
termination_by (4 - text.utf8ByteSize % 4) % 4
decreasing_by
  have hsize : (text.push '=').utf8ByteSize = text.utf8ByteSize + 1 := String.utf8ByteSize_push
  omega

def base64urlDecode [Base64Engines] (input : String) : Option Bytes :=
  Base64Engines.decodeStandard (normalized (Text.replace (Text.replace input "-" "+") "_" "/"))

/-! ### Two spellings -/

/-- The replacements from the standard to the URL-safe spelling. -/
def toUrlSafe (c : Char) : Char :=
  let replaced := if c = '+' then '-' else c
  if replaced = '/' then '_' else replaced

def toStandard (c : Char) : Char :=
  let replaced := if c = '-' then '+' else c
  if replaced = '_' then '/' else replaced

theorem toUrlSafe_standard :
    ∀ digit, toUrlSafe (Base64.standard.char digit) = Base64.urlSafe.char digit := by decide +kernel

theorem toStandard_urlSafe :
    ∀ digit, toStandard (Base64.urlSafe.char digit) = Base64.standard.char digit := by decide +kernel

theorem toList_replace_char {pattern into : String} {c d : Char} (hpattern : pattern.toList = [c])
    (hinto : into.toList = [d]) (text : String) :
    (Text.replace text pattern into).toList = text.toList.map fun x => if x = c then d else x := by
  rw [Text.replace, String.toList_ofList, hpattern, hinto, Text.replaceChars_singleton]

theorem toList_toUrlSafe (text : String) :
    (Text.replace (Text.replace text "+" "-") "/" "_").toList = text.toList.map toUrlSafe := by
  have hfirst := toList_replace_char (rfl : "+".toList = ['+']) (rfl : "-".toList = ['-']) text
  rw [toList_replace_char rfl rfl, hfirst, List.map_map]
  rfl

theorem toList_toStandard (text : String) :
    (Text.replace (Text.replace text "-" "+") "_" "/").toList = text.toList.map toStandard := by
  have hfirst := toList_replace_char (rfl : "-".toList = ['-']) (rfl : "+".toList = ['+']) text
  rw [toList_replace_char rfl rfl, hfirst, List.map_map]
  rfl

/-! ### The padding loop -/

theorem utf8ByteSize_of_ascii {text : String} (h : ∀ c ∈ text.toList, c.toNat < 128) :
    text.utf8ByteSize = text.toList.length := by
  have hbytes : ∀ chars : List Char, (∀ c ∈ chars, c.toNat < 128) →
      (chars.flatMap String.utf8EncodeChar).length = chars.length := by
    intro chars hchars
    induction chars with
    | nil => rfl
    | cons c rest ih =>
        have hc : c.toNat < 128 := hchars c List.mem_cons_self
        have hone : c.utf8Size = 1 := by
          rw [Char.utf8Size_eq_one_iff, UInt32.le_iff_toNat_le]
          exact Nat.le_of_lt_succ hc
        rw [List.flatMap_cons, List.length_append, String.length_utf8EncodeChar, hone,
          ih fun d hd => hchars d (List.mem_cons_of_mem c hd), List.length_cons, Nat.add_comm]
  rw [← String.size_toByteArray, ← Bytes.toByteArray_ofText, List.size_toByteArray]
  exact hbytes text.toList h

/-- The loop pads a text of ASCII to a multiple of four characters. -/
theorem toList_normalized {text : String} (h : ∀ c ∈ text.toList, c.toNat < 128) :
    (normalized text).toList = Base64.pad text.toList := by
  induction text using normalized.induct with
  | case1 text hmissing ih =>
      have hsize := utf8ByteSize_of_ascii h
      have hpushed : ∀ c ∈ (text.push '=').toList, c.toNat < 128 := by
        intro c hc
        rw [String.toList_push, List.mem_append, List.mem_singleton] at hc
        rcases hc with hc | rfl
        · exact h c hc
        · decide
      obtain ⟨n, hn⟩ : ∃ n, Base64.missing text.toList.length = n + 1 :=
        ⟨Base64.missing text.toList.length - 1, by unfold Base64.missing; omega⟩
      have hnext : Base64.missing (text.toList.length + 1) = n := by
        unfold Base64.missing at hn ⊢
        omega
      rw [normalized, if_pos hmissing, ih hpushed, String.toList_push, Base64.pad, Base64.pad,
        List.length_append, List.length_singleton, hn, hnext, List.append_assoc,
        List.replicate_succ]
      rfl
  | case2 text hnone =>
      have hsize := utf8ByteSize_of_ascii h
      have hmissing : Base64.missing text.toList.length = 0 := by
        unfold Base64.missing
        omega
      rw [normalized, if_neg hnone, Base64.pad, hmissing, List.replicate_zero, List.append_nil]

/-! ### The two encoders -/

/-- Both modules make the same challenge, and what is encoded without padding is read back. -/
theorem pkce_encoders_agree [Sha256] [Base64Engines] :
    (∀ verifier, pkceCodeChallenge verifier = pkceSha256Challenge verifier) ∧
      ∀ input, base64urlDecode (Base64Engines.urlSafeNoPad input) = some input := by
  constructor
  · intro verifier
    apply String.toList_inj.mp
    unfold pkceCodeChallenge pkceSha256Challenge withoutFinal
    dsimp only
    rw [toList_toUrlSafe, Base64Engines.standard_eq, Base64Engines.urlSafeNoPad_eq, String.toList_ofList]
    rw [Base64.map_pad rfl, Base64.map_encode toUrlSafe_standard]
    exact Base64.unpad_pad Base64.not_mem_encode
  · intro input
    have hrespelled : (Text.replace (Text.replace (Base64Engines.urlSafeNoPad input) "-" "+") "_"
        "/").toList = Base64.encode Base64.standard input := by
      rw [toList_toStandard, Base64Engines.urlSafeNoPad_eq, Base64.map_encode toStandard_urlSafe]
    rw [base64urlDecode, Base64Engines.decodeStandard_eq, toList_normalized, hrespelled,
      Base64.decode_pad_encode]
    intro c hc
    rw [hrespelled] at hc
    exact Base64.ascii_of_mem_encode hc

end Liz
