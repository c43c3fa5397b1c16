import Liz.Base.Replacement
import Liz.Proof.Disclosure
import Liz.Runtime.Interactions

/-!
# What a redaction leaves

A message is redacted for a word in any letter case, and the word is replaced in two of its
spellings. The redacted message passes the check as long as the message has no other spelling of it;
the replacement neither forms the word again nor one of the phrases that are never let through.
-/

namespace Liz

open Text (Apart)

/-- A spelling of the word, in any letter case. -/
def Spells (word : String) (spelling : List Char) : Prop :=
  spelling.map Char.toLower = word.toList

theorem contains_toAsciiLowercase_iff (s word : String) :
    Text.contains (Text.toAsciiLowercase s) word = true ↔
      ∃ spelling, Spells word spelling ∧ spelling <:+: s.toList := by
  rw [Text.contains, decide_eq_true_iff, Text.toAsciiLowercase, String.toList_ofList]
  constructor
  · rintro ⟨before, after, heq⟩
    obtain ⟨front, back, htext, hfront, -⟩ := List.map_eq_append_iff.mp heq.symm
    obtain ⟨first, spelling, rfl, -, hspells⟩ := List.map_eq_append_iff.mp hfront
    exact ⟨spelling, hspells, first, back, htext.symm⟩
  · rintro ⟨spelling, hspells, hfound⟩
    rw [← hspells]
    exact hfound.map Char.toLower

/-- A spelling of a word is apart from a word from which the word itself is. -/
theorem Spells.apart {word : String} {spelling other lower : List Char} (h : Spells word spelling)
    (hlower : other.map Char.toLower = lower) (hword : Apart word.toList lower) :
    Apart spelling other :=
  Apart.of_map (by rwa [h, hlower])

theorem toList_redact (output : String) :
    (redactCommitmentLanguage output).toList =
      Text.replaceChars "Commitment".toList "Follow-up".toList 0
        (Text.replaceChars "commitment".toList "follow-up".toList 0 output.toList) := by
  exact String.toList_ofList.trans
    (congrArg (Text.replaceChars "Commitment".toList "Follow-up".toList 0) String.toList_ofList)

/-- Only the two spellings that are replaced stand in the output. -/
def OnlyReplacedSpellings (output : String) : Prop :=
  ∀ spelling, Spells "commitment" spelling → spelling <:+: output.toList →
    spelling = "commitment".toList ∨ spelling = "Commitment".toList

/-- A spelling is left in the redacted message if and only if it is none of the replaced ones. -/
theorem spelling_left_iff {output : String} {spelling : List Char}
    (h : Spells "commitment" spelling) :
    spelling <:+: (redactCommitmentLanguage output).toList ↔
      spelling <:+: output.toList ∧ spelling ≠ "commitment".toList ∧
        spelling ≠ "Commitment".toList := by
  have hword : Apart "commitment".toList "follow-up".toList := by decide
  have hsmallInto : Apart spelling "follow-up".toList := h.apart (by decide) hword
  have hcapitalInto : Apart spelling "Follow-up".toList := h.apart (by decide) hword
  have hother : ∀ pattern, Spells "commitment" pattern → spelling ≠ pattern →
      Apart spelling pattern := by
    intro pattern hpattern hne
    refine Apart.of_map_eq (h.trans hpattern.symm) hne ?_
    rw [hpattern]
    decide
  rw [toList_redact]
  by_cases hcapital : spelling = "Commitment".toList
  · subst hcapital
    exact iff_of_false (Text.not_infix_replaceChars (by decide) hcapitalInto)
      fun hfound => hfound.2.2 rfl
  · rw [Text.infix_replaceChars_iff (by decide) (hother "Commitment".toList rfl hcapital) hcapitalInto]
    by_cases hsmall : spelling = "commitment".toList
    · subst hsmall
      exact iff_of_false (Text.not_infix_replaceChars (by decide) hsmallInto)
        fun hfound => hfound.2.1 rfl
    · rw [Text.infix_replaceChars_iff (by decide) (hother "commitment".toList rfl hsmall) hsmallInto]
      exact ⟨fun hfound => ⟨hfound, hsmall, hcapital⟩, And.left⟩

/-- A phrase that the redaction cannot form stands in the message itself. -/
theorem contains_of_contains_redact {output phrase : String}
    (hphrase : Apart phrase.toList "follow-up".toList)
    (h : Text.contains (Text.toAsciiLowercase (redactCommitmentLanguage output)) phrase = true) :
    Text.contains (Text.toAsciiLowercase output) phrase = true := by
  rw [contains_toAsciiLowercase_iff] at h ⊢
  obtain ⟨spelling, hspells, hfound⟩ := h
  have hsmall : Apart spelling "follow-up".toList := hspells.apart (by decide) hphrase
  have hcapital : Apart spelling "Follow-up".toList := hspells.apart (by decide) hphrase
  rw [toList_redact] at hfound
  exact ⟨spelling, hspells, Text.infix_of_infix_replaceChars (by decide) hsmall
    (Text.infix_of_infix_replaceChars (by decide) hcapital hfound)⟩

theorem mentionsPrivateIdentity_of_redact {output : String}
    (h : mentionsPrivateIdentity (redactCommitmentLanguage output) = true) :
    mentionsPrivateIdentity output = true := by
  have happart : ∀ phrase ∈ ["owner prefers", "identity summary", "about you"],
      Apart phrase.toList "follow-up".toList := by decide
  rw [mentionsPrivateIdentity, List.any_eq_true] at h ⊢
  obtain ⟨phrase, hphrase, hfound⟩ := h
  exact ⟨phrase, hphrase, contains_of_contains_redact (happart phrase hphrase) hfound⟩

/-- A redacted message is allowed if and only if the word stood in the message in the two replaced
spellings only. -/
theorem redacted_allowed_iff (context : InteractionContext) (output redacted : String)
    (h : checkOutput context output = .redacted redacted) :
    checkOutput context redacted = .allowed ↔ OnlyReplacedSpellings output := by
  have hleft : Text.contains (Text.toAsciiLowercase (redactCommitmentLanguage output))
      "commitment" = true ↔ ¬ OnlyReplacedSpellings output := by
    simp only [contains_toAsciiLowercase_iff, OnlyReplacedSpellings]
    push Not
    refine exists_congr fun spelling => and_congr_right fun hspells => ?_
    exact spelling_left_iff hspells
  unfold checkOutput at h ⊢
  split at h
  · cases h
  · next howner =>
      split at h
      · cases h
      · next hnode =>
          split at h
          · next hpublic =>
              obtain rfl := OutputPolicyDecision.redacted.inj h
              have hnode' := mt (And.imp_right (And.imp_right mentionsPrivateIdentity_of_redact)) hnode
              rw [if_neg howner, if_neg hnode']
              by_cases honly : OnlyReplacedSpellings output
              · have hgone := mt hleft.mp (not_not_intro honly)
                rw [if_neg fun hfound => hgone hfound.2.2]
                exact iff_of_true rfl honly
              · rw [if_pos ⟨hpublic.1, hpublic.2.1, hleft.mpr honly⟩]
                exact iff_of_false OutputPolicyDecision.noConfusion honly
          · cases h

theorem commitment_redacted :
    checkOutput (visitor .stranger) "Follow-up." = .allowed ↔
      OnlyReplacedSpellings "Commitment." :=
  redacted_allowed_iff (visitor .stranger) "Commitment." "Follow-up." (by decide +kernel)

/-- A message in capitals is redacted to itself. -/
theorem capitals_left :
    ¬ ∀ context output redacted, checkOutput context output = .redacted redacted →
      checkOutput context redacted = .allowed := by
  intro hall
  have hredacted : checkOutput (visitor .stranger) "COMMITMENT" = .redacted "COMMITMENT" := by
    decide +kernel
  rw [hall _ _ _ hredacted] at hredacted
  cases hredacted

end Liz
