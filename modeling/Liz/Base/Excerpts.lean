import Liz.Base.Text
import Mathlib.Algebra.GroupWithZero.Nat

/-!
# Excerpts of a text

Texts that stand in another text, one behind the other. A text that is not longer than one of its
excerpts is that excerpt, and has no other.
-/

namespace Text

/-- The excerpts stand in the text in their order, and do not overlap. -/
def InOrder : List String → List Char → Prop
  | [], _ => True
  | excerpt :: rest, text =>
      ∃ before after, text = before ++ excerpt.toList ++ after ∧ InOrder rest after

theorem inOrder_self (text : String) : InOrder [text] text.toList := ⟨[], [], by simp, trivial⟩

theorem InOrder.append_left {excerpts : List String} {text : List Char}
    (h : InOrder excerpts text) (before : List Char) : InOrder excerpts (before ++ text) := by
  cases excerpts with
  | nil => trivial
  | cons excerpt rest =>
      obtain ⟨front, after, rfl, hrest⟩ := h
      exact ⟨before ++ front, after, by simp only [List.append_assoc], hrest⟩

/-- Some of the excerpts stand in the text if all of them do. -/
theorem InOrder.sublist {excerpts some : List String} (hsome : some.Sublist excerpts)
    {text : List Char} (h : InOrder excerpts text) : InOrder some text := by
  induction hsome generalizing text with
  | slnil => trivial
  | cons excerpt _ ih =>
      obtain ⟨before, after, rfl, hrest⟩ := h
      exact (ih hrest).append_left _
  | cons_cons excerpt _ ih =>
      obtain ⟨before, after, rfl, hrest⟩ := h
      exact ⟨before, after, rfl, ih hrest⟩

theorem inOrder_join (excerpts : List String) (sep : String) :
    InOrder excerpts (join excerpts sep).toList := by
  induction excerpts with
  | nil => trivial
  | cons first rest ih =>
      cases rest with
      | nil =>
          rw [join, String.intercalate_singleton]
          exact inOrder_self first
      | cons second others =>
          rw [join, String.intercalate_cons_cons, String.toList_append, String.toList_append]
          refine ⟨[], sep.toList ++ (join (second :: others) sep).toList, ?_, ih.append_left _⟩
          rw [List.nil_append, List.append_assoc]
          rfl

theorem InOrder.length_le {excerpts : List String} {text : List Char}
    (h : InOrder excerpts text) : (excerpts.map String.length).sum ≤ text.length := by
  induction excerpts generalizing text with
  | nil => exact Nat.zero_le _
  | cons excerpt rest ih =>
      obtain ⟨before, after, rfl, hrest⟩ := h
      have hlength := ih hrest
      rw [List.map_cons, List.sum_cons, List.length_append, List.length_append,
        String.length_toList]
      omega

theorem inOrder_nil {excerpts : List String} (hne : ∀ excerpt ∈ excerpts, excerpt ≠ "") :
    InOrder excerpts [] ↔ excerpts = [] := by
  constructor
  · intro h
    cases excerpts with
    | nil => rfl
    | cons excerpt rest =>
        have hlength := h.length_le
        rw [List.map_cons, List.sum_cons, List.length_nil] at hlength
        have hempty : excerpt.length = 0 := by omega
        exact absurd (String.length_eq_zero_iff.mp hempty) (hne excerpt List.mem_cons_self)
  · rintro rfl
    trivial

/-- In a text that is not longer than one of the excerpts there is no other. -/
theorem inOrder_iff_of_mem {excerpts : List String} (hne : ∀ excerpt ∈ excerpts, excerpt ≠ "")
    {excerpt : String} (hmem : excerpt ∈ excerpts) {text : String}
    (hlength : text.length ≤ excerpt.length) :
    InOrder excerpts text.toList ↔ excerpts = [excerpt] ∧ text = excerpt := by
  constructor
  · intro h
    obtain ⟨before, after, rfl⟩ := List.append_of_mem hmem
    have hsum := h.length_le
    rw [List.map_append, List.map_cons, List.sum_append, List.sum_cons,
      String.length_toList] at hsum
    have hnone : ∀ others : List String, (∀ other ∈ others, other ≠ "") →
        (others.map String.length).sum = 0 → others = [] := by
      intro others hothers hzero
      cases others with
      | nil => rfl
      | cons other rest =>
          rw [List.map_cons, List.sum_cons] at hzero
          exact absurd (String.length_eq_zero_iff.mp (by omega : other.length = 0))
            (hothers other List.mem_cons_self)
    have hbefore := hnone before (fun other h => hne other (List.mem_append_left _ h)) (by omega)
    have hafter := hnone after (fun other h => hne other
      (List.mem_append_right _ (List.mem_cons_of_mem _ h))) (by omega)
    subst hbefore
    subst hafter
    refine ⟨rfl, ?_⟩
    obtain ⟨front, back, htext, -⟩ := h
    have hparts := congrArg List.length htext
    rw [List.length_append, List.length_append, String.length_toList,
      String.length_toList] at hparts
    have hfront : front = [] := List.eq_nil_of_length_eq_zero (by omega)
    have hback : back = [] := List.eq_nil_of_length_eq_zero (by omega)
    rw [hfront, hback, List.nil_append, List.append_nil] at htext
    exact String.toList_inj.mp htext
  · rintro ⟨rfl, rfl⟩
    exact inOrder_self text

theorem length_trim_le (s : String) : (trim s).length ≤ s.length := by
  rw [trim, String.length_ofList, List.length_reverse, ← String.length_toList]
  calc ((s.toList.dropWhile isWhitespace).reverse.dropWhile isWhitespace).length
      ≤ (s.toList.dropWhile isWhitespace).reverse.length := (List.dropWhile_suffix _).length_le
    _ = (s.toList.dropWhile isWhitespace).length := List.length_reverse
    _ ≤ s.toList.length := (List.dropWhile_suffix _).length_le

end Text
