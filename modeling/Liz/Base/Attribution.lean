import Mathlib.Data.List.Forall2
import Mathlib.Data.List.Nodup
import Mathlib.Data.List.Sublists
import Mathlib.Tactic.Tauto

/-!
# Answers without a sender

A number of requests wait, each for one of a set of tools, and are carried out one after another. What
comes back names the tool at most: output is attributed to the first request that waits, and a
result to the first one that waits for the tool, which then waits no longer. Every request gets what
belongs to it exactly when, tool by tool, the results come in the order in which the requests wait,
and the requests with output are each the first one when their output comes.
-/

namespace Attribution

variable {α τ β ρ : Type} [DecidableEq τ] [DecidableEq α] (tool : α → τ) (output : α → List β)
  (result : α → ρ)

/-- The first request for the tool waits no longer. -/
def retire (waiting : List α) (t : τ) : List α := waiting.eraseP fun c => tool c = t

/-- The output that a request gets while a list of requests is carried out. -/
def delivered : List α → List α → α → List β
  | _, [], _ => []
  | waiting, e :: rest, c =>
      (if waiting.head? = some c then output e else []) ++
        delivered (retire tool waiting (tool e)) rest c

/-- The result that a request gets first while a list of requests is carried out. -/
def settled : List α → List α → α → Option ρ
  | _, [], _ => none
  | waiting, e :: rest, c =>
      if waiting.find? (fun w => tool w = tool e) = some c then some (result e)
      else settled (retire tool waiting (tool e)) rest c

/-- The requests that get the outputs, one for each request that has output. -/
def targets : List α → List α → List α
  | _, [] => []
  | waiting, e :: rest =>
      (if output e = [] then [] else waiting.head?.toList) ++
        targets (retire tool waiting (tool e)) rest

variable {tool output result}

variable (tool) in
omit [DecidableEq α] in
theorem retire_sublist (waiting : List α) (t : τ) : (retire tool waiting t).Sublist waiting :=
  List.eraseP_sublist

/-! ### Results -/

omit [DecidableEq α] in
/-- Only the requests for the tool change, and the first of them goes. -/
theorem filter_retire (waiting : List α) (s t : τ) :
    (retire tool waiting s).filter (fun c => tool c = t) =
      if s = t then (waiting.filter fun c => tool c = t).tail
      else waiting.filter fun c => tool c = t := by
  induction waiting with
  | nil => simp [retire]
  | cons c rest ih =>
      by_cases hs : tool c = s
      · rw [retire, List.eraseP_cons_of_pos (by simpa using hs)]
        by_cases ht : s = t
        · simp [ht, hs.trans ht]
        · rw [if_neg ht, List.filter_cons_of_neg (by simpa [hs] using ht)]
      · have hcons : retire tool (c :: rest) s = c :: retire tool rest s :=
          List.eraseP_cons_of_neg (by simpa using hs)
        rw [hcons, List.filter_cons, ih, List.filter_cons]
        by_cases ht : s = t
        · have hc : tool c ≠ t := fun h => hs (h.trans ht.symm)
          simp [ht, hc]
        · simp [ht]

omit [DecidableEq α] in
theorem retire_of_find {waiting : List α} {t : τ} {c : α}
    (h : waiting.find? (fun w => tool w = t) = some c) :
    ∃ before after, waiting = before ++ c :: after ∧ retire tool waiting t = before ++ after := by
  obtain ⟨hc, before, after, rfl, hbefore⟩ := List.find?_eq_some_iff_append.mp h
  refine ⟨before, after, rfl, ?_⟩
  have hnone : ∀ b ∈ before, ¬ (decide (tool b = t)) = true := by
    intro b hb
    simpa using hbefore b hb
  have hfirst : (c :: after).eraseP (fun w => tool w = t) = after := List.eraseP_cons_of_pos hc
  rw [retire, List.eraseP_append_right _ hnone, hfirst]

omit [DecidableEq α] in
/-- All the requests but the one that has been answered still wait. -/
theorem mem_retire_iff {waiting : List α} (hnodup : waiting.Nodup) {t : τ} {c : α}
    (h : waiting.find? (fun w => tool w = t) = some c) {d : α} :
    d ∈ retire tool waiting t ↔ d ∈ waiting ∧ d ≠ c := by
  obtain ⟨before, after, rfl, hretire⟩ := retire_of_find h
  have hparts := List.nodup_middle.mp hnodup
  rw [hretire, List.mem_append, List.mem_append, List.mem_cons]
  have hc : c ∉ before ++ after := (List.nodup_cons.mp hparts).1
  constructor
  · intro hd
    refine ⟨hd.imp_right Or.inr, ?_⟩
    rintro rfl
    exact hc (List.mem_append.mpr hd)
  · rintro ⟨hd | rfl | hd, hne⟩
    · exact .inl hd
    · exact absurd rfl hne
    · exact .inr hd

theorem settled_of_not_mem {waiting : List α} {c : α} (h : c ∉ waiting) (executed : List α) :
    settled tool result waiting executed c = none := by
  induction executed generalizing waiting with
  | nil => rfl
  | cons e rest ih =>
      rw [settled, if_neg (fun hfind => h (List.mem_of_find?_eq_some hfind)),
        ih fun hc => h ((retire_sublist tool waiting (tool e)).subset hc)]

variable (tool result) in
/-- Every request gets its own result exactly when the results for each tool come in the order in
which its requests wait. -/
theorem settled_iff {waiting : List α} (executed : List α) (hnodup : waiting.Nodup)
    (hcount : ∀ t, (waiting.filter fun c => tool c = t).length =
      (executed.filter fun c => tool c = t).length) :
    (∀ c ∈ waiting, settled tool result waiting executed c = some (result c)) ↔
      ∀ t, (executed.filter fun c => tool c = t).map result =
        (waiting.filter fun c => tool c = t).map result := by
  induction executed generalizing waiting with
  | nil =>
      have hempty : waiting = [] := by
        rw [List.eq_nil_iff_forall_not_mem]
        intro c hc
        have hnone := List.eq_nil_of_length_eq_zero (hcount (tool c))
        exact List.not_mem_nil (hnone ▸ List.mem_filter.mpr ⟨hc, by simp⟩)
      subst hempty
      simp
  | cons e rest ih =>
      obtain ⟨c, hfind⟩ : ∃ c, waiting.find? (fun w => tool w = tool e) = some c := by
        have hlength := hcount (tool e)
        rw [List.filter_cons_of_pos (by simp), List.length_cons] at hlength
        obtain ⟨w, hw⟩ := List.length_pos_iff_exists_mem.mp
          (show 0 < (waiting.filter fun w => tool w = tool e).length by omega)
        rw [← Option.isSome_iff_exists, List.find?_isSome]
        exact ⟨w, List.mem_filter.mp hw⟩
      have hfirst : waiting.filter (fun w => tool w = tool e) =
          c :: (retire tool waiting (tool e)).filter (fun w => tool w = tool e) := by
        rw [filter_retire, if_pos rfl]
        exact List.eq_cons_of_mem_head? (by rw [List.head?_filter, hfind]; rfl)
      have hother : ∀ t, tool e ≠ t → waiting.filter (fun w => tool w = t) =
          (retire tool waiting (tool e)).filter (fun w => tool w = t) := by
        intro t ht
        rw [filter_retire, if_neg ht]
      have hrest : ∀ t, ((retire tool waiting (tool e)).filter fun w => tool w = t).length =
          (rest.filter fun w => tool w = t).length := by
        intro t
        have hlength := hcount t
        by_cases ht : tool e = t
        · subst ht
          rw [hfirst, List.filter_cons_of_pos (by simp)] at hlength
          simpa using hlength
        · rwa [hother t ht, List.filter_cons_of_neg (by simpa using ht)] at hlength
      have hnodup' := hnodup.sublist (retire_sublist tool waiting (tool e))
      have hsplit : (∀ d ∈ waiting, settled tool result waiting (e :: rest) d = some (result d)) ↔
          result e = result c ∧ ∀ d ∈ retire tool waiting (tool e),
            settled tool result (retire tool waiting (tool e)) rest d = some (result d) := by
        have hc : c ∈ waiting := List.mem_of_find?_eq_some hfind
        constructor
        · intro h
          refine ⟨by simpa [settled, hfind] using h c hc, fun d hd => ?_⟩
          obtain ⟨hd, hne⟩ := (mem_retire_iff hnodup hfind).mp hd
          simpa [settled, hfind, hne.symm] using h d hd
        · rintro ⟨he, h⟩ d hd
          by_cases hne : d = c
          · subst hne
            simp [settled, hfind, he]
          · simpa [settled, hfind, Ne.symm hne] using
              h d ((mem_retire_iff hnodup hfind).mpr ⟨hd, hne⟩)
      rw [hsplit, ih hnodup' hrest]
      constructor
      · rintro ⟨he, h⟩ t
        by_cases ht : tool e = t
        · subst ht
          rw [hfirst, List.filter_cons_of_pos (by simp), List.map_cons, List.map_cons, he,
            h (tool e)]
        · rw [hother t ht, List.filter_cons_of_neg (by simpa using ht), h t]
      · intro h
        have hhead := h (tool e)
        rw [hfirst, List.filter_cons_of_pos (by simp), List.map_cons, List.map_cons] at hhead
        obtain ⟨he, htail⟩ := List.cons.inj hhead
        refine ⟨he, fun t => ?_⟩
        by_cases ht : tool e = t
        · exact ht ▸ htail
        · have := h t
          rwa [hother t ht, List.filter_cons_of_neg (by simpa using ht)] at this

/-! ### Output -/

theorem mem_waiting_of_delivered {waiting executed : List α} {c : α}
    (h : delivered tool output waiting executed c ≠ []) : c ∈ waiting := by
  induction executed generalizing waiting with
  | nil => exact absurd rfl h
  | cons e rest ih =>
      by_cases hhead : waiting.head? = some c
      · exact List.mem_of_mem_head? hhead
      · rw [delivered, if_neg hhead, List.nil_append] at h
        exact (retire_sublist tool waiting (tool e)).subset (ih h)

theorem mem_targets_of_delivered {waiting executed : List α} {c : α}
    (h : delivered tool output waiting executed c ≠ []) : c ∈ targets tool output waiting executed := by
  induction executed generalizing waiting with
  | nil => exact absurd rfl h
  | cons e rest ih =>
      rw [targets, List.mem_append]
      by_cases hrest : delivered tool output (retire tool waiting (tool e)) rest c = []
      · rw [delivered, hrest, List.append_nil] at h
        by_cases hhead : waiting.head? = some c
        · rw [if_pos hhead] at h
          rw [if_neg h, hhead]
          exact .inl (List.mem_singleton_self c)
        · rw [if_neg hhead] at h
          exact absurd rfl h
      · exact .inr (ih hrest)

variable (tool output) in
omit [DecidableEq α] in
theorem length_targets_le (waiting executed : List α) :
    (targets tool output waiting executed).length ≤
      (executed.filter fun e => !(output e).isEmpty).length := by
  induction executed generalizing waiting with
  | nil => exact Nat.le_refl 0
  | cons e rest ih =>
      have hrest := ih (retire tool waiting (tool e))
      rw [targets, List.length_append]
      by_cases hout : output e = []
      · rw [if_pos hout, List.filter_cons_of_neg (by simp [hout])]
        simpa using hrest
      · rw [if_neg hout, List.filter_cons_of_pos (by simp [hout]), List.length_cons]
        have hone : waiting.head?.toList.length ≤ 1 := by cases waiting <;> simp
        omega

omit [DecidableEq α] in
/-- Two elements of a list without repetitions stand in one order only. -/
theorem not_pair_sublist {l : List α} (hnodup : l.Nodup) {a b : α} (hab : [a, b].Sublist l) :
    ¬ [b, a].Sublist l := by
  intro hba
  have hne : a ≠ b := by
    have := hnodup.sublist hab
    simp only [List.nodup_cons, List.mem_singleton] at this
    exact this.1
  induction l with
  | nil => exact absurd hab (by simp)
  | cons c rest ih =>
      have hrest := List.nodup_cons.mp hnodup
      have hsecond : ∀ x y : α, [x, y].Sublist rest → y ∈ rest := fun x y h =>
        h.subset (List.mem_cons_of_mem x (List.mem_singleton_self y))
      rcases List.sublist_cons_iff.mp hab with hab' | ⟨ra, ha, -⟩
      · rcases List.sublist_cons_iff.mp hba with hba' | ⟨rb, hb, -⟩
        · exact ih hrest.2 hab' hba'
        · exact hrest.1 ((List.cons.inj hb).1 ▸ hsecond a b hab')
      · rcases List.sublist_cons_iff.mp hba with hba' | ⟨rb, hb, -⟩
        · exact hrest.1 ((List.cons.inj ha).1 ▸ hsecond b a hba')
        · exact hne ((List.cons.inj ha).1.trans (List.cons.inj hb).1.symm)

variable (tool output) in
/-- Exactly the requests of a list get output, and each of them its own. -/
def Owned (waiting executed owners : List α) : Prop :=
  (∀ c ∈ owners, delivered tool output waiting executed c = output c) ∧
    ∀ c ∉ owners, delivered tool output waiting executed c = []

theorem delivered_cons_head {waiting : List α} {c : α} (hhead : waiting.head? = some c) (e : α)
    (rest : List α) :
    delivered tool output waiting (e :: rest) c =
      output e ++ delivered tool output (retire tool waiting (tool e)) rest c := by
  rw [delivered, if_pos hhead]

theorem delivered_cons_other {waiting : List α} {c : α} (hhead : waiting.head? ≠ some c) (e : α)
    (rest : List α) :
    delivered tool output waiting (e :: rest) c =
      delivered tool output (retire tool waiting (tool e)) rest c := by
  rw [delivered, if_neg hhead, List.nil_append]

/-- When output comes, the first request that waits is the first owner: the owners keep the order in
which requests wait, and an owner behind another one that waits comes too late. -/
theorem Owned.head {order : List α} (hnodup : order.Nodup) {waiting : List α}
    (hwaiting : waiting.Sublist order) {first : α} {others : List α}
    (howners : (first :: others).Sublist order) (houtput : output first ≠ []) {e : α}
    (hout : output e ≠ []) {rest : List α}
    (h : Owned tool output waiting (e :: rest) (first :: others)) : waiting.head? = some first := by
  by_contra hne
  have hget := h.1 first List.mem_cons_self
  rw [delivered_cons_other hne] at hget
  have hmem : first ∈ waiting := (retire_sublist tool waiting (tool e)).subset
    (mem_waiting_of_delivered (hget ▸ houtput))
  cases waiting with
  | nil => exact List.not_mem_nil hmem
  | cons c behind =>
      have hcfirst : c ≠ first := fun h => hne (by rw [h]; rfl)
      have hc : c ∈ first :: others := by
        by_contra hc
        have hget := h.2 c hc
        rw [delivered_cons_head (by rfl)] at hget
        exact hout (List.append_eq_nil_iff.mp hget).1
      have hbehind := List.mem_of_ne_of_mem (Ne.symm hcfirst) hmem
      have hafter := List.mem_of_ne_of_mem hcfirst hc
      exact not_pair_sublist hnodup
        (((List.singleton_sublist.mpr hbehind).cons_cons c).trans hwaiting)
        (((List.singleton_sublist.mpr hafter).cons_cons first).trans howners)

/-- An owner gets nothing after the output that it gets first: some other owner would be left
without output. -/
theorem Owned.nothing_more {waiting : List α} {first : α} {others : List α}
    (hnodup : (first :: others).Nodup) (houtput : ∀ c ∈ others, output c ≠ []) {e : α}
    {rest : List α} (hlength : others.length = (rest.filter fun e => !(output e).isEmpty).length)
    (hhead : waiting.head? = some first)
    (h : Owned tool output waiting (e :: rest) (first :: others)) :
    delivered tool output (retire tool waiting (tool e)) rest first = [] := by
  by_contra hmore
  have hsubset : first :: others ⊆ targets tool output (retire tool waiting (tool e)) rest := by
    intro c hc
    rcases List.mem_cons.mp hc with rfl | hother
    · exact mem_targets_of_delivered hmore
    · have hne : waiting.head? ≠ some c := by
        rw [hhead, Ne, Option.some.injEq]
        rintro rfl
        exact (List.nodup_cons.mp hnodup).1 hother
      have hget := h.1 c hc
      rw [delivered_cons_other hne] at hget
      exact mem_targets_of_delivered (hget ▸ houtput c hother)
  have hmany := (hnodup.subperm hsubset).length_le
  have hfew := length_targets_le tool output
    (retire tool waiting (tool e)) rest
  rw [List.length_cons] at hmany
  omega

variable (tool) in
/-- Output that comes for the first owner leaves the others to be served by what comes later. -/
theorem owned_cons_iff (waiting : List α) {first : α} {others : List α} (e : α) {rest : List α}
    (hnodup : (first :: others).Nodup) (houtput : ∀ c ∈ others, output c ≠ [])
    (hlength : others.length = (rest.filter fun e => !(output e).isEmpty).length)
    (hhead : waiting.head? = some first) :
    Owned tool output waiting (e :: rest) (first :: others) ↔
      output e = output first ∧ Owned tool output (retire tool waiting (tool e)) rest others := by
  have hfirst : first ∉ others := (List.nodup_cons.mp hnodup).1
  have hne : ∀ c, c ≠ first → waiting.head? ≠ some c := by
    intro c hc
    rw [hhead, Ne, Option.some.injEq]
    exact Ne.symm hc
  constructor
  · intro h
    have hnothing := h.nothing_more hnodup houtput hlength hhead
    have hown := h.1 first List.mem_cons_self
    rw [delivered_cons_head hhead, hnothing, List.append_nil] at hown
    refine ⟨hown, fun c hc => ?_, fun c hc => ?_⟩
    · have := h.1 c (List.mem_cons_of_mem first hc)
      rwa [delivered_cons_other (hne c (fun h => hfirst (h ▸ hc)))] at this
    · by_cases hcfirst : c = first
      · exact hcfirst ▸ hnothing
      · have := h.2 c (by simp [hcfirst, hc])
        rwa [delivered_cons_other (hne c hcfirst)] at this
  · rintro ⟨hown, h⟩
    refine ⟨fun c hc => ?_, fun c hc => ?_⟩
    · by_cases hcfirst : c = first
      · subst hcfirst
        rw [delivered_cons_head hhead, h.2 c hfirst, List.append_nil, hown]
      · rw [delivered_cons_other (hne c hcfirst)]
        exact h.1 c (List.mem_of_ne_of_mem hcfirst hc)
    · have hparts := not_or.mp (mt List.mem_cons.mpr hc)
      rw [delivered_cons_other (hne c hparts.1)]
      exact h.2 c hparts.2

/-- Exactly the requests of a list get output, each its own, if and only if the outputs go to the
requests of the list one after another. Both lists keep the order in which requests wait. -/
theorem owned_iff_targets {order : List α} (hnodup : order.Nodup) {waiting : List α}
    (hwaiting : waiting.Sublist order) {owners : List α} (howners : owners.Sublist order)
    (houtput : ∀ c ∈ owners, output c ≠ []) {executed : List α}
    (hlength : owners.length = (executed.filter fun e => !(output e).isEmpty).length) :
    Owned tool output waiting executed owners ↔
      targets tool output waiting executed = owners ∧
        (executed.filter fun e => !(output e).isEmpty).map output = owners.map output := by
  induction executed generalizing waiting owners with
  | nil =>
      have hnone := List.eq_nil_of_length_eq_zero hlength
      subst hnone
      simp [Owned, delivered, targets]
  | cons e rest ih =>
      have hretire := (retire_sublist tool waiting (tool e)).trans hwaiting
      by_cases hout : output e = []
      · -- without output nothing is attributed
        rw [List.filter_cons_of_neg (by simp [hout])] at hlength ⊢
        rw [targets, if_pos hout, List.nil_append, ← ih hretire howners houtput hlength]
        simp [Owned, delivered, hout]
      · rw [List.filter_cons_of_pos (by simp [hout]), List.length_cons] at hlength
        rw [List.filter_cons_of_pos (by simp [hout]), targets, if_neg hout]
        obtain ⟨first, others, rfl⟩ := List.exists_cons_of_length_eq_add_one hlength
        have hothers : others.Sublist order := (List.sublist_cons_self first others).trans howners
        have houtputs : ∀ c ∈ others, output c ≠ [] := fun c hc =>
          houtput c (List.mem_cons_of_mem first hc)
        have hlengths : others.length = (rest.filter fun e => !(output e).isEmpty).length := by
          simpa using hlength
        have hcons := fun hhead => owned_cons_iff tool waiting e (hnodup.sublist howners) houtputs
          hlengths hhead
        have hrest := ih hretire hothers houtputs hlengths
        constructor
        · intro h
          have hhead := h.head hnodup hwaiting howners (houtput first List.mem_cons_self) hout
          obtain ⟨hown, h⟩ := (hcons hhead).mp h
          obtain ⟨htargets, hmap⟩ := hrest.mp h
          rw [hhead, htargets, List.map_cons, List.map_cons, hmap, hown]
          exact ⟨rfl, rfl⟩
        · rintro ⟨htargets, hmap⟩
          obtain ⟨hown, hmaps⟩ := List.cons.inj hmap
          have hfew := length_targets_le tool output
            (retire tool waiting (tool e)) rest
          cases hhead : waiting.head? with
          | none =>
              rw [hhead] at htargets
              have := congrArg List.length htargets
              simp only [Option.toList_none, List.nil_append, List.length_cons] at this
              omega
          | some d =>
              rw [hhead, Option.toList_some, List.singleton_append] at htargets
              obtain ⟨rfl, htail⟩ := List.cons.inj htargets
              exact (hcons hhead).mpr ⟨hown, hrest.mpr ⟨htail, hmaps⟩⟩

/-! ### Which request is the first to wait -/

variable (tool) in
/-- One request after another has been answered. -/
def retireAll (waiting : List α) (answered : List τ) : List α := answered.foldl (retire tool) waiting

/-- What stands before an element of a list. -/
def earlier (l : List α) (a : α) : List α := l.takeWhile (· ≠ a)

variable (tool) in
/-- When a request is carried out, enough requests for every tool have been carried out to let
another one be the first that waits: as many as wait before it, and no more for its own tool. -/
def Reaches (waiting executed : List α) (e c : α) : Prop :=
  ∀ t, ((earlier waiting c).map tool).count t ≤ ((earlier executed e).map tool).count t ∧
    (t = tool c → ((earlier waiting c).map tool).count t = ((earlier executed e).map tool).count t)

omit [DecidableEq α] in
theorem retireAll_cons (c : α) (waiting : List α) (answered : List τ) :
    retireAll tool (c :: waiting) answered =
      if tool c ∈ answered then retireAll tool waiting (answered.erase (tool c))
      else c :: retireAll tool waiting answered := by
  induction answered generalizing waiting with
  | nil => rfl
  | cons t rest ih =>
      by_cases ht : tool c = t
      · have hfirst : retire tool (c :: waiting) t = waiting :=
          List.eraseP_cons_of_pos (by simpa using ht)
        rw [if_pos (ht ▸ List.mem_cons_self), ← ht, List.erase_cons_head, retireAll,
          List.foldl_cons, ht, hfirst]
        rfl
      · have hlater : retire tool (c :: waiting) t = c :: retire tool waiting t :=
          List.eraseP_cons_of_neg (by simpa using ht)
        have hrest := ih (retire tool waiting t)
        rw [retireAll, List.foldl_cons, hlater, ← retireAll, hrest,
          List.erase_cons_tail (by simpa using Ne.symm ht)]
        simp only [List.mem_cons, ht, false_or]
        rfl

omit [DecidableEq α] in
theorem retireAll_sublist (waiting : List α) (answered : List τ) :
    (retireAll tool waiting answered).Sublist waiting := by
  induction answered generalizing waiting with
  | nil => exact List.Sublist.refl waiting
  | cons t rest ih => exact (ih (retire tool waiting t)).trans (retire_sublist tool waiting t)

/-- A request is the first that waits when the ones before it have been answered, and not more than
these for its own tool. -/
theorem head_retireAll_iff {waiting : List α} (hnodup : waiting.Nodup) {c : α} (hc : c ∈ waiting)
    (answered : List τ) :
    (retireAll tool waiting answered).head? = some c ↔
      ∀ t, ((earlier waiting c).map tool).count t ≤ answered.count t ∧
        (t = tool c → ((earlier waiting c).map tool).count t = answered.count t) := by
  induction waiting generalizing answered with
  | nil => exact absurd hc List.not_mem_nil
  | cons d rest ih =>
      obtain ⟨hd, hrest⟩ := List.nodup_cons.mp hnodup
      rw [retireAll_cons]
      by_cases hdc : d = c
      · subst hdc
        have hnone : earlier (d :: rest) d = [] := by simp [earlier]
        rw [hnone]
        by_cases hmem : tool d ∈ answered
        · -- it has been answered itself
          rw [if_pos hmem]
          constructor
          · intro h
            exact absurd ((retireAll_sublist rest _).subset (List.mem_of_mem_head? h)) hd
          · intro h
            have := (h (tool d)).2 rfl
            exact absurd (List.count_pos_iff.mpr hmem) (by simp at this; omega)
        · rw [if_neg hmem]
          simp [List.count_eq_zero_of_not_mem hmem]
      · have hsome : earlier (d :: rest) c = d :: earlier rest c := by simp [earlier, hdc]
        rw [hsome, List.map_cons]
        by_cases hmem : tool d ∈ answered
        · rw [if_pos hmem, ih hrest (List.mem_of_ne_of_mem (Ne.symm hdc) hc)]
          have hpos := List.count_pos_iff.mpr hmem
          apply forall_congr'
          intro t
          rw [List.count_cons, List.count_erase]
          by_cases ht : tool d = t
          · subst ht
            have hle : ∀ n, n ≤ answered.count (tool d) - 1 ↔ n + 1 ≤ answered.count (tool d) := by
              omega
            have heq : ∀ n, n = answered.count (tool d) - 1 ↔ n + 1 = answered.count (tool d) := by
              omega
            simp only [beq_self_eq_true, if_true, hle, heq]
          · simp [ht]
        · rw [if_neg hmem, List.head?_cons, Option.some.injEq]
          constructor
          · intro h
            exact absurd h hdc
          · intro h
            have := (h (tool d)).1
            rw [List.count_cons, List.count_eq_zero_of_not_mem hmem] at this
            simp at this

omit [DecidableEq α] in
theorem forall₂_map_eq_and {γ : Type} (f : α → γ) {R : α → α → Prop} {l m : List α} :
    (List.Forall₂ R l m ∧ l.map f = m.map f) ↔
      List.Forall₂ (fun a b => f a = f b ∧ R a b) l m := by
  induction l generalizing m with
  | nil => cases m <;> simp
  | cons a l ih =>
      cases m with
      | nil => simp
      | cons b m =>
          rw [List.forall₂_cons, List.forall₂_cons, List.map_cons, List.map_cons, List.cons.injEq,
            ← ih]
          tauto

omit [DecidableEq α] in
theorem forall₂_congr_of_mem {β : Type} {R S : α → β → Prop} {l : List α} {m : List β}
    (h : ∀ a, ∀ b ∈ m, R a b ↔ S a b) : List.Forall₂ R l m ↔ List.Forall₂ S l m := by
  induction m generalizing l with
  | nil => simp
  | cons b m ih =>
      have hrest := fun {l : List α} => ih (l := l) fun a c hc => h a c (List.mem_cons_of_mem b hc)
      cases l with
      | nil => simp
      | cons a l => simp [hrest, h a b List.mem_cons_self]

theorem earlier_append_cons {before after : List α} {a : α} (h : a ∉ before) :
    earlier (before ++ a :: after) a = before := by
  have hall : ∀ b ∈ before, decide (b ≠ a) = true := by
    intro b hb
    simpa using fun he : b = a => h (he ▸ hb)
  rw [earlier, List.takeWhile_append_of_pos hall, List.takeWhile_cons_of_neg (by simp),
    List.append_nil]

variable (tool output) in
/-- The outputs go to the requests of a list, one after another, exactly when each of these is the
first that waits when the output comes. -/
theorem targets_eq_iff (waiting : List α) {done todo owners : List α} (hnodup : (done ++ todo).Nodup)
    (hlength : owners.length = (todo.filter fun e => !(output e).isEmpty).length) :
    targets tool output (retireAll tool waiting (done.map tool)) todo = owners ↔
      List.Forall₂ (fun e c =>
          (retireAll tool waiting ((earlier (done ++ todo) e).map tool)).head? = some c)
        (todo.filter fun e => !(output e).isEmpty) owners := by
  induction todo generalizing done owners with
  | nil =>
      have hnone := List.eq_nil_of_length_eq_zero hlength
      subst hnone
      simp [targets]
  | cons e rest ih =>
      have hnodup' : ((done ++ [e]) ++ rest).Nodup := by
        rwa [List.append_assoc, List.singleton_append]
      have hnext : retire tool (retireAll tool waiting (done.map tool)) (tool e) =
          retireAll tool waiting ((done ++ [e]).map tool) := by
        rw [retireAll, retireAll, List.map_append, List.foldl_append]
        rfl
      have hlist : done ++ [e] ++ rest = done ++ e :: rest := by simp
      rw [targets, hnext]
      by_cases hout : output e = []
      · rw [List.filter_cons_of_neg (by simp [hout])] at hlength ⊢
        rw [if_pos hout, List.nil_append, ih hnodup' hlength, hlist]
      · rw [List.filter_cons_of_pos (by simp [hout])] at hlength ⊢
        obtain ⟨first, others, rfl⟩ := List.exists_cons_of_length_eq_add_one hlength
        have hlengths : others.length = (rest.filter fun e => !(output e).isEmpty).length := by
          simpa using hlength
        have hdone : earlier (done ++ e :: rest) e = done := by
          refine earlier_append_cons fun he => ?_
          exact (List.nodup_append.mp hnodup).2.2 e he e List.mem_cons_self rfl
        rw [if_neg hout, List.forall₂_cons, hdone, ← hlist, ← ih hnodup' hlengths]
        have hfew := length_targets_le tool output
          (retireAll tool waiting ((done ++ [e]).map tool)) rest
        cases hhead : (retireAll tool waiting (done.map tool)).head? with
        | none =>
            constructor
            · intro h
              have := congrArg List.length h
              simp only [Option.toList_none, List.nil_append, List.length_cons] at this
              omega
            · intro h
              exact absurd h.1 (by simp)
        | some d => simp

variable (tool output) in
/-- Every request gets its own output exactly when, in the order in which the requests wait, each
request with output is the first that waits at one of the outputs, and that output is its own. -/
theorem delivered_iff {waiting executed : List α} (hnodup : waiting.Nodup)
    (hperm : executed.Perm waiting) :
    (∀ c ∈ waiting, delivered tool output waiting executed c = output c) ↔
      List.Forall₂ (fun e c => output e = output c ∧ Reaches tool waiting executed e c)
        (executed.filter fun e => !(output e).isEmpty)
        (waiting.filter fun c => !(output c).isEmpty) := by
  have hlength := (hperm.filter fun e => !(output e).isEmpty).length_eq.symm
  have houtput : ∀ c ∈ waiting.filter (fun c => !(output c).isEmpty), output c ≠ [] := by
    intro c hc
    simpa using List.of_mem_filter hc
  have howned : (∀ c ∈ waiting, delivered tool output waiting executed c = output c) ↔
      Owned tool output waiting executed (waiting.filter fun c => !(output c).isEmpty) := by
    constructor
    · intro h
      refine ⟨fun c hc => h c (List.mem_of_mem_filter hc), fun c hc => ?_⟩
      by_contra hget
      have hmem := mem_waiting_of_delivered hget
      rw [h c hmem] at hget
      exact hc (List.mem_filter.mpr ⟨hmem, by simpa using hget⟩)
    · intro h c hc
      by_cases hout : output c = []
      · rw [h.2 c (by simp [hout]), hout]
      · exact h.1 c (List.mem_filter.mpr ⟨hc, by simpa using hout⟩)
  have hexecuted : ([] ++ executed).Nodup := hperm.nodup_iff.mpr hnodup
  have htargets := targets_eq_iff tool output waiting hexecuted
    hlength
  have hreaches := forall₂_congr_of_mem (l := executed.filter fun e => !(output e).isEmpty)
    (m := waiting.filter fun c => !(output c).isEmpty)
    (R := fun e c => (retireAll tool waiting ((earlier executed e).map tool)).head? = some c)
    (S := Reaches tool waiting executed)
    fun e c hc => head_retireAll_iff hnodup (List.mem_of_mem_filter hc) _
  rw [howned, owned_iff_targets hnodup (List.Sublist.refl waiting) List.filter_sublist houtput
    hlength, ← forall₂_map_eq_and output, ← hreaches]
  exact and_congr_left' htargets

end Attribution
