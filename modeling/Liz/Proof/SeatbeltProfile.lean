import Liz.Base.SExpr
import Liz.Executor.Shell

/-!
# The Seatbelt profile

The profile is a program in S-expressions, and the working directory stands in it between two quotes
as it is. It is read as the rules that were meant as long as the directory has no quote and no
backslash: any of these would have to be escaped to stand in a string.
-/

namespace Liz

open SExpr

def word (name : String) : SExpr := .atom name.toList

def quoted (value : String) : SExpr := .text value.toList

/-! ### The rules that are meant -/

def fixedRules : List SExpr :=
  [.list [word "version", word "1"],
   .list [word "deny", word "default"],
   .list [word "allow", word "process*"],
   .list [word "allow", word "signal", .list [word "target", word "self"]],
   .list [word "allow", word "file-read*"]]

/-- Writing is allowed under the directory. -/
def writeRule (workspaceRoot : String) : SExpr :=
  .list [word "allow", word "file-write*", .list [word "subpath", quoted workspaceRoot]]

def networkRules : SandboxNetworkAccess → List SExpr
  | .disabled => []
  | .restricted =>
      [.list [word "allow", word "network-outbound",
        .list [word "remote", word "ip", quoted "localhost:*"]]]
  | .enabled => [.list [word "allow", word "network-outbound"],
      .list [word "allow", word "network-inbound"]]

/-- The rules of the profile; without a working directory, writing is allowed where the command
runs. -/
def seatbeltRules (workingDir : Option String) (mode : SandboxMode)
    (networkAccess : SandboxNetworkAccess) : List SExpr :=
  fixedRules ++ (if mode = .workspaceWrite then [writeRule (workingDir.getD ".")] else []) ++
    networkRules networkAccess

/-! ### The text of the profile -/

theorem printLines_append (items others : List SExpr) :
    printLines (items ++ others) = printLines items ++ printLines others := by
  rw [printLines, List.flatMap_append]
  rfl

theorem printLines_fixedRules :
    ("(version 1)\n(deny default)\n(allow process*)\n(allow signal (target self))\n" ++
      "(allow file-read*)\n").toList = printLines fixedRules := by
  decide +kernel

theorem printLines_writeRule (workspaceRoot : String) :
    ("(allow file-write* (subpath \"" ++ workspaceRoot ++ "\"))\n").toList =
      printLines [writeRule workspaceRoot] := by
  have hline : printLines [writeRule workspaceRoot] =
      "(allow file-write* (subpath \"".toList ++ (workspaceRoot.toList ++ "\"))\n".toList) := by
    simp [printLines, writeRule, word, quoted, print, printItems]
  rw [hline, String.toList_append, String.toList_append, List.append_assoc]

/-- The profile is the text of its rules, with the directory as it is. -/
theorem buildMacosPolicy_eq (workingDir : Option String) (mode : SandboxMode)
    (networkAccess : SandboxNetworkAccess) :
    (buildMacosPolicy workingDir mode networkAccess).toList =
      printLines (seatbeltRules workingDir mode networkAccess) := by
  have hwrite : (if mode = .workspaceWrite then
      "(allow file-write* (subpath \"" ++ workingDir.getD "." ++ "\"))\n" else "").toList =
      printLines (if mode = .workspaceWrite then [writeRule (workingDir.getD ".")] else []) := by
    split
    · exact printLines_writeRule _
    · rfl
  unfold buildMacosPolicy seatbeltRules
  dsimp only
  rw [String.toList_append, String.toList_append, printLines_fixedRules, hwrite,
    printLines_append, printLines_append]
  congr 1
  cases networkAccess <;> decide +kernel

/-! ### What is read -/

theorem printable_fixedRules : ∀ rule ∈ fixedRules, rule.printable = true :=
  List.all_eq_true.mp (by decide)

theorem printable_networkRules (networkAccess : SandboxNetworkAccess) :
    ∀ rule ∈ networkRules networkAccess, rule.printable = true := by
  cases networkAccess <;> exact List.all_eq_true.mp (by decide)

theorem printable_writeRule {workspaceRoot : String} (h : Plain workspaceRoot.toList) :
    (writeRule workspaceRoot).printable = true := by
  have hwords : (["allow", "file-write*", "subpath"].all fun name => (word name).printable) = true := by
    decide
  simp only [List.all_cons, List.all_nil, Bool.and_eq_true] at hwords
  simp [writeRule, printable, printableItems, hwords, quoted, h]

theorem cost_seatbeltRules (workingDir : Option String) (networkAccess : SandboxNetworkAccess) :
    costOfItems (seatbeltRules workingDir .workspaceWrite networkAccess) =
      cost (workingDir.getD ".").toList := by
  have hfixed : costOfItems fixedRules = 0 := by decide
  have hnetwork : costOfItems (networkRules networkAccess) = 0 := by cases networkAccess <;> decide
  rw [seatbeltRules, if_pos rfl, costOfItems_append, costOfItems_append, hfixed, hnetwork]
  simp [writeRule, word, quoted, costOf, costOfItems]

/-- The profile has the backslashes of the directory and no others. -/
theorem count_buildMacosPolicy (workingDir : Option String) (networkAccess : SandboxNetworkAccess) :
    (buildMacosPolicy workingDir .workspaceWrite networkAccess).toList.count '\\' =
      (workingDir.getD ".").toList.count '\\' := by
  have hfixed : (printLines fixedRules).count '\\' = 0 := by decide
  have hnetwork : (printLines (networkRules networkAccess)).count '\\' = 0 := by
    cases networkAccess <;> decide
  rw [buildMacosPolicy_eq, seatbeltRules, if_pos rfl, printLines_append, printLines_append,
    List.count_append, List.count_append, hfixed, hnetwork, ← printLines_writeRule,
    String.toList_append, String.toList_append, List.count_append, List.count_append]
  have hbefore : ("(allow file-write* (subpath \"").toList.count '\\' = 0 := by decide
  have hbehind : ("\"))\n").toList.count '\\' = 0 := by decide
  omega

/-- The profile is read as its rules if and only if no directory stands in it, or one without a quote
and without a backslash. -/
theorem read_buildMacosPolicy_iff (workingDir : Option String) (mode : SandboxMode)
    (networkAccess : SandboxNetworkAccess) :
    SExpr.read (buildMacosPolicy workingDir mode networkAccess).toList =
        some (seatbeltRules workingDir mode networkAccess) ↔
      mode ≠ .workspaceWrite ∨ Plain (workingDir.getD ".").toList := by
  constructor
  · intro h
    by_cases hmode : mode = .workspaceWrite
    · subst hmode
      have hcost := cost_le_of_read h
      rw [cost_seatbeltRules, count_buildMacosPolicy, cost] at hcost
      right
      rw [← cost_eq_zero_iff, cost]
      omega
    · exact .inl hmode
  · intro h
    rw [buildMacosPolicy_eq]
    apply read_printLines
    intro rule hrule
    rcases List.mem_append.mp hrule with hrule | hrule
    · rcases List.mem_append.mp hrule with hrule | hrule
      · exact printable_fixedRules rule hrule
      · by_cases hmode : mode = .workspaceWrite
        · rw [if_pos hmode, List.mem_singleton] at hrule
          rw [hrule]
          exact printable_writeRule (h.resolve_left fun hne => hne hmode)
        · rw [if_neg hmode] at hrule
          cases hrule
    · exact printable_networkRules networkAccess rule hrule

/-- A directory that closes the string and the rule, and opens another one. -/
def quotingDirectory : String := "w\") (subpath \"/"

/-- Writing is allowed everywhere. -/
theorem everything_writable :
    SExpr.read (buildMacosPolicy (some quotingDirectory) .workspaceWrite .disabled).toList =
        some (fixedRules ++ [.list [word "allow", word "file-write*",
          .list [word "subpath", quoted "w"], .list [word "subpath", quoted "/"]]]) ∧
      ¬ ∀ (workingDir : Option String) (mode : SandboxMode) (networkAccess : SandboxNetworkAccess),
        SExpr.read (buildMacosPolicy workingDir mode networkAccess).toList =
          some (seatbeltRules workingDir mode networkAccess) := by
  have htext : (buildMacosPolicy (some quotingDirectory) .workspaceWrite .disabled).toList =
      printLines (fixedRules ++ [.list [word "allow", word "file-write*",
        .list [word "subpath", quoted "w"], .list [word "subpath", quoted "/"]]]) := by
    decide +kernel
  refine ⟨by rw [htext]; exact read_printLines (List.all_eq_true.mp (by decide)), fun h => ?_⟩
  have hread := h (some quotingDirectory) .workspaceWrite .disabled
  have hcost := cost_le_of_read hread
  rw [cost_seatbeltRules, count_buildMacosPolicy] at hcost
  exact absurd hcost (by decide)

end Liz
