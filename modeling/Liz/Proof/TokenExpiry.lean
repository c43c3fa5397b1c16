import Liz.Model.Credentials

/-!
# When a token expires

Three token endpoints say how long a token lives, and the client adds that to its clock. Numbers have
64 bits here; what does not fit stops a build that checks for overflow and wraps around in one that
does not. MiniMax may also send an instant, in seconds or in milliseconds, and how large the number is
decides what it is taken for.
-/

/-! ### Machine numbers -/

/-- How a program is built: with checks for overflow, or without. -/
inductive Build
  | checked | wrapping
  deriving DecidableEq, Repr

namespace Build

variable {build : Build} {a b t : UInt64} {value : Nat}

/-- A number that has been computed. There is none when the program stops. -/
def u64 (build : Build) (value : Nat) : Option UInt64 :=
  match build with
  | .checked => if value < UInt64.size then some (UInt64.ofNat value) else none
  | .wrapping => some (UInt64.ofNat value)

def add (build : Build) (a b : UInt64) : Option UInt64 := build.u64 (a.toNat + b.toNat)

def mul (build : Build) (a b : UInt64) : Option UInt64 := build.u64 (a.toNat * b.toNat)

theorem toNat_ofNat_of_fits (h : value < UInt64.size) : (UInt64.ofNat value).toNat = value := by
  rw [UInt64.toNat_ofNat']
  exact Nat.mod_eq_of_lt h

theorem u64_of_fits (build : Build) (h : value < UInt64.size) :
    build.u64 value = some (UInt64.ofNat value) := by
  cases build with
  | checked => exact if_pos h
  | wrapping => rfl

theorem fits_of_checked (h : checked.u64 value = some t) : value < UInt64.size ∧ t.toNat = value := by
  unfold u64 at h
  dsimp only at h
  split at h
  next hfits =>
    obtain rfl := Option.some.inj h
    exact ⟨hfits, toNat_ofNat_of_fits hfits⟩
  next => cases h

/-- So many seconds behind an instant, in milliseconds. -/
def secondsBehind (build : Build) (now seconds : UInt64) : Option UInt64 := do
  build.add now (← build.mul seconds 1000)

theorem secondsBehind_of_fits (build : Build) {now seconds : UInt64}
    (h : now.toNat + seconds.toNat * 1000 < UInt64.size) :
    build.secondsBehind now seconds = some (UInt64.ofNat (now.toNat + seconds.toNat * 1000)) := by
  have hfactor : (1000 : UInt64).toNat = 1000 := rfl
  have hmul : seconds.toNat * 1000 < UInt64.size := by omega
  rw [secondsBehind, mul, hfactor, u64_of_fits build hmul, Option.bind_eq_bind, Option.bind_some, add,
    toNat_ofNat_of_fits hmul, u64_of_fits build h]

theorem fits_of_secondsBehind {now seconds : UInt64}
    (h : checked.secondsBehind now seconds = some t) :
    now.toNat + seconds.toNat * 1000 < UInt64.size := by
  obtain ⟨product, hproduct, hsum⟩ := Option.bind_eq_some_iff.mp h
  obtain ⟨-, hvalue⟩ := fits_of_checked hproduct
  have hfits := (fits_of_checked hsum).1
  rw [hvalue] at hfits
  exact hfits

/-- Every build computes the number, or the largest one if it is out of range. -/
def Returns (outcome : Build → Option UInt64) (value : Nat) : Prop :=
  ∀ build, ∃ t, outcome build = some t ∧ t.toNat = min value (UInt64.size - 1)

/-- Seconds are counted behind an instant exactly if the result is in range. -/
theorem returns_secondsBehind_iff (now seconds : UInt64) :
    Returns (fun build => build.secondsBehind now seconds) (now.toNat + seconds.toNat * 1000) ↔
      now.toNat + seconds.toNat * 1000 < UInt64.size := by
  constructor
  · intro h
    obtain ⟨t, hchecked, -⟩ := h .checked
    exact fits_of_secondsBehind hchecked
  · intro hfits build
    refine ⟨_, secondsBehind_of_fits build hfits, ?_⟩
    rw [toNat_ofNat_of_fits hfits, Nat.min_eq_left (by omega)]

end Build

namespace Liz

/-! ### The three paths -/

def gitlabExpiresAtMs (build : Build) (now : UInt64) (expiresIn : Option UInt64) :
    Option (Option UInt64) :=
  match expiresIn with
  | none => some none
  | some expiresIn => (build.secondsBehind now expiresIn).map some

def openaiCodexExpiresAtMs (build : Build) (now : UInt64) (expiresIn : Option UInt64) :
    Option UInt64 :=
  build.secondsBehind now (expiresIn.getD 3600)

/-- The timestamp of a MiniMax response, in milliseconds. -/
def minimaxTimestamp (build : Build) (now raw : UInt64) : Option UInt64 :=
  if raw > 1000000000000 then some raw
  else if raw > 10000000000 then build.mul raw 1000
  else build.secondsBehind now raw

variable {now raw : UInt64}

/-- In range the machine computes what the client's functions say. -/
theorem gitlabExpiresAtMs_of_fits (build : Build) {response : TokenResponse}
    {expiresIn : Option UInt64} (hfield : response.expiresIn = expiresIn.map UInt64.toNat)
    (h : ∀ seconds ∈ expiresIn, now.toNat + seconds.toNat * 1000 < UInt64.size) :
    gitlabExpiresAtMs build now expiresIn =
      some ((materializeGitlabOauthRuntimeAuth (some now.toNat) response).expiresAtMs.map
        UInt64.ofNat) := by
  rw [materializeGitlabOauthRuntimeAuth, hfield]
  cases expiresIn with
  | none => rfl
  | some seconds =>
      rw [gitlabExpiresAtMs, Build.secondsBehind_of_fits build (h seconds rfl)]
      rfl

theorem openaiCodexExpiresAtMs_of_fits [JwtClaims] (build : Build) {response : TokenResponse}
    {expiresIn : Option UInt64} (hfield : response.expiresIn = expiresIn.map UInt64.toNat)
    (h : now.toNat + (expiresIn.getD 3600).toNat * 1000 < UInt64.size) :
    openaiCodexExpiresAtMs build now expiresIn =
      some (UInt64.ofNat
        (materializeOpenaiCodexRuntimeAuth (some now.toNat) response).expiresAtMs) := by
  have hlifetime : response.expiresIn.getD 3600 = (expiresIn.getD 3600).toNat := by
    rw [hfield]
    cases expiresIn <;> rfl
  rw [openaiCodexExpiresAtMs, Build.secondsBehind_of_fits build h,
    materializeOpenaiCodexRuntimeAuth, hlifetime]
  rfl

theorem minimaxTimestamp_of_fits (build : Build)
    (h : 10000000000 < raw.toNat ∨ now.toNat + raw.toNat * 1000 < UInt64.size) :
    minimaxTimestamp build now raw =
      some (UInt64.ofNat (normalizeMinimaxTimestamp (some now.toNat) raw.toNat)) := by
  have hlarge : raw > 1000000000000 ↔ raw.toNat > 1000000000000 := UInt64.lt_iff_toNat_lt
  have hmiddle : raw > 10000000000 ↔ raw.toNat > 10000000000 := UInt64.lt_iff_toNat_lt
  have hfactor : (1000 : UInt64).toNat = 1000 := rfl
  unfold minimaxTimestamp normalizeMinimaxTimestamp
  simp only [hlarge, hmiddle]
  split
  · rw [UInt64.ofNat_toNat]
  · split
    · have hsize : UInt64.size = 18446744073709551616 := rfl
      rw [Build.mul, hfactor]
      exact Build.u64_of_fits build (by omega)
    · exact Build.secondsBehind_of_fits build (by omega)

theorem normalizeMinimaxTimestamp_fits
    (h : 10000000000 < raw.toNat ∨ now.toNat + raw.toNat * 1000 < UInt64.size) :
    normalizeMinimaxTimestamp (some now.toNat) raw.toNat < UInt64.size := by
  have hsize : UInt64.size = 18446744073709551616 := rfl
  have hnow : currentUnixTimeMs (some now.toNat) = now.toNat := rfl
  have hraw := raw.toNat_lt_size
  unfold normalizeMinimaxTimestamp
  rw [hnow]
  split_ifs <;> omega

/-- A build that checks stops when the clock and the seconds do not fit together. -/
theorem fits_of_minimaxTimestamp {t : UInt64} (h : minimaxTimestamp .checked now raw = some t) :
    10000000000 < raw.toNat ∨ now.toNat + raw.toNat * 1000 < UInt64.size := by
  have hmiddle : raw > 10000000000 ↔ raw.toNat > 10000000000 := UInt64.lt_iff_toNat_lt
  by_cases hlarge : 10000000000 < raw.toNat
  · exact .inl hlarge
  · have hsmall : ¬ raw > 1000000000000 := by
      rw [gt_iff_lt, UInt64.lt_iff_toNat_lt]
      exact fun hhuge => hlarge (lt_trans (by decide) hhuge)
    rw [minimaxTimestamp, if_neg hsmall, if_neg (mt hmiddle.mp hlarge)] at h
    exact .inr (Build.fits_of_secondsBehind h)

/-- The field means the same in seconds as in milliseconds only between the two bounds, unless the
clock is at its start. -/
theorem normalizeMinimaxTimestamp_eq_iff {now seconds : Nat} (hahead : now < seconds * 1000) :
    normalizeMinimaxTimestamp (some now) seconds =
        normalizeMinimaxTimestamp (some now) (seconds * 1000) ↔
      (10000000000 < seconds ∧ seconds ≤ 1000000000000) ∨
        (now = 0 ∧ 1000000000 < seconds ∧ seconds ≤ 10000000000) := by
  have hnow : currentUnixTimeMs (some now) = now := rfl
  unfold normalizeMinimaxTimestamp
  rw [hnow]
  split_ifs <;> omega

/-- What a token endpoint answers of the expiry. -/
inductive ExpiryField
  | gitlab (expiresIn : Option UInt64)
  | openaiCodex (expiresIn : Option UInt64)
  | minimax (expiredIn : UInt64)

namespace ExpiryField

/-- The expiry is computed without overflow and denotes the instant it is meant for: so many seconds
from now, and with MiniMax an instant to come that means the same in seconds as in milliseconds. -/
def Exact (now : UInt64) : ExpiryField → Prop
  | gitlab none => ∀ build, gitlabExpiresAtMs build now none = some none
  | gitlab (some seconds) =>
      Build.Returns (fun build => (gitlabExpiresAtMs build now (some seconds)).join)
        (now.toNat + seconds.toNat * 1000)
  | openaiCodex seconds =>
      Build.Returns (fun build => openaiCodexExpiresAtMs build now seconds)
        (now.toNat + (seconds.getD 3600).toNat * 1000)
  | minimax raw =>
      Build.Returns (fun build => minimaxTimestamp build now raw)
        (normalizeMinimaxTimestamp (some now.toNat) raw.toNat) ∧
      ∀ milliseconds : UInt64, milliseconds.toNat = raw.toNat * 1000 →
        now.toNat < milliseconds.toNat →
          ∀ build, minimaxTimestamp build now raw = minimaxTimestamp build now milliseconds

/-- The lifetime leads to an instant in range, and what MiniMax sends cannot be a number of seconds
since 1970 that lies ahead, unless it is between the two bounds or the clock is at its start. -/
def InRange (now : UInt64) : ExpiryField → Prop
  | gitlab none => True
  | gitlab (some seconds) => now.toNat + seconds.toNat * 1000 < UInt64.size
  | openaiCodex seconds => now.toNat + (seconds.getD 3600).toNat * 1000 < UInt64.size
  | minimax raw =>
      (10000000000 < raw.toNat ∨ now.toNat + raw.toNat * 1000 < UInt64.size) ∧
        (now.toNat < raw.toNat * 1000 → raw.toNat * 1000 < UInt64.size →
          (10000000000 < raw.toNat ∧ raw.toNat ≤ 1000000000000) ∨
            (now.toNat = 0 ∧ 1000000000 < raw.toNat ∧ raw.toNat ≤ 10000000000))

theorem minimax_exact_iff (now raw : UInt64) : (minimax raw).Exact now ↔ (minimax raw).InRange now := by
  have hsize : UInt64.size = 18446744073709551616 := rfl
  have hreturns : Build.Returns (fun build => minimaxTimestamp build now raw)
      (normalizeMinimaxTimestamp (some now.toNat) raw.toNat) ↔
      10000000000 < raw.toNat ∨ now.toNat + raw.toNat * 1000 < UInt64.size := by
    constructor
    · intro h
      obtain ⟨t, hchecked, -⟩ := h .checked
      exact fits_of_minimaxTimestamp hchecked
    · intro hfits build
      refine ⟨_, minimaxTimestamp_of_fits build hfits, ?_⟩
      have hvalue := normalizeMinimaxTimestamp_fits hfits
      rw [Build.toNat_ofNat_of_fits hvalue]
      omega
  rw [Exact, InRange, hreturns]
  refine and_congr_right fun hfits => ?_
  have hsame : ∀ milliseconds : UInt64, milliseconds.toNat = raw.toNat * 1000 →
      now.toNat < raw.toNat * 1000 →
      ((∀ build, minimaxTimestamp build now raw = minimaxTimestamp build now milliseconds) ↔
        (10000000000 < raw.toNat ∧ raw.toNat ≤ 1000000000000) ∨
          (now.toNat = 0 ∧ 1000000000 < raw.toNat ∧ raw.toNat ≤ 10000000000)) := by
    intro milliseconds hvalue hahead
    have hfits' : 10000000000 < milliseconds.toNat ∨
        now.toNat + milliseconds.toNat * 1000 < UInt64.size := by omega
    rw [← normalizeMinimaxTimestamp_eq_iff hahead, ← hvalue]
    constructor
    · intro hequal
      have hchecked := hequal .checked
      rw [minimaxTimestamp_of_fits _ hfits, minimaxTimestamp_of_fits _ hfits'] at hchecked
      have hnumber := congrArg UInt64.toNat (Option.some.inj hchecked)
      rwa [Build.toNat_ofNat_of_fits (normalizeMinimaxTimestamp_fits hfits),
        Build.toNat_ofNat_of_fits (normalizeMinimaxTimestamp_fits hfits')] at hnumber
    · intro hequal build
      rw [minimaxTimestamp_of_fits _ hfits, minimaxTimestamp_of_fits _ hfits', hequal]
  constructor
  · intro h hahead hrange
    have hvalue := Build.toNat_ofNat_of_fits hrange
    exact (hsame _ hvalue hahead).mp (h _ hvalue (by rwa [hvalue]))
  · intro h milliseconds hvalue hahead
    have hrange := milliseconds.toNat_lt_size
    rw [hvalue] at hahead hrange
    exact (hsame milliseconds hvalue hahead).mpr (h hahead hrange)

/-- The expiry of a token is computed exactly if and only if the field is in range. -/
theorem exact_iff (now : UInt64) (field : ExpiryField) : field.Exact now ↔ field.InRange now := by
  cases field with
  | gitlab expiresIn =>
      cases expiresIn with
      | none => exact iff_of_true (fun _ => rfl) trivial
      | some seconds =>
          have hjoin : ∀ build : Build, (gitlabExpiresAtMs build now (some seconds)).join =
              build.secondsBehind now seconds := by
            intro build
            rw [gitlabExpiresAtMs]
            cases build.secondsBehind now seconds <;> rfl
          simp only [Exact, InRange, hjoin]
          exact Build.returns_secondsBehind_iff now seconds
  | openaiCodex expiresIn => exact Build.returns_secondsBehind_iff now (expiresIn.getD 3600)
  | minimax expiredIn => exact minimax_exact_iff now expiredIn

/-- An instant in seconds is taken for a lifetime, and a lifetime may be too long for the machine. -/
theorem inexact_expiries :
    ¬ (minimax 1900000000).Exact 1700000000000 ∧
      ¬ (gitlab (some 18446744073709551615)).Exact 1700000000000 := by
  constructor
  · intro h
    have hsame := h.2 1900000000000 (by decide) (by decide) .checked
    exact absurd hsame (by decide)
  · intro h
    obtain ⟨t, hchecked, -⟩ := h .checked
    have hstops : (gitlabExpiresAtMs .checked 1700000000000
        (some 18446744073709551615)).join = none := by decide
    cases hstops.symm.trans hchecked

end ExpiryField

end Liz
