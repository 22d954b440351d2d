/-
How far apart the messages of a throttled key are.

`should_process` keeps, for every key with a limit, the wall-clock time of the
last call it let through, and lets the next one through when the clock shows at
least the limit more.  The clock is `SystemTime`, which can be set back: then the
stored time is ahead of it, and the key is quiet until the clock has caught up,
however far apart its messages are.

* `stored_ask` — what a call does to the stored times;
* `stored_run` — what calls on other keys leave alone;
* `throttle_spacing` — messages are spaced, and the next one passes exactly when
  the one before it did not read a time behind the stored one;
* `clock_set_back` — a clock that is set back silences a stream.
-/
import UnitreeWebrtc.Throttle

namespace Unitree

namespace Service

/-- Times as exact numbers. -/
def exactly (limit last now : ℚ) : Bool := limit ≤ now - last

/-- One call of `should_process`: the key, and what the clock shows. -/
def ask (s : Service) (call : String × ℚ) : Service := (s.shouldProcess exactly call.2 call.1).2

def admitted (s : Service) (call : String × ℚ) : Bool := (s.shouldProcess exactly call.2 call.1).1

/-- The service after these calls. -/
def asked (s : Service) (calls : List (String × ℚ)) : Service := Runs.run ask s calls

/-- The stored time of a key, `0` before its first call. -/
def stored (s : Service) (key : String) : ℚ := (s.lastProcessTime.lookup key).getD 0

variable {s : Service} {key : String} {limit now : ℚ}

@[simp] theorem exactly_iff {last : ℚ} : exactly limit last now = true ↔ limit ≤ now - last :=
  decide_eq_true_iff

theorem limit_pos {key : String} {limit : ℚ} (h : throttleLimit key = some limit) : 0 < limit := by
  rw [throttleLimit] at h
  split at h
  · rw [← Option.some_inj.mp h]
    norm_num
  · exact absurd h (by simp)

theorem admitted_iff (hlimit : throttleLimit key = some limit) :
    s.admitted (key, now) = true ↔ s.stored key + limit ≤ now := by
  rw [admitted, shouldProcess_admits, Admits]
  constructor
  · intro h
    have hle := exactly_iff.mp (h limit hlimit)
    rw [stored]
    linarith only [hle]
  · intro h limit' hlimit'
    rw [hlimit, Option.some_inj] at hlimit'
    rw [stored] at h
    rw [← hlimit', exactly_iff]
    linarith only [h]

/-- A call stores its reading under its own key, if it is let through. -/
theorem stored_ask (hlimit : throttleLimit key = some limit) (call : String × ℚ) :
    (s.ask call).stored key =
      if call.1 = key ∧ s.admitted call = true then call.2 else s.stored key := by
  obtain ⟨k, r⟩ := call
  rw [ask, admitted, shouldProcess]
  by_cases hk : k = key
  · subst hk
    rw [hlimit]
    dsimp only
    split
    next h => simp [stored]
    next h => simp
  · rw [if_neg fun h => hk h.1]
    split
    · rfl
    · dsimp only
      split
      · simp [stored, Ne.symm hk]
      · rfl

/-- Calls that are on other keys, or not let through, leave the stored time alone. -/
theorem stored_run (hlimit : throttleLimit key = some limit) (mid : List (String × ℚ)) :
    ∀ s : Service, (∀ q c, q ++ [c] <+: mid → c.1 = key → (Runs.run ask s q).admitted c = false) →
      (Runs.run ask s mid).stored key = s.stored key := by
  induction mid with
  | nil => intro s _; rfl
  | cons c rest ih =>
    intro s h
    rw [Runs.run_cons, ih (s.ask c) fun q c' hq => ?_, stored_ask hlimit, if_neg]
    · rintro ⟨hkey, hadmitted⟩
      have hfirst := h [] c (List.prefix_append [c] rest) hkey
      rw [Runs.run_nil, hadmitted] at hfirst
      exact absurd hfirst (by simp)
    · exact h (c :: q) c' (List.cons_prefix_cons.mpr ⟨rfl, hq⟩)

/-- Throttling spaces the messages of a key.  A call without a limit is let through
and changes nothing; two calls of one key that are let through one after the other
read times at least the limit apart.  After a call that read `r`, every later
reading from `r` plus the limit on is let through exactly when the stored time was
not ahead of `r`; so it is in every run in which no call reads a time behind the
stored one. -/
theorem throttle_spacing (s : Service) :
    (∀ calls key now, throttleLimit key = none →
      (s.asked calls).shouldProcess exactly now key = (true, s.asked calls)) ∧
    (∀ pre key r mid now limit, throttleLimit key = some limit →
      (s.asked pre).admitted (key, r) = true →
      (∀ q c, q ++ [c] <+: mid → c.1 = key →
        (s.asked (pre ++ (key, r) :: q)).admitted c = false) →
      (s.asked (pre ++ (key, r) :: mid)).admitted (key, now) = true → r + limit ≤ now) ∧
    (∀ pre key r mid limit, throttleLimit key = some limit → (∀ c ∈ mid, c.1 ≠ key) →
      ((∀ now, r + limit ≤ now →
        (s.asked (pre ++ (key, r) :: mid)).admitted (key, now) = true) ↔
          (s.asked pre).stored key ≤ r)) ∧
    ∀ calls, (∀ pre key r limit, pre ++ [(key, r)] <+: calls → throttleLimit key = some limit →
        (s.asked pre).stored key ≤ r) →
      ∀ pre key r mid now limit, pre ++ (key, r) :: (mid ++ [(key, now)]) <+: calls →
        throttleLimit key = some limit → (∀ c ∈ mid, c.1 ≠ key) → r + limit ≤ now →
        (s.asked (pre ++ (key, r) :: mid)).admitted (key, now) = true := by
  have hiff : ∀ pre key r mid limit, throttleLimit key = some limit → (∀ c ∈ mid, c.1 ≠ key) →
      ((∀ now, r + limit ≤ now →
        (s.asked (pre ++ (key, r) :: mid)).admitted (key, now) = true) ↔
          (s.asked pre).stored key ≤ r) := by
    intro pre key r mid limit hlimit hmid
    have hpos := limit_pos hlimit
    have hstored : (s.asked (pre ++ (key, r) :: mid)).stored key =
        if (s.asked pre).admitted (key, r) = true then r else (s.asked pre).stored key := by
      show (Runs.run ask _ (pre ++ (key, r) :: mid)).stored key = _
      rw [Runs.run_append, Runs.run_cons, stored_run hlimit, stored_ask hlimit]
      · simp only [true_and]
        rfl
      · intro q c hq hkey
        exact absurd hkey (hmid c (hq.subset (by simp)))
    have hadmitted : (s.asked pre).admitted (key, r) = true ↔
        (s.asked pre).stored key + limit ≤ r :=
      admitted_iff hlimit
    constructor
    · intro hall
      by_contra hahead
      -- a clock behind the stored time is not let through
      have hrefused : ¬ (s.asked pre).admitted (key, r) = true := by
        rw [hadmitted]
        linarith
      have hnext := (admitted_iff hlimit).mp (hall (r + limit) le_rfl)
      rw [hstored, if_neg hrefused] at hnext
      linarith
    · intro hbehind now hnow
      rw [admitted_iff hlimit, hstored]
      split
      · exact hnow
      · linarith
  refine ⟨fun calls key now hfree => shouldProcess_unlimited hfree, ?_, hiff, ?_⟩
  · intro pre key r mid now limit hlimit hfirst hmid hsecond
    have hstored : (s.asked (pre ++ (key, r) :: mid)).stored key = r := by
      show (Runs.run ask _ (pre ++ (key, r) :: mid)).stored key = _
      rw [Runs.run_append, Runs.run_cons, stored_run hlimit, stored_ask hlimit,
        if_pos ⟨rfl, hfirst⟩]
      intro q c hq hkey
      have hrefused := hmid q c hq hkey
      rwa [show s.asked (pre ++ (key, r) :: q) = _ from Runs.run_append _ _ _, Runs.run_cons]
        at hrefused
    have hle := (admitted_iff hlimit).mp hsecond
    rwa [hstored] at hle
  · intro calls hclock pre key r mid now limit hprefix hlimit hmid hnow
    refine (hiff pre key r mid limit hlimit hmid).mpr (hclock pre key r limit ?_ hlimit) now hnow
    exact List.IsPrefix.trans ⟨mid ++ [(key, now)], by simp⟩ hprefix

/-- The clock is set back from 1000 s to 500 s between two video messages: the next
one, a second later, is dropped, and so are all until the clock is past 1000 s. -/
theorem clock_set_back : ¬ ∀ (pre : List (String × ℚ)) (key : String) (r : ℚ)
    (mid : List (String × ℚ)) (now limit : ℚ), throttleLimit key = some limit →
      (∀ c ∈ mid, c.1 ≠ key) → r + limit ≤ now →
      (Runs.run ask (Service.new 0 0) (pre ++ (key, r) :: mid)).admitted (key, now) = true := by
  intro h
  have hlimit : throttleLimit DcType.vid = some (1 / 15) := if_pos (Or.inr rfl)
  have hadmitted := h [(DcType.vid, 1000)] DcType.vid 500 [] 501 (1 / 15) hlimit (by simp)
    (by norm_num)
  have hfirst : (Service.new 0 0).admitted (DcType.vid, 1000) = true := by
    rw [admitted_iff hlimit]
    show (0 : ℚ) + 1 / 15 ≤ 1000
    norm_num
  have hstored : ((Service.new 0 0).ask (DcType.vid, 1000)).stored DcType.vid = 1000 := by
    rw [stored_ask hlimit, if_pos ⟨rfl, hfirst⟩]
  have hsecond :
    ¬ ((Service.new 0 0).ask (DcType.vid, 1000)).admitted (DcType.vid, 500) = true := by
    rw [admitted_iff hlimit, hstored]
    norm_num
  rw [admitted_iff hlimit] at hadmitted
  have hkept : (Runs.run ask (Service.new 0 0) ([(DcType.vid, 1000)] ++ [(DcType.vid, 500)])).stored
      DcType.vid = 1000 := by
    show ((((Service.new 0 0).ask (DcType.vid, 1000))).ask (DcType.vid, 500)).stored DcType.vid =
      1000
    rw [stored_ask hlimit, if_neg fun hand => hsecond hand.2, hstored]
  rw [hkept] at hadmitted
  norm_num at hadmitted

end Service

end Unitree
