import LibKprintf.Model.EventThread
import Mathlib.Data.Nat.Find

/-! detect_psplink of event.c, the wait of the event thread for PSPLINK: when it ends, after how
many polls, and for which build settings the counter `t` wraps around.
-/

namespace LibKprintf

variable {cfg : Config} {timeoutMs : U32} {found : Nat → Bool}

/-- detect_psplink from its loop test on, where `polls` polls have been made and poll `k` answers
`found k`: the result, the polls made and the last `t`. It answers nothing if the loop test is not
reached for the last time within the budget.
-/
def detectPsplink (timeoutMs : U32) (found : Nat → Bool)
    : Nat → Nat → U32 → Option (Int × Nat × U32)
  | 0, _, _ => none
  | budget + 1, polls, t =>
      if t < timeoutMs then
        if found polls then
          some (1, polls + 1, t)
        else
          detectPsplink timeoutMs found budget (polls + 1) (t + 1000)
      else
        some (0, polls, t)

/-- The polls that fit below the timeout, `ceil(timeout_ms / 1000)`. -/
def maxPolls (timeoutMs : U32) : Nat := (timeoutMs.toNat + 999) / 1000

/-- How a detection is to end: at the first poll that finds the module, or after all polls. At the
end `t` counts the time of the polls that missed, so it has not wrapped before.
-/
def EndsInTime (timeoutMs : U32) (found : Nat → Bool) (ret : Int) (polls : Nat) (t : U32)
    : Prop :=
  (ret = 1 ∧ ∃ misses < maxPolls timeoutMs, polls = misses + 1 ∧ found misses
      ∧ (∀ k < misses, found k = false) ∧ t.toNat = 1000 * misses)
    ∨ (ret = 0 ∧ polls = maxPolls timeoutMs ∧ (∀ k < polls, found k = false)
      ∧ t.toNat = 1000 * polls)

/-- The detection returns, and as it is to. -/
def DetectionEnds (timeoutMs : U32) (found : Nat → Bool) : Prop :=
  ∃ budget ret polls t, detectPsplink timeoutMs found budget 0 0 = some (ret, polls, t)
    ∧ EndsInTime timeoutMs found ret polls t

/-- The largest timeout that `t` can reach: the last multiple of 1000 in a u32. -/
def lastTimeout : Nat := 4294967000

/-- The event thread goes through detect_psplink step by step, and on to the delay for the USB
connection if the module was found.
-/
theorem detectPsplink_steps (thid : Uid) (sh : Shared cfg) {budget polls n : Nat} {t last : U32}
    {ret : Int}
    (result
      : detectPsplink cfg.kprintfPsplinkDetectTimeout found budget polls t = some (ret, n, last))
    : Relation.ReflTransGen
        (fun before after : EventPc =>
          ∃ choice, eventStep thid sh before choice = .next (sh, after))
        (.detect t) (if ret = 1 then .usbDelay else .loop) := by
  induction budget generalizing polls t with
  | zero => simp [detectPsplink] at result
  | succ budget ih =>
      rw [detectPsplink] at result
      by_cases below : t < cfg.kprintfPsplinkDetectTimeout
      · have less : t.toNat < cfg.kprintfPsplinkDetectTimeout.toNat := below
        rw [if_pos below] at result
        by_cases hit : found polls = true
        · rw [if_pos hit] at result
          cases result
          exact .single ⟨.found true, by simp [eventStep, less]⟩
        · rw [if_neg hit] at result
          have polled
              : eventStep thid sh (.detect t) (.found false) = .next (sh, .detectDelay t) := by
            simp [eventStep, less]
          have waited
              : eventStep thid sh (.detectDelay t) .go = .next (sh, .detect (t + 1000)) := rfl
          exact .head ⟨_, polled⟩ (.head ⟨_, waited⟩ (ih result))
      · have reached : ¬ t.toNat < cfg.kprintfPsplinkDetectTimeout.toNat := below
        rw [if_neg below] at result
        cases result
        exact .single ⟨.go, by simp [eventStep, Choice.onGo, reached]⟩

/-- One poll that misses. -/
theorem detectPsplink_miss {polls : Nat} {t : U32} (below : t < timeoutMs)
    (miss : found polls = false) (budget : Nat)
    : detectPsplink timeoutMs found (budget + 1) polls t
      = detectPsplink timeoutMs found budget (polls + 1) (t + 1000) := by
  rw [detectPsplink, if_pos below, miss, if_neg Bool.false_ne_true]

/-- The value of `t` after `n` polls. -/
theorem toNat_elapsed {n : Nat} (fits : 1000 * n < 2 ^ 32)
    : (BitVec.ofNat 32 (1000 * n)).toNat = 1000 * n :=
  Nat.mod_eq_of_lt fits

/-- Polls that miss are passed one after the other, as long as the time before each of them is below
the timeout.
-/
theorem detectPsplink_misses {n : Nat} (below : ∀ k < n, 1000 * k < timeoutMs.toNat)
    (missed : ∀ k < n, found k = false) (budget : Nat)
    : detectPsplink timeoutMs found (n + budget) 0 0
      = detectPsplink timeoutMs found budget n (BitVec.ofNat 32 (1000 * n)) := by
  induction n generalizing budget with
  | zero => rw [Nat.zero_add]; rfl
  | succ n ih =>
      have last : 1000 * n < timeoutMs.toNat := below n n.lt_succ_self
      have fits : 1000 * n < 2 ^ 32 := last.trans timeoutMs.isLt
      have less : BitVec.ofNat 32 (1000 * n) < timeoutMs := by
        rw [BitVec.lt_def, toNat_elapsed fits]
        exact last
      have next : BitVec.ofNat 32 (1000 * n) + 1000 = BitVec.ofNat 32 (1000 * (n + 1)) := by
        rw [Nat.mul_succ, BitVec.ofNat_add]
        rfl
      calc detectPsplink timeoutMs found (n + 1 + budget) 0 0
          = detectPsplink timeoutMs found (n + (budget + 1)) 0 0 := by
            rw [Nat.add_assoc, Nat.add_comm 1]
        _ = detectPsplink timeoutMs found (budget + 1) n (BitVec.ofNat 32 (1000 * n)) :=
            ih (fun k less => below k (by omega)) (fun k less => missed k (by omega)) (budget + 1)
        _ = detectPsplink timeoutMs found budget (n + 1) (BitVec.ofNat 32 (1000 * (n + 1))) := by
            rw [detectPsplink_miss less (missed n n.lt_succ_self), next]

/-- Exactly the polls before `ceil(timeout_ms / 1000)` come at a time below the timeout. -/
theorem lt_maxPolls {n : Nat} : n < maxPolls timeoutMs ↔ 1000 * n < timeoutMs.toNat := by
  unfold maxPolls
  omega

/-- The polls that fit below the timeout end in a u32 unless the timeout is among the last ones. -/
theorem maxPolls_fits : 1000 * maxPolls timeoutMs < 2 ^ 32 ↔ timeoutMs.toNat ≤ lastTimeout := by
  have range := timeoutMs.isLt
  unfold maxPolls lastTimeout
  omega

/-- The first poll that finds the module ends the detection, if it comes in time. -/
theorem detection_finds {misses : Nat} (early : misses < maxPolls timeoutMs)
    (hit : found misses = true) (missed : ∀ k < misses, found k = false)
    : DetectionEnds timeoutMs found := by
  have below : 1000 * misses < timeoutMs.toNat := lt_maxPolls.mp early
  have value := toNat_elapsed (below.trans timeoutMs.isLt)
  refine ⟨misses + 1, 1, misses + 1, BitVec.ofNat 32 (1000 * misses), ?_,
    Or.inl ⟨rfl, misses, early, rfl, hit, missed, value⟩⟩
  have less : BitVec.ofNat 32 (1000 * misses) < timeoutMs := by
    rw [BitVec.lt_def, value]
    exact below
  rw [detectPsplink_misses (fun k smaller => by omega) missed, detectPsplink, if_pos less,
    if_pos hit]

/-- If no poll finds it, the detection gives up as soon as `t` has reached the timeout. -/
theorem detection_givesUp (fits : timeoutMs.toNat ≤ lastTimeout)
    (missed : ∀ k < maxPolls timeoutMs, found k = false)
    : DetectionEnds timeoutMs found := by
  have value := toNat_elapsed (maxPolls_fits.mpr fits)
  refine ⟨maxPolls timeoutMs + 1, 0, maxPolls timeoutMs,
    BitVec.ofNat 32 (1000 * maxPolls timeoutMs), ?_, Or.inr ⟨rfl, rfl, missed, value⟩⟩
  have reached : ¬ BitVec.ofNat 32 (1000 * maxPolls timeoutMs) < timeoutMs := by
    rw [BitVec.lt_def, value]
    exact fun less => lt_irrefl _ (lt_maxPolls.mpr less)
  rw [detectPsplink_misses (fun k less => lt_maxPolls.mp less) missed, detectPsplink,
    if_neg reached]

/-- Whether there is a poll in time that finds the module, or the first one that does. -/
theorem first_hit (found : Nat → Bool) (n : Nat)
    : (∀ k < n, found k = false)
      ∨ ∃ misses < n, found misses ∧ ∀ k < misses, found k = false := by
  by_cases hit : ∃ k < n, found k = true
  · have least := Nat.find_spec hit
    refine Or.inr ⟨Nat.find hit, least.1, least.2, fun k smaller => ?_⟩
    have none := Nat.find_min hit smaller
    simpa [smaller.trans least.1] using none
  · exact Or.inl (by simpa using hit)

/-- A detection that makes all its polls in vain ends as it is to only if the timeout can be
reached.
-/
theorem detection_exhausted (ends : DetectionEnds timeoutMs found)
    (missed : ∀ k < maxPolls timeoutMs, found k = false)
    : timeoutMs.toNat ≤ lastTimeout := by
  obtain ⟨_, _, _, t, -, hit | miss⟩ := ends
  · obtain ⟨-, misses, early, -, found, -⟩ := hit
    simp [missed misses early] at found
  · obtain ⟨-, rfl, -, time⟩ := miss
    exact maxPolls_fits.mp (time ▸ t.isLt)

/-- When detect_psplink ends as it is to: for every sequence of answers if the timeout is at most
4294967000, the last multiple of 1000 below 2^32, and for no larger timeout unless one of the polls
in time finds the module.
-/
theorem detectPsplink_ends (timeoutMs : U32)
    : (∀ found, DetectionEnds timeoutMs found
        ↔ timeoutMs.toNat ≤ lastTimeout ∨ ∃ k < maxPolls timeoutMs, found k)
      ∧ ((∀ found, DetectionEnds timeoutMs found) ↔ timeoutMs.toNat ≤ lastTimeout) := by
  have precise (found : Nat → Bool)
      : DetectionEnds timeoutMs found
        ↔ timeoutMs.toNat ≤ lastTimeout ∨ ∃ k < maxPolls timeoutMs, found k := by
    rcases first_hit found (maxPolls timeoutMs) with missed | ⟨misses, early, hit, before⟩
    · constructor
      · exact fun ends => Or.inl (detection_exhausted ends missed)
      · rintro (fits | ⟨k, less, hit⟩)
        · exact detection_givesUp fits missed
        · simp [missed k less] at hit
    · exact ⟨fun _ => Or.inr ⟨misses, early, hit⟩, fun _ => detection_finds early hit before⟩
  refine ⟨precise, fun all => ?_, fun fits found => (precise found).mpr (Or.inl fits)⟩
  exact detection_exhausted (all fun _ => false) fun _ _ => rfl

/-- If `t` starts at a multiple of 8 it stays one, so a timeout above the last of them is never
reached.
-/
theorem detectPsplink_endless (beyond : 4294967288 < timeoutMs.toNat) (budget polls : Nat) {t : U32}
    (eighth : t.toNat % 8 = 0)
    : detectPsplink timeoutMs (fun _ => false) budget polls t = none := by
  induction budget generalizing polls t with
  | zero => rfl
  | succ budget ih =>
      have range := t.isLt
      have below : t < timeoutMs := by
        rw [BitVec.lt_def]
        omega
      have later : (t + 1000).toNat % 8 = 0 := by
        have thousand : (1000 : U32).toNat = 1000 := rfl
        rw [BitVec.toNat_add, thousand]
        omega
      rw [detectPsplink_miss below rfl]
      exact ih (polls + 1) later

/-- With the largest timeout, and PSPLINK absent, detect_psplink never returns. -/
theorem detectPsplink_never
    : (∀ budget, detectPsplink 4294967295 (fun _ => false) budget 0 0 = none)
      ∧ ¬ DetectionEnds 4294967295 fun _ => false := by
  have never (budget : Nat) : detectPsplink 4294967295 (fun _ => false) budget 0 0 = none :=
    detectPsplink_endless (by decide) budget 0 rfl
  refine ⟨never, fun ends => ?_⟩
  obtain ⟨budget, _, _, _, result, -⟩ := ends
  exact absurd ((never budget).symm.trans result) nofun

end LibKprintf
