import EnboxDwn.Lib.KeyedMap
import EnboxDwn.Lib.TokenBucket
import Mathlib.Data.Rat.Floor

/-! The token-bucket rate limiter of the server: one bucket a key, created full when the key is
first seen and purged when it has been full and unused for long. Token arithmetic is exact. -/
namespace EnboxDwn

structure RateLimiterConfig where
  refillRate : Rat
  maxTokens : Rat

/-- A bucket, with the clock reading of its last refill in milliseconds. -/
structure Bucket where
  tokens : Rat
  lastRefill : Int

structure RateLimiter where
  config : RateLimiterConfig
  buckets : KeyedMap String Bucket := ∅

namespace RateLimiter
open TokenBucket

inductive Answer where
  | allowed
  | refused (retryAfterMs : Int)
  deriving DecidableEq

def staleThresholdMs : Int := 5 * 60 * 1000

def elapsed (bucket : Bucket) (now : Int) : Rat := ((now - bucket.lastRefill : Int) : Rat) / 1000

def currentTokens (config : RateLimiterConfig) (bucket : Bucket) (now : Int) : Rat :=
  min config.maxTokens (bucket.tokens + elapsed bucket now * config.refillRate)

/-- The bucket of a key; one that is not tracked starts full. -/
def bucketOf (s : RateLimiter) (key : String) (now : Int) : Bucket :=
  (s.buckets.lookup key).getD ⟨s.config.maxTokens, now⟩

def consume (s : RateLimiter) (key : String) (now : Int) : Answer × RateLimiter :=
  let tokens := currentTokens s.config (s.bucketOf key now) now
  if 1 ≤ tokens then
    (.allowed, { s with buckets := s.buckets.insert key ⟨tokens - 1, now⟩ })
  else
    let deficit := 1 - tokens
    (.refused ⌈deficit / s.config.refillRate * 1000⌉,
      { s with buckets := s.buckets.insert key ⟨tokens, now⟩ })

/-- Removes the buckets that are full and have not been used for longer than the threshold. -/
def cleanup (s : RateLimiter) (now : Int) : RateLimiter :=
  let stale := fun bucket : Bucket =>
    s.config.maxTokens ≤ currentTokens s.config bucket now ∧
      staleThresholdMs < now - bucket.lastRefill
  { s with buckets := KeyedMap.filter (fun bucket => !decide (stale bucket)) s.buckets }

inductive Step where
  | consume (key : String) (now : Int)
  | cleanup (now : Int)
  deriving DecidableEq

def Step.now : Step → Int
  | .consume _ now => now
  | .cleanup now => now

def Step.isConsume : Step → Bool
  | .consume _ _ => true
  | .cleanup _ => false

def Step.consumes (key : String) : Step → Bool
  | .consume k _ => k = key
  | .cleanup _ => false

structure Served where
  key : String
  now : Int
  answer : Answer
  deriving DecidableEq

def run : RateLimiter → List Step → RateLimiter
  | s, [] => s
  | s, .consume key now :: steps => run (s.consume key now).2 steps
  | s, .cleanup now :: steps => run (s.cleanup now) steps

def trace : RateLimiter → List Step → List Served
  | _, [] => []
  | s, .consume key now :: steps =>
    ⟨key, now, (s.consume key now).1⟩ :: trace (s.consume key now).2 steps
  | s, .cleanup now :: steps => trace (s.cleanup now) steps

def create (config : RateLimiterConfig) : RateLimiter := { config }

def seconds (ms : Int) : Rat := (ms : Rat) / 1000

/-- How many requests of the key the run allowed between two times, in seconds. -/
def allowedBetween (key : String) (a c : Rat) (served : List Served) : Nat :=
  served.countP fun e => e.key = key ∧ a ≤ seconds e.now ∧ seconds e.now ≤ c ∧ e.answer = .allowed

def Clocked (steps : List Step) : Prop := (steps.map Step.now).Pairwise (· ≤ ·)

def terms (config : RateLimiterConfig) : Terms Rat := ⟨config.maxTokens, config.refillRate⟩

def answerOf (config : RateLimiterConfig) (tokens : Rat) : Answer :=
  if 1 ≤ tokens then .allowed else .refused ⌈(1 - tokens) / config.refillRate * 1000⌉

def found (s : RateLimiter) (key : String) (now : Int) : Rat :=
  currentTokens s.config (s.bucketOf key now) now

/-- The limiter answers like one whose buckets are never purged and all exist from the start. -/
structure Tracks (s : RateLimiter) (levels : String → Level Rat) (now : Int) : Prop where
  found_eq : ∀ key t, now ≤ t →
    s.found key t = available (terms s.config) (levels key) (seconds t)
  filled : ∀ key, Filled (terms s.config) (levels key)
  since_le : ∀ key, (levels key).since ≤ seconds now

theorem seconds_mono {a b : Int} (h : a ≤ b) : seconds a ≤ seconds b := by
  have hcast : (a : Rat) ≤ b := by exact_mod_cast h
  simp only [seconds]
  linarith

theorem currentTokens_eq (config : RateLimiterConfig) (tokens : Rat) (last now : Int) :
    currentTokens config ⟨tokens, last⟩ now =
      available (terms config) ⟨tokens, seconds last⟩ (seconds now) := by
  simp only [currentTokens, elapsed, available, terms, seconds, Int.cast_sub]
  rw [sub_div]

theorem consume_answer (s : RateLimiter) (key : String) (now : Int) :
    (s.consume key now).1 = answerOf s.config (s.found key now) := by
  by_cases hone : 1 ≤ s.found key now
  · rw [answerOf, if_pos hone]
    simp only [found] at hone
    simp only [consume, if_pos hone]
  · rw [answerOf, if_neg hone]
    simp only [found] at hone ⊢
    simp only [consume, if_neg hone]

theorem consume_config (s : RateLimiter) (key : String) (now : Int) :
    (s.consume key now).2.config = s.config := by
  simp only [consume]
  split <;> rfl

theorem consume_lookup (s : RateLimiter) (key k : String) (now : Int) :
    (s.consume key now).2.buckets.lookup k =
      if k = key then
        some ⟨if 1 ≤ s.found key now then s.found key now - 1 else s.found key now, now⟩
      else s.buckets.lookup k := by
  by_cases hone : 1 ≤ s.found key now
  · simp only [if_pos hone]
    simp only [found] at hone ⊢
    simp only [consume, if_pos hone, KeyedMap.lookup_insert_eq]
  · simp only [if_neg hone]
    simp only [found] at hone ⊢
    simp only [consume, if_neg hone, KeyedMap.lookup_insert_eq]

theorem found_untracked {s : RateLimiter} {key : String} {now : Int}
    (h : s.buckets.lookup key = none) : s.found key now = s.config.maxTokens := by
  simp [found, bucketOf, h, currentTokens, elapsed]

theorem found_tracked {s : RateLimiter} {key : String} {now : Int} {bucket : Bucket}
    (h : s.buckets.lookup key = some bucket) :
    s.found key now = currentTokens s.config bucket now := by
  simp [found, bucketOf, h]

theorem found_congr {s s' : RateLimiter} {key : String} {now : Int} (hconfig : s'.config = s.config)
    (h : s'.buckets.lookup key = s.buckets.lookup key) : s'.found key now = s.found key now := by
  simp only [found, bucketOf, h, hconfig]

theorem Tracks.start {config : RateLimiterConfig} (hmax : 1 ≤ config.maxTokens)
    (hrate : 0 < config.refillRate) (now : Int) :
    Tracks (create config) (fun _ => ⟨config.maxTokens, seconds now⟩) now where
  found_eq := by
    intro key t ht
    have hfull := available_full (p := terms config) (b := ⟨config.maxTokens, seconds now⟩)
      (le_of_lt hrate) rfl (seconds_mono ht)
    have hnew : (create config).buckets.lookup key = none := rfl
    rw [found_untracked hnew]
    exact hfull.symm
  filled := fun key => ⟨by simp only; linarith, le_refl _⟩
  since_le := fun key => le_refl _

variable {s : RateLimiter} {levels : String → Level Rat} {now : Int}

theorem Tracks.consume (h : Tracks s levels now) (hrate : 0 < s.config.refillRate) {t : Int}
    (ht : now ≤ t) (key : String) :
    Tracks (s.consume key t).2
      (Function.update levels key (take (terms s.config) (levels key) (seconds t))) t where
  found_eq := by
    intro k u hu
    have hconfig := consume_config s key t
    have hlookup := consume_lookup s key k t
    by_cases hk : k = key
    · subst hk
      rw [if_pos rfl] at hlookup
      rw [found_tracked hlookup, hconfig, currentTokens_eq, Function.update_self,
        h.found_eq k t ht]
      rfl
    · rw [if_neg hk] at hlookup
      rw [found_congr hconfig hlookup, hconfig, Function.update_of_ne hk]
      exact h.found_eq k u (by omega)
  filled := by
    intro k
    rw [consume_config]
    by_cases hk : k = key
    · subst hk
      rw [Function.update_self]
      have hsince := le_trans (h.since_le k) (seconds_mono ht)
      exact (h.filled k).take (le_of_lt hrate) hsince
    · rw [Function.update_of_ne hk]
      exact h.filled k
  since_le := by
    intro k
    by_cases hk : k = key
    · subst hk
      rw [Function.update_self]
      exact le_refl _
    · rw [Function.update_of_ne hk]
      exact le_trans (h.since_le k) (seconds_mono ht)

/-- Only buckets are purged that a new one, which starts full, replaces without a difference. -/
theorem Tracks.cleanup (h : Tracks s levels now) (hrate : 0 < s.config.refillRate) {t : Int}
    (ht : now ≤ t) : Tracks (s.cleanup t) levels t where
  found_eq := by
    intro key u hu
    have hthen := h.found_eq key u (by omega)
    have hlookup : (s.cleanup t).buckets.lookup key = (s.buckets.lookup key).filter _ :=
      KeyedMap.lookup_filter _ s.buckets key
    have hconfig : (s.cleanup t).config = s.config := rfl
    cases hbucket : s.buckets.lookup key with
    | none =>
      rw [hbucket, Option.filter_none] at hlookup
      rw [found_congr hconfig (hlookup.trans hbucket.symm), hthen, hconfig]
    | some bucket =>
      rw [hbucket, Option.filter_some] at hlookup
      split at hlookup
      · rw [found_congr hconfig (hlookup.trans hbucket.symm), hthen, hconfig]
      · -- The bucket was full at the cleanup, so it would be full at any later time.
        rename_i hstale
        have hfull : s.config.maxTokens ≤ s.found key t := by
          rw [found_tracked hbucket]
          simp only [Bool.not_eq_true', Bool.not_eq_false, decide_eq_true_eq] at hstale
          exact hstale.1
        rw [h.found_eq key t ht] at hfull
        have hsize := available_le_size (terms s.config) (levels key) (seconds t)
        have heq : available (terms s.config) (levels key) (seconds t) = (terms s.config).size :=
          le_antisymm hsize hfull
        have hlater := available_available (p := terms s.config) (b := levels key)
          (le_of_lt hrate) (seconds_mono hu)
        have hstays := available_full (p := terms s.config)
          (b := ⟨available (terms s.config) (levels key) (seconds t), seconds t⟩)
          (le_of_lt hrate) heq (seconds_mono hu)
        rw [found_untracked hlookup, hconfig, ← hlater, hstays]
        rfl
  filled := h.filled
  since_le := fun key => le_trans (h.since_le key) (seconds_mono ht)

def times (key : String) : List Step → List Rat
  | [] => []
  | .consume k now :: steps => if k = key then seconds now :: times key steps else times key steps
  | .cleanup _ :: steps => times key steps

theorem times_sublist (key : String) (steps : List Step) :
    (times key steps).Sublist (steps.map fun e => seconds e.now) := by
  induction steps with
  | nil => exact List.Sublist.refl _
  | cons e steps ih =>
    cases e with
    | consume k now =>
      by_cases hk : k = key
      · simpa [times, hk, Step.now] using ih
      · simpa [times, hk, Step.now] using ih.cons _
    | cleanup now => simpa [times, Step.now] using ih.cons _

theorem sorted_seconds {steps : List Step}
    (h : (now :: steps.map Step.now).Pairwise (· ≤ ·)) :
    (seconds now :: steps.map fun e => seconds e.now).Pairwise (· ≤ ·) := by
  have hmap := h.map seconds fun a b hab => seconds_mono hab
  simpa [Function.comp_def] using hmap

theorem clock_cons {e : Step} {steps : List Step}
    (h : (now :: (e :: steps).map Step.now).Pairwise (· ≤ ·)) :
    now ≤ e.now ∧ (e.now :: steps.map Step.now).Pairwise (· ≤ ·) :=
  ⟨List.rel_of_pairwise_cons h (by simp), h.of_cons⟩

/-- The answers to one key are those of its own bucket, whatever else goes on. -/
theorem Tracks.trace_key (h : Tracks s levels now) (hrate : 0 < s.config.refillRate)
    (key : String) {steps : List Step} (hclock : (now :: steps.map Step.now).Pairwise (· ≤ ·)) :
    ((trace s steps).filter fun e => e.key = key).map (fun e => (seconds e.now, e.answer)) =
      (offers (terms s.config) (levels key) (times key steps)).map
        fun r => (r.1, answerOf s.config r.2) := by
  induction steps generalizing s levels now with
  | nil => rfl
  | cons e steps ih =>
    obtain ⟨hle, htail⟩ := clock_cons hclock
    cases e with
    | consume k t =>
      simp only [Step.now] at hle htail
      have hnext := h.consume hrate hle k
      have hih := ih hnext (by rw [consume_config]; exact hrate) htail
      rw [consume_config] at hih
      by_cases hk : k = key
      · subst hk
        rw [Function.update_self] at hih
        simp only [trace, times, decide_true, List.filter_cons_of_pos, List.map_cons, if_pos,
          offers, hih]
        rw [consume_answer, h.found_eq k t hle]
      · rw [Function.update_of_ne (Ne.symm hk)] at hih
        simpa [trace, times, hk] using hih
    | cleanup t => exact ih (h.cleanup hrate hle) hrate htail

theorem answerOf_eq_allowed (config : RateLimiterConfig) (tokens : Rat) :
    answerOf config tokens = .allowed ↔ 1 ≤ tokens := by
  by_cases hone : 1 ≤ tokens
  · simp [answerOf, hone]
  · simp [answerOf, hone]

theorem Tracks.allowedBetween_eq (h : Tracks s levels now) (hrate : 0 < s.config.refillRate)
    (key : String) {steps : List Step} (hclock : (now :: steps.map Step.now).Pairwise (· ≤ ·))
    (a c : Rat) :
    allowedBetween key a c (trace s steps) =
      granted a c (offers (terms s.config) (levels key) (times key steps)) := by
  have hkey := h.trace_key hrate key hclock
  have hcount := congrArg
    (List.countP fun r : Rat × Answer => decide (a ≤ r.1 ∧ r.1 ≤ c ∧ r.2 = .allowed)) hkey
  rw [List.countP_map, List.countP_map, List.countP_filter] at hcount
  simp only [allowedBetween, granted]
  calc _ = _ := List.countP_congr fun e _ => by simp; tauto
    _ = _ := hcount
    _ = _ := List.countP_congr fun r _ => by simp [answerOf_eq_allowed]

/-- No cleanup is visible in the answers. -/
theorem Tracks.trace_consumes (h : Tracks s levels now) {s' : RateLimiter}
    (h' : Tracks s' levels now) (hconfig : s'.config = s.config) (hrate : 0 < s.config.refillRate)
    {steps : List Step} (hclock : (now :: steps.map Step.now).Pairwise (· ≤ ·)) :
    trace s' (steps.filter Step.isConsume) = trace s steps := by
  induction steps generalizing s s' levels now with
  | nil => rfl
  | cons e steps ih =>
    obtain ⟨hle, htail⟩ := clock_cons hclock
    cases e with
    | consume k t =>
      simp only [Step.now] at hle htail
      have hrate' : 0 < s'.config.refillRate := by rw [hconfig]; exact hrate
      have hnext := h.consume hrate hle k
      have hnext' := h'.consume hrate' hle k
      rw [hconfig] at hnext'
      have hsame : (s'.consume k t).2.config = (s.consume k t).2.config := by
        rw [consume_config, consume_config, hconfig]
      have hih := ih hnext hnext' hsame (by rw [consume_config]; exact hrate) htail
      have hanswer : (s'.consume k t).1 = (s.consume k t).1 := by
        rw [consume_answer, consume_answer, hconfig, h.found_eq k t hle, h'.found_eq k t hle,
          hconfig]
      rw [List.filter_cons_of_pos rfl, trace, trace, hanswer, hih]
    | cleanup t =>
      have hlater : Tracks s' levels t := by
        constructor
        · intro key u hu
          have hthen : t ≤ u := hu
          exact h'.found_eq key u (le_trans hle hthen)
        · exact h'.filled
        · exact fun key => le_trans (h'.since_le key) (seconds_mono hle)
      exact ih (h.cleanup hrate hle) hlater hconfig hrate htail

theorem run_config (s : RateLimiter) (steps : List Step) : (run s steps).config = s.config := by
  induction steps generalizing s with
  | nil => rfl
  | cons e steps ih =>
    cases e with
    | consume k t => exact (ih _).trans (consume_config s k t)
    | cleanup t => exact ih _

section Run
variable (h : Tracks s levels now) (hrate : 0 < s.config.refillRate) {steps : List Step} {last : Int}
    (hclock : (now :: steps.map Step.now).Pairwise (· ≤ ·))
    (hlast : ∀ e ∈ steps, e.now ≤ last) (hnow : now ≤ last)
include h hrate hclock hlast hnow

/-- Every run keeps the limiter in step with buckets that are never purged, and leaves the bucket of
a key that it does not ask for as it was. -/
theorem Tracks.after_run_without : ∃ after, Tracks (run s steps) after last ∧
    ∀ key, (∀ e ∈ steps, e.consumes key = false) → after key = levels key := by
  induction steps generalizing s levels now with
  | nil =>
    refine ⟨levels, ⟨fun key t ht => h.found_eq key t (le_trans hnow ht), h.filled, ?_⟩, fun _ _ => rfl⟩
    exact fun key => le_trans (h.since_le key) (seconds_mono hnow)
  | cons e steps ih =>
    obtain ⟨hle, htail⟩ := clock_cons hclock
    have hend := hlast e (by simp)
    have hrest : ∀ e ∈ steps, e.now ≤ last := fun e he => hlast e (by simp [he])
    cases e with
    | consume k t =>
      obtain ⟨after, hafter, hkeys⟩ :=
        ih (h.consume hrate hle k) (by rw [consume_config]; exact hrate) htail hrest hend
      refine ⟨after, hafter, fun key hkey => ?_⟩
      have hk : key ≠ k := by
        have hhead := hkey (.consume k t) (by simp)
        simp only [Step.consumes, decide_eq_false_iff_not] at hhead
        exact fun heq => hhead heq.symm
      rw [hkeys key fun e he => hkey e (by simp [he]), Function.update_of_ne hk]
    | cleanup t =>
      obtain ⟨after, hafter, hkeys⟩ := ih (h.cleanup hrate hle) hrate htail hrest hend
      exact ⟨after, hafter, fun key hkey => hkeys key fun e he => hkey e (by simp [he])⟩

theorem Tracks.after_run : ∃ after, Tracks (run s steps) after last :=
  (h.after_run_without hrate hclock hlast hnow).imp fun _ hafter => hafter.1

theorem Tracks.run_without {key : String} (hkey : ∀ e ∈ steps, e.consumes key = false) :
    (run s steps).found key last = available (terms s.config) (levels key) (seconds last) := by
  obtain ⟨after, hafter, hkeys⟩ := h.after_run_without hrate hclock hlast hnow
  rw [hafter.found_eq key last le_rfl, run_config, hkeys key hkey]

end Run

theorem run_append (s : RateLimiter) (front back : List Step) :
    run s (front ++ back) = run (run s front) back := by
  induction front generalizing s with
  | nil => rfl
  | cons e front ih =>
    cases e with
    | consume k t => exact ih _
    | cleanup t => exact ih _

theorem Clocked.start {steps : List Step} (h : Clocked steps) :
    ∃ start, (start :: steps.map Step.now).Pairwise (· ≤ ·) := by
  cases steps with
  | nil => exact ⟨0, List.pairwise_singleton _ _⟩
  | cons e steps => exact ⟨e.now, List.Pairwise.cons_cons_of_trans (le_refl _) h⟩

/-- Once the stated wait is over, a key that was refused and not asked for since is allowed. -/
theorem Tracks.allowed_after_wait (h : Tracks s levels now) (hrate : 0 < s.config.refillRate)
    (hmax : 1 ≤ s.config.maxTokens) {key : String} {t later : Int} {wait : Int}
    {during : List Step} (ht : now ≤ t)
    (hclock : (t :: (during ++ [Step.consume key later]).map Step.now).Pairwise (· ≤ ·))
    (hduring : ∀ e ∈ during, e.consumes key = false)
    (hrefused : (s.consume key t).1 = .refused wait) (hwait : t + wait ≤ later) :
    ((run (s.consume key t).2 during).consume key later).1 = .allowed := by
  have hfound := h.found_eq key t ht
  rw [consume_answer, hfound, answerOf] at hrefused
  have hnone : ¬1 ≤ available (terms s.config) (levels key) (seconds t) := by
    intro hone
    simp [hone] at hrefused
  rw [if_neg hnone] at hrefused
  cases hrefused
  have hsplit := hclock
  rw [List.map_append, ← List.cons_append, List.pairwise_append] at hsplit
  obtain ⟨hmiddle, -, hends⟩ := hsplit
  have hlast : ∀ e ∈ during, e.now ≤ later := by
    intro e he
    exact hends e.now (by simp; exact .inr ⟨e, he, rfl⟩) later (by simp [Step.now])
  have hnow : t ≤ later := hends t (by simp) later (by simp [Step.now])
  have hconsumed := h.consume hrate ht key
  have hkept := hconsumed.run_without (by rw [consume_config]; exact hrate) hmiddle hlast hnow
    hduring
  rw [consume_config, Function.update_self] at hkept
  have hdue : seconds t + (1 - available (terms s.config) (levels key) (seconds t)) /
      (terms s.config).rate ≤ seconds later := by
    have hceil := Int.le_ceil ((1 - available (terms s.config) (levels key) (seconds t)) /
      s.config.refillRate * 1000)
    have hcast : (t : Rat) + ⌈(1 - available (terms s.config) (levels key) (seconds t)) /
      s.config.refillRate * 1000⌉ ≤ later := by exact_mod_cast hwait
    simp only [seconds, terms] at hceil hcast ⊢
    linarith
  have hone := available_after_refusal hrate hmax hnone hdue
  rw [consume_answer, run_config, consume_config, hkept]
  exact (answerOf_eq_allowed s.config _).mpr hone

/-- Whatever the requests and cleanups of a run: no window of time sees more requests of a key
allowed than a full bucket and the refill of that window; which cleanups run, and when, shows in no
answer; and a refused key that waits as long as it was told, and is not asked for meanwhile, is
allowed. -/
theorem consume_limits (config : RateLimiterConfig) (hrate : 0 < config.refillRate)
    (hmax : 1 ≤ config.maxTokens) (steps : List Step) (hclock : Clocked steps) :
    (∀ (key : String) (a c : Rat), a ≤ c →
      (allowedBetween key a c (trace (create config) steps) : Rat) ≤
        config.maxTokens + config.refillRate * (c - a)) ∧
    (∀ others, Clocked others → others.filter Step.isConsume = steps.filter Step.isConsume →
      trace (create config) others = trace (create config) steps) ∧
    (∀ before key t during later after wait,
      steps = before ++ .consume key t :: (during ++ .consume key later :: after) →
      (∀ e ∈ during, e.consumes key = false) →
      ((run (create config) before).consume key t).1 = .refused wait → t + wait ≤ later →
      ((run (create config) (before ++ .consume key t :: during)).consume key later).1 =
        .allowed) := by
  have hseen : ∀ others, Clocked others →
      trace (create config) (others.filter Step.isConsume) = trace (create config) others := by
    intro others hothers
    obtain ⟨start, hstart⟩ := hothers.start
    have htracks := Tracks.start hmax hrate start
    exact htracks.trace_consumes htracks rfl hrate hstart
  refine ⟨?bound, ?cleanup, ?wait⟩
  case bound =>
    intro key a c hac
    obtain ⟨start, hstart⟩ := hclock.start
    have htracks := Tracks.start hmax hrate start
    rw [htracks.allowedBetween_eq hrate key hstart a c]
    have hsorted : (seconds start :: times key steps).Pairwise (· ≤ ·) :=
      (sorted_seconds hstart).sublist ((times_sublist key steps).cons_cons _)
    have hle := granted_le (p := terms config) (le_of_lt hrate) hac (htracks.filled key) hsorted
    simp only [terms] at hle
    rw [mul_comm config.refillRate]
    exact hle
  case cleanup =>
    intro others hothers hsame
    rw [← hseen others hothers, hsame, hseen steps hclock]
  case wait =>
    intro before key t during later after wait heq hduring hrefused hwait
    subst heq
    obtain ⟨start, hstart⟩ := hclock.start
    have htracks := Tracks.start hmax hrate start
    rw [List.map_append, ← List.cons_append, List.pairwise_append] at hstart
    obtain ⟨hbefore, hafter, hbetween⟩ := hstart
    have hlast : ∀ e ∈ before, e.now ≤ t := by
      intro e he
      exact hbetween e.now (by simp; exact .inr ⟨e, he, rfl⟩) t (by simp [Step.now])
    have hstarted : start ≤ t := hbetween start (by simp) t (by simp [Step.now])
    obtain ⟨levels, hthen⟩ := htracks.after_run hrate hbefore hlast hstarted
    have hconfig := run_config (create config) before
    have hrest : (t :: (during ++ [Step.consume key later]).map Step.now).Pairwise (· ≤ ·) := by
      refine List.Pairwise.sublist ?_ hafter
      simp [Step.now]
    rw [run_append]
    exact hthen.allowed_after_wait (by rw [hconfig]; exact hrate) (by rw [hconfig]; exact hmax)
      (le_refl t) hrest hduring hrefused hwait

/-- A burst on a bucket of two that a cleanup and a second's wait interrupt. -/
theorem consume_limits_burst :
    (allowedBetween "203.0.113.7" 0 1 (trace (create ⟨1, 2⟩)
      [.consume "203.0.113.7" 0, .consume "203.0.113.7" 0, .consume "203.0.113.7" 0,
        .cleanup 500, .consume "203.0.113.7" 1000]) : Rat) ≤ 2 + 1 * (1 - 0) :=
  (consume_limits ⟨1, 2⟩ (by norm_num) (by norm_num) _
    (by simp only [Clocked, Step.now, List.map]; decide)).1 "203.0.113.7" 0 1 (by norm_num)

theorem times_filter (key : String) (steps : List Step) :
    times key (steps.filter (Step.consumes key)) = times key steps := by
  induction steps with
  | nil => rfl
  | cons e steps ih =>
    cases e with
    | consume k now => by_cases hk : k = key <;> simp [times, Step.consumes, hk, ih]
    | cleanup now => simpa [times, Step.consumes] using ih

/-- What a key is answered depends on the requests of that key alone. -/
theorem answers_own_requests (config : RateLimiterConfig) (hrate : 0 < config.refillRate)
    (hmax : 1 ≤ config.maxTokens) (key : String) (steps others : List Step)
    (hsteps : Clocked steps) (hothers : Clocked others)
    (hsame : others.filter (Step.consumes key) = steps.filter (Step.consumes key)) :
    ((trace (create config) others).filter fun e => e.key = key).map Served.answer =
      ((trace (create config) steps).filter fun e => e.key = key).map Served.answer := by
  obtain ⟨first, hfirst⟩ := hsteps.start
  obtain ⟨second, hsecond⟩ := hothers.start
  have hanswers : ∀ l start, (start :: l.map Step.now).Pairwise (· ≤ ·) → min first second ≤ start →
      ((trace (create config) l).filter fun e => e.key = key).map Served.answer =
        (offers (terms config) ⟨config.maxTokens, seconds (min first second)⟩ (times key l)).map
          fun r => answerOf config r.2 := by
    intro l start hstart hle
    obtain ⟨hafter, hclock⟩ := List.pairwise_cons.mp hstart
    have hkey := congrArg (List.map Prod.snd) ((Tracks.start hmax hrate (min first second)).trace_key
      hrate key (List.pairwise_cons.mpr ⟨fun t ht => hle.trans (hafter t ht), hclock⟩))
    rw [List.map_map, List.map_map] at hkey
    exact hkey
  rw [hanswers others second hsecond (min_le_right ..), hanswers steps first hfirst (min_le_left ..),
    ← times_filter, hsame, times_filter]

/-- A key that is refused beside another key is refused alone. -/
theorem answers_own_requests_beside :
    ((trace (create ⟨1, 1⟩) [.consume "a" 0, .consume "a" 1]).filter fun e => e.key = "a").map
        Served.answer =
      ((trace (create ⟨1, 1⟩) [.consume "b" 0, .consume "a" 0, .cleanup 1, .consume "a" 1]).filter
        fun e => e.key = "a").map Served.answer :=
  answers_own_requests ⟨1, 1⟩ (by norm_num) (by norm_num) "a" _ _
    (by simp only [Clocked, Step.now, List.map]; decide)
    (by simp only [Clocked, Step.now, List.map]; decide) (by decide)

end RateLimiter
end EnboxDwn
