import EnboxDwn.Lib.KeyedMap
import Mathlib.Algebra.Group.Int.Defs

/-! Proof of work for registrations: challenge nonces that are renewed on one schedule, a record of
used response nonces that is pruned on another, and the difficulty that follows the solve rate. -/
namespace EnboxDwn

/-- SHA-256, as a number of 256 bits. -/
class Sha256 where
  digest : String → Nat

structure ProofOfWork where
  challengeNonce : String
  responseNonce : String
  requestData : String
  deriving DecidableEq, Repr

namespace ProofOfWork
variable [H : Sha256]

/-- The hash of the strings, one written after the other. -/
def hash (input : List String) : Nat := H.digest (String.join input)

/-- A number as 64 hexadecimal digits. -/
def hexString (n : Nat) : String :=
  let digits := Nat.toDigits 16 n
  String.ofList (List.replicate (64 - digits.length) '0' ++ digits)

def hashAsHexString (input : List String) : String := hexString (hash input)

def computeHash (input : ProofOfWork) : Nat :=
  hash [input.challengeNonce, input.responseNonce, input.requestData]

end ProofOfWork

inductive DwnServerErrorCode where
  | proofOfWorkInsufficientSolutionNonce
  | proofOfWorkManagerInvalidChallengeNonce
  | proofOfWorkManagerInvalidResponseNonceFormat
  | proofOfWorkManagerResponseNonceReused
  deriving DecidableEq, Repr

structure DwnServerError where
  code : DwnServerErrorCode
  message : String
  deriving DecidableEq, Repr

/-- Verifies that the hash is at most the allowed value. -/
def ProofOfWork.verifyResponseNonce [Sha256] (maximumAllowedHashValue : Int) (input : ProofOfWork) :
    Except DwnServerError Unit :=
  if maximumAllowedHashValue < computeHash input then
    .error ⟨.proofOfWorkInsufficientSolutionNonce,
      s!"Insufficient computed hash {computeHash input}, needs to be <= {maximumAllowedHashValue}."⟩
  else .ok ()

structure ChallengeNonces where
  previousChallengeNonce : Option String := none
  currentChallengeNonce : String
  nextChallengeNonce : Option String := none
  deriving DecidableEq, Repr

/-- The options of a manager. The rates and factors are floating-point numbers; those that reach
the difficulty as integers are given as such, and `none` where the conversion throws. -/
structure ProofOfWorkOptions where
  challengeSeed : Option String := none
  challengeRefreshFrequencyInSeconds : Nat := 600
  frequency_pos : 0 < challengeRefreshFrequencyInSeconds := by decide
  desiredSolveCountPerMinute : Nat
  initialMaximumAllowedHashValue : Int
  /-- The solve rate over the desired one, times the multiplier, times the scale factor. -/
  scaledSolveRate : Nat → Option Int
  scaledMultiplier : Option Int := some 1000000
  difficultyEvaluationsPerMinute : Option Int := some 6
  evaluationsBackToInitial : Option Int := some 60

structure ProofOfWorkManager where
  challengeNonces : ChallengeNonces
  proofOfWorkOfLastMinute : KeyedMap String Int := ∅
  currentMaximumAllowedHashValue : Int
  hashValueIncrementPerEvaluation : Option Int := some 1

namespace ProofOfWorkManager
variable [H : Sha256]

def scaleFactor : Int := 1000000

def currentSolveCountPerMinute (s : ProofOfWorkManager) : Nat :=
  s.proofOfWorkOfLastMinute.entries.length

def acceptableChallengeNonces (s : ProofOfWorkManager) : List String :=
  [s.challengeNonces.previousChallengeNonce, some s.challengeNonces.currentChallengeNonce,
    s.challengeNonces.nextChallengeNonce].filterMap fun nonce => nonce.filter (· ≠ "")

def isHexDigit (c : Char) : Bool :=
  c.isDigit || ('a' ≤ c && c ≤ 'f') || ('A' ≤ c && c ≤ 'F')

def isHexString (str : String) : Bool := str ≠ "" && str.toList.all isHexDigit

def recordProofOfWork (s : ProofOfWorkManager) (proofOfWorkId : String) (now : Int) :
    ProofOfWorkManager :=
  { s with proofOfWorkOfLastMinute := s.proofOfWorkOfLastMinute.insert proofOfWorkId now }

def verifyProofOfWork (s : ProofOfWorkManager) (now : Int) (proofOfWork : ProofOfWork) :
    Except DwnServerError ProofOfWorkManager := do
  if (s.proofOfWorkOfLastMinute.lookup proofOfWork.responseNonce).isSome then
    .error ⟨.proofOfWorkManagerResponseNonceReused,
      s!"Not allowed to reused response nonce: {proofOfWork.responseNonce}."⟩
  if !isHexString proofOfWork.responseNonce || proofOfWork.responseNonce.length ≠ 64 then
    .error ⟨.proofOfWorkManagerInvalidResponseNonceFormat,
      s!"Response nonce not a HEX string representing a 256 bit value: {proofOfWork.responseNonce}."⟩
  if !s.acceptableChallengeNonces.contains proofOfWork.challengeNonce then
    .error ⟨.proofOfWorkManagerInvalidChallengeNonce,
      s!"Unknown or expired challenge nonce: {proofOfWork.challengeNonce}."⟩
  proofOfWork.verifyResponseNonce s.currentMaximumAllowedHashValue
  .ok (s.recordProofOfWork proofOfWork.responseNonce now)

def removeProofOfWorkOlderThanOneMinute (s : ProofOfWorkManager) (now : Int) : ProofOfWorkManager :=
  { s with
    proofOfWorkOfLastMinute :=
      KeyedMap.filter (fun timestamp => !(timestamp < now - 60 * 1000)) s.proofOfWorkOfLastMinute }

/-- The challenge nonce of a refresh interval, the same on all servers of a cluster. -/
def intervalNonce (seed : String) (intervalId : Int) : String :=
  ProofOfWork.hashAsHexString [seed, toString intervalId, seed]

def refreshIntervalId (options : ProofOfWorkOptions) (now : Int) : Int :=
  now / (options.challengeRefreshFrequencyInSeconds * 1000)

/-- `generated` is the random nonce that is drawn where there is no seed. -/
def refreshChallengeNonce (options : ProofOfWorkOptions) (s : ProofOfWorkManager) (now : Int)
    (generated : String) : ProofOfWorkManager :=
  match options.challengeSeed with
  | none =>
    { s with
      challengeNonces := { s.challengeNonces with
        previousChallengeNonce := some s.challengeNonces.currentChallengeNonce
        currentChallengeNonce := generated } }
  | some seed =>
    let currentRefreshIntervalId := refreshIntervalId options now
    { s with
      challengeNonces :=
        { previousChallengeNonce := some (intervalNonce seed (currentRefreshIntervalId - 1))
          currentChallengeNonce := intervalNonce seed currentRefreshIntervalId
          nextChallengeNonce := some (intervalNonce seed (currentRefreshIntervalId + 1)) } }

/-- Integer division, which throws on zero. -/
def divide (a b : Int) : Option Int := if b = 0 then none else some (a.tdiv b)

def hashValueDecreaseAmount (options : ProofOfWorkOptions) (s : ProofOfWorkManager)
    (latestSolveCountPerMinute : Nat) : Option Int := do
  let prior ← divide (s.currentMaximumAllowedHashValue * scaleFactor)
    (← options.scaledSolveRate latestSolveCountPerMinute)
  let amount := (s.currentMaximumAllowedHashValue - prior) *
    (← options.scaledMultiplier).tdiv scaleFactor
  divide amount (← options.difficultyEvaluationsPerMinute)

/-- The increment that brings the difficulty back, computed where it is not set. -/
def hashValueIncrement (options : ProofOfWorkOptions) (s : ProofOfWorkManager) : Option Int :=
  match s.hashValueIncrementPerEvaluation with
  | some increment => some increment
  | none => do
    divide (options.initialMaximumAllowedHashValue - s.currentMaximumAllowedHashValue)
      (← options.evaluationsBackToInitial)

/-- A conversion or division that throws is reported and leaves the difficulty as it was. -/
def refreshMaximumAllowedHashValue (options : ProofOfWorkOptions) (s : ProofOfWorkManager)
    (now : Int) : ProofOfWorkManager :=
  let s := s.removeProofOfWorkOlderThanOneMinute now
  let latestSolveCountPerMinute := s.currentSolveCountPerMinute
  if options.desiredSolveCountPerMinute < latestSolveCountPerMinute then
    match hashValueDecreaseAmount options s latestSolveCountPerMinute with
    | none => s
    | some amount =>
      { s with
        currentMaximumAllowedHashValue := s.currentMaximumAllowedHashValue - amount
        hashValueIncrementPerEvaluation := none }
  else if s.currentMaximumAllowedHashValue = options.initialMaximumAllowedHashValue then s
  else
    match hashValueIncrement options s with
    | none => s
    | some increment =>
      let newMaximum := s.currentMaximumAllowedHashValue + increment
      { s with
        hashValueIncrementPerEvaluation := some increment
        currentMaximumAllowedHashValue :=
          if options.initialMaximumAllowedHashValue ≤ newMaximum then
            options.initialMaximumAllowedHashValue
          else newMaximum }

omit H in
theorem mem_acceptable {s : ProofOfWorkManager} {nonce : String} :
    nonce ∈ s.acceptableChallengeNonces ↔ nonce ≠ "" ∧
      (s.challengeNonces.previousChallengeNonce = some nonce ∨
        s.challengeNonces.currentChallengeNonce = nonce ∨
        s.challengeNonces.nextChallengeNonce = some nonce) := by
  unfold acceptableChallengeNonces
  simp only [List.mem_filterMap, List.mem_cons, List.not_mem_nil, or_false, exists_eq_or_imp,
    exists_eq_left, Option.filter_eq_some_iff, decide_eq_true_eq, Option.some.injEq]
  tauto

/-! ## Runs -/

inductive Event where
  | verifyProofOfWork (now : Int) (proofOfWork : ProofOfWork)
  | refreshChallengeNonce (now : Int) (generated : String)
  | refreshMaximumAllowedHashValue (now : Int)
  deriving DecidableEq, Repr

def Event.now : Event → Int
  | verifyProofOfWork now _ => now
  | refreshChallengeNonce now _ => now
  | refreshMaximumAllowedHashValue now => now

/-- A manager with its history: the proofs it accepted, and every challenge nonce that was
acceptable so far. -/
structure Run where
  manager : ProofOfWorkManager
  accepted : List ProofOfWork := []
  issued : List String

namespace Run

def start (options : ProofOfWorkOptions) (initial : String) : Run where
  manager :=
    { challengeNonces := { currentChallengeNonce := initial }
      currentMaximumAllowedHashValue := options.initialMaximumAllowedHashValue }
  issued := [initial]

def step (options : ProofOfWorkOptions) (r : Run) : Event → Run
  | .verifyProofOfWork now proofOfWork =>
    match r.manager.verifyProofOfWork now proofOfWork with
    | .ok manager => { r with manager, accepted := r.accepted ++ [proofOfWork] }
    | .error _ => r
  | .refreshChallengeNonce now generated =>
    let manager := r.manager.refreshChallengeNonce options now generated
    { r with manager, issued := r.issued ++ manager.acceptableChallengeNonces }
  | .refreshMaximumAllowedHashValue now =>
    { r with manager := r.manager.refreshMaximumAllowedHashValue options now }

def run (options : ProofOfWorkOptions) (r : Run) (events : List Event) : Run :=
  events.foldl (step options) r

/-- A difficulty refresh forgets no response nonce whose challenge nonce is still acceptable. -/
def Meets (r : Run) : Event → Prop
  | .refreshMaximumAllowedHashValue now => ∀ proofOfWork ∈ r.accepted,
      (∃ timestamp ∈ r.manager.proofOfWorkOfLastMinute.lookup proofOfWork.responseNonce,
        timestamp < now - 60 * 1000) →
      proofOfWork.challengeNonce ∉ r.manager.acceptableChallengeNonces
  | _ => True

def MeetsAll (options : ProofOfWorkOptions) (r : Run) : List Event → Prop
  | [] => True
  | event :: events => r.Meets event ∧ MeetsAll options (r.step options event) events

instance (r : Run) : (event : Event) → Decidable (r.Meets event)
  | .refreshMaximumAllowedHashValue now =>
    inferInstanceAs (Decidable (∀ proofOfWork ∈ r.accepted,
      (∃ timestamp ∈ r.manager.proofOfWorkOfLastMinute.lookup proofOfWork.responseNonce,
        timestamp < now - 60 * 1000) →
      proofOfWork.challengeNonce ∉ r.manager.acceptableChallengeNonces))
  | .verifyProofOfWork _ _ => inferInstanceAs (Decidable True)
  | .refreshChallengeNonce _ _ => inferInstanceAs (Decidable True)

instance decidableMeetsAll (options : ProofOfWorkOptions) (r : Run) :
    (events : List Event) → Decidable (MeetsAll options r events)
  | [] => inferInstanceAs (Decidable True)
  | event :: events =>
    have := decidableMeetsAll options (r.step options event) events
    inferInstanceAs (Decidable (_ ∧ _))

/-- A refresh brings back no challenge nonce that had been given up. -/
def NoReturn (options : ProofOfWorkOptions) (r : Run) (event : Event) : Prop :=
  ∀ nonce ∈ (r.step options event).manager.acceptableChallengeNonces,
    nonce ∈ r.manager.acceptableChallengeNonces ∨ nonce ∉ r.issued

def NoReturnAll (options : ProofOfWorkOptions) (r : Run) : List Event → Prop
  | [] => True
  | event :: events => NoReturn options r event ∧ NoReturnAll options (r.step options event) events

/-! ## Single use -/

/-- An accepted proof is either recorded or made for a challenge nonce that was given up. -/
structure Guarded (r : Run) : Prop where
  nodup : r.accepted.Nodup
  issued : ∀ nonce ∈ r.manager.acceptableChallengeNonces, nonce ∈ r.issued
  known : ∀ proofOfWork ∈ r.accepted, proofOfWork.challengeNonce ∈ r.issued
  recorded : ∀ proofOfWork ∈ r.accepted,
    (r.manager.proofOfWorkOfLastMinute.lookup proofOfWork.responseNonce).isSome = true ∨
      proofOfWork.challengeNonce ∉ r.manager.acceptableChallengeNonces

theorem verifyProofOfWork_eq_ok {s s' : ProofOfWorkManager} {now : Int} {proofOfWork : ProofOfWork}
    (h : s.verifyProofOfWork now proofOfWork = .ok s') :
    (s.proofOfWorkOfLastMinute.lookup proofOfWork.responseNonce).isSome = false ∧
      proofOfWork.challengeNonce ∈ s.acceptableChallengeNonces ∧
      s' = s.recordProofOfWork proofOfWork.responseNonce now := by
  unfold verifyProofOfWork at h
  by_cases hused : (s.proofOfWorkOfLastMinute.lookup proofOfWork.responseNonce).isSome = true
  · rw [if_pos hused] at h
    cases h
  rw [if_neg hused] at h
  by_cases hformat : (!isHexString proofOfWork.responseNonce ||
      decide (proofOfWork.responseNonce.length ≠ 64)) = true
  · rw [if_pos hformat] at h
    cases h
  rw [if_neg hformat] at h
  by_cases hchallenge : (!s.acceptableChallengeNonces.contains proofOfWork.challengeNonce) = true
  · rw [if_pos hchallenge] at h
    cases h
  rw [if_neg hchallenge] at h
  refine ⟨by simpa using hused, by simpa using hchallenge, ?_⟩
  cases hhash : proofOfWork.verifyResponseNonce s.currentMaximumAllowedHashValue with
  | error e =>
    rw [hhash] at h
    cases h
  | ok _ =>
    rw [hhash] at h
    exact (Except.ok.inj h).symm

omit H in
theorem refreshMaximumAllowedHashValue_keeps (options : ProofOfWorkOptions) (s : ProofOfWorkManager)
    (now : Int) :
    (s.refreshMaximumAllowedHashValue options now).challengeNonces = s.challengeNonces ∧
      (s.refreshMaximumAllowedHashValue options now).proofOfWorkOfLastMinute =
        (s.removeProofOfWorkOlderThanOneMinute now).proofOfWorkOfLastMinute := by
  simp only [refreshMaximumAllowedHashValue]
  split
  · split <;> exact ⟨rfl, rfl⟩
  · split
    · exact ⟨rfl, rfl⟩
    · split <;> exact ⟨rfl, rfl⟩

section Steps
variable {options : ProofOfWorkOptions} {r : Run}

theorem Guarded.verify (h : r.Guarded) (now : Int) (proofOfWork : ProofOfWork) :
    (r.step options (.verifyProofOfWork now proofOfWork)).Guarded := by
  simp only [step]
  cases hverify : r.manager.verifyProofOfWork now proofOfWork with
  | error e => exact h
  | ok manager =>
    obtain ⟨hunused, hchallenge, rfl⟩ := verifyProofOfWork_eq_ok hverify
    have hfresh : proofOfWork ∉ r.accepted := by
      intro hmem
      cases h.recorded proofOfWork hmem with
      | inl hsome => simp [hsome] at hunused
      | inr hgiven => exact hgiven hchallenge
    refine
      { nodup := ?_
        issued := h.issued
        known := ?_
        recorded := ?_ }
    · rw [List.nodup_append]
      refine ⟨h.nodup, by simp, ?_⟩
      intro a ha b hb heq
      rw [List.mem_singleton.mp hb] at heq
      exact hfresh (heq ▸ ha)
    · intro p hp
      cases List.mem_append.mp hp with
      | inl hold => exact h.known p hold
      | inr hnew =>
        rw [List.mem_singleton.mp hnew]
        exact h.issued _ hchallenge
    · intro p hp
      simp only [recordProofOfWork, KeyedMap.lookup_insert_eq]
      by_cases hsame : p.responseNonce = proofOfWork.responseNonce
      · simp [hsame]
      · rw [if_neg hsame]
        cases List.mem_append.mp hp with
        | inl hold => exact h.recorded p hold
        | inr hnew => exact absurd (congrArg _ (List.mem_singleton.mp hnew)) hsame

theorem Guarded.refreshChallenge (h : r.Guarded) {now : Int} {generated : String}
    (hreturn : NoReturn options r (.refreshChallengeNonce now generated)) :
    (r.step options (.refreshChallengeNonce now generated)).Guarded := by
  have hlookup : (r.manager.refreshChallengeNonce options now generated).proofOfWorkOfLastMinute =
      r.manager.proofOfWorkOfLastMinute := by
    unfold ProofOfWorkManager.refreshChallengeNonce
    split <;> rfl
  refine
    { nodup := h.nodup
      issued := fun nonce hnonce => List.mem_append_right _ hnonce
      known := fun p hp => List.mem_append_left _ (h.known p hp)
      recorded := ?_ }
  intro p hp
  refine (h.recorded p hp).imp (fun hsome => ?_) fun hgiven hback => ?_
  · change ((r.manager.refreshChallengeNonce options now generated).proofOfWorkOfLastMinute.lookup
      p.responseNonce).isSome = true
    rw [hlookup]
    exact hsome
  · cases hreturn p.challengeNonce hback with
    | inl hacceptable => exact hgiven hacceptable
    | inr hnew => exact hnew (h.known p hp)

theorem Guarded.refreshMaximum (h : r.Guarded) {now : Int}
    (hmeets : r.Meets (.refreshMaximumAllowedHashValue now)) :
    (r.step options (.refreshMaximumAllowedHashValue now)).Guarded := by
  obtain ⟨hnonces, hrecord⟩ := refreshMaximumAllowedHashValue_keeps options r.manager now
  have hacceptable : (r.manager.refreshMaximumAllowedHashValue options now).acceptableChallengeNonces =
      r.manager.acceptableChallengeNonces := by
    unfold acceptableChallengeNonces
    rw [hnonces]
  refine
    { nodup := h.nodup
      issued := fun nonce hnonce => h.issued nonce (hacceptable ▸ hnonce)
      known := h.known
      recorded := ?_ }
  intro p hp
  simp only [step, hacceptable, hrecord, removeProofOfWorkOlderThanOneMinute, KeyedMap.lookup_filter]
  cases h.recorded p hp with
  | inr hgiven => exact Or.inr hgiven
  | inl hsome =>
    obtain ⟨timestamp, htimestamp⟩ := Option.isSome_iff_exists.mp hsome
    by_cases hold : timestamp < now - 60 * 1000
    · exact Or.inr (hmeets p hp ⟨timestamp, htimestamp, hold⟩)
    · left
      simpa [htimestamp] using hold

theorem Guarded.run (h : r.Guarded) (events : List Event) (hmeets : MeetsAll options r events)
    (hreturn : NoReturnAll options r events) : (r.run options events).Guarded := by
  induction events generalizing r with
  | nil => exact h
  | cons event events ih =>
    refine ih ?_ hmeets.2 hreturn.2
    cases event with
    | verifyProofOfWork now proofOfWork => exact h.verify now proofOfWork
    | refreshChallengeNonce now generated => exact h.refreshChallenge hreturn.1
    | refreshMaximumAllowedHashValue now => exact h.refreshMaximum hmeets.1

end Steps

omit H in
theorem guarded_start (options : ProofOfWorkOptions) (initial : String) :
    (start options initial).Guarded where
  nodup := List.nodup_nil
  issued := by
    intro nonce hnonce
    obtain ⟨-, hprevious | hcurrent | hnext⟩ := mem_acceptable.mp hnonce
    · cases hprevious
    · exact List.mem_singleton.mpr hcurrent.symm
    · cases hnext
  known := by simp [start]
  recorded := by simp [start]

/-! ## Nonces that do not return -/

/-- The random nonces drawn in a run. -/
def generated (events : List Event) : List String :=
  events.filterMap fun event =>
    match event with
    | .refreshChallengeNonce _ generated => some generated
    | _ => none

/-- The intervals whose nonces become acceptable in a run. -/
def intervals (options : ProofOfWorkOptions) (events : List Event) : List Int :=
  events.flatMap fun event =>
    match event with
    | .refreshChallengeNonce now _ =>
      [refreshIntervalId options now - 1, refreshIntervalId options now,
        refreshIntervalId options now + 1]
    | _ => []

/-- No random nonce of the run is drawn twice, and no two of its intervals have one hash. -/
def Distinct (options : ProofOfWorkOptions) (initial : String) (events : List Event) : Prop :=
  match options.challengeSeed with
  | none => (initial :: generated events).Nodup
  | some seed =>
    (∀ j ∈ intervals options events, ∀ k ∈ intervals options events,
      intervalNonce seed j = intervalNonce seed k → j = k) ∧
    ∀ j ∈ intervals options events, intervalNonce seed j ≠ initial

section Returns
variable {options : ProofOfWorkOptions} {r : Run}

variable (options r) in
/-- Only a challenge refresh changes the nonces. -/
theorem step_nonces (event : Event) (h : ∀ now generated, event ≠ .refreshChallengeNonce now generated) :
    (r.step options event).manager.challengeNonces = r.manager.challengeNonces ∧
      (r.step options event).issued = r.issued := by
  cases event with
  | verifyProofOfWork now proofOfWork =>
    simp only [step]
    cases hverify : r.manager.verifyProofOfWork now proofOfWork with
    | error e => exact ⟨rfl, rfl⟩
    | ok manager =>
      obtain ⟨-, -, rfl⟩ := verifyProofOfWork_eq_ok hverify
      exact ⟨rfl, rfl⟩
  | refreshChallengeNonce now generated => exact absurd rfl (h now generated)
  | refreshMaximumAllowedHashValue now =>
    exact ⟨(refreshMaximumAllowedHashValue_keeps options r.manager now).1, rfl⟩

theorem noReturn_of_nonces {event : Event}
    (h : (r.step options event).manager.challengeNonces = r.manager.challengeNonces) :
    NoReturn options r event := by
  intro nonce hnonce
  left
  rw [mem_acceptable] at hnonce ⊢
  rwa [h] at hnonce

/-- Without a seed, the nonces issued are among the ones drawn. -/
structure Drawn (used : List String) (r : Run) : Prop where
  next : r.manager.challengeNonces.nextChallengeNonce = none
  issued : ∀ nonce ∈ r.issued, nonce ∈ used
  current : r.manager.challengeNonces.currentChallengeNonce ∈ used

theorem Drawn.noReturnAll (hseed : options.challengeSeed = none) {used : List String}
    (h : Drawn used r) (events : List Event) (hnodup : (used ++ generated events).Nodup) :
    NoReturnAll options r events := by
  induction events generalizing r used with
  | nil => trivial
  | cons event events ih =>
    by_cases hrefresh : ∃ now nonce, event = .refreshChallengeNonce now nonce
    · obtain ⟨now, nonce, rfl⟩ := hrefresh
      have hmanager : r.manager.refreshChallengeNonce options now nonce =
          { r.manager with challengeNonces := { r.manager.challengeNonces with
              previousChallengeNonce := some r.manager.challengeNonces.currentChallengeNonce
              currentChallengeNonce := nonce } } := by
        simp only [ProofOfWorkManager.refreshChallengeNonce, hseed]
      have hgenerated : generated (.refreshChallengeNonce now nonce :: events) =
          nonce :: generated events := rfl
      rw [hgenerated, List.append_cons] at hnodup
      have hnew : nonce ∉ used := by
        intro hmem
        rw [List.append_assoc, List.nodup_append] at hnodup
        exact hnodup.2.2 nonce hmem nonce (by simp) rfl
      refine ⟨?_, ih ?_ hnodup⟩
      · intro c hc
        simp only [step, hmanager, mem_acceptable, h.next] at hc
        rw [mem_acceptable]
        obtain ⟨hne, hprevious | hcurrent | hnext⟩ := hc
        · exact Or.inl ⟨hne, Or.inr (Or.inl (Option.some.inj hprevious))⟩
        · right
          rw [← hcurrent]
          exact fun hissued => hnew (h.issued nonce hissued)
        · cases hnext
      · refine ⟨?_, ?_, ?_⟩
        · simp only [step, hmanager]
          exact h.next
        · intro c hc
          simp only [step, hmanager, List.mem_append, mem_acceptable] at hc ⊢
          obtain hold | ⟨-, hprevious | hcurrent | hnext⟩ := hc
          · exact Or.inl (h.issued c hold)
          · exact Or.inl (Option.some.inj hprevious ▸ h.current)
          · exact Or.inr (by simp [hcurrent])
          · rw [h.next] at hnext
            cases hnext
        · simp [step, hmanager]
    · have hother : ∀ now nonce, event ≠ .refreshChallengeNonce now nonce :=
        fun now nonce heq => hrefresh ⟨now, nonce, heq⟩
      obtain ⟨hnonces, hissued⟩ := step_nonces options r event hother
      have hdrawn : Drawn used (r.step options event) :=
        ⟨hnonces ▸ h.next, hissued ▸ h.issued, hnonces ▸ h.current⟩
      refine ⟨noReturn_of_nonces hnonces, ih hdrawn ?_⟩
      · have hgenerated : generated (event :: events) = generated events := by
          cases event with
          | refreshChallengeNonce now nonce => exact absurd rfl (hother now nonce)
          | verifyProofOfWork now proofOfWork => rfl
          | refreshMaximumAllowedHashValue now => rfl
        rwa [hgenerated] at hnodup

/-- With a seed, the nonces issued are those of intervals up to the one after the last refresh. -/
structure Derived (seed initial : String) (visited : List Int) (last : Option Int) (r : Run) : Prop where
  issued : ∀ nonce ∈ r.issued, nonce = initial ∨ ∃ k ∈ visited, nonce = intervalNonce seed k
  visited : ∀ k ∈ visited, ∃ i, last = some i ∧ k ≤ i + 1
  nonces : ∀ i, last = some i → r.manager.challengeNonces =
    { previousChallengeNonce := some (intervalNonce seed (i - 1))
      currentChallengeNonce := intervalNonce seed i
      nextChallengeNonce := some (intervalNonce seed (i + 1)) }

omit H in
theorem refreshIntervalId_mono (options : ProofOfWorkOptions) {t t' : Int} (h : t ≤ t') :
    refreshIntervalId options t ≤ refreshIntervalId options t' := by
  have hpos := options.frequency_pos
  exact Int.ediv_le_ediv (by omega) h

theorem Derived.noReturnAll {seed initial : String} (hseed : options.challengeSeed = some seed)
    {visited : List Int} {last : Option Int} (h : Derived seed initial visited last r)
    (events : List Event) (hclock : (events.map Event.now).Pairwise (· ≤ ·))
    (hlast : ∀ i, last = some i → ∀ event ∈ events, i ≤ refreshIntervalId options event.now)
    (hinj : ∀ j ∈ visited ++ intervals options events, ∀ k ∈ visited ++ intervals options events,
      intervalNonce seed j = intervalNonce seed k → j = k)
    (hinitial : ∀ j ∈ visited ++ intervals options events, intervalNonce seed j ≠ initial) :
    NoReturnAll options r events := by
  induction events generalizing r visited last with
  | nil => trivial
  | cons event events ih =>
    rw [List.map_cons, List.pairwise_cons] at hclock
    obtain ⟨hlater, hclock⟩ := hclock
    by_cases hrefresh : ∃ now nonce, event = .refreshChallengeNonce now nonce
    · obtain ⟨now, nonce, rfl⟩ := hrefresh
      generalize hid : refreshIntervalId options now = id at *
      have hmanager : r.manager.refreshChallengeNonce options now nonce =
          { r.manager with challengeNonces :=
            { previousChallengeNonce := some (intervalNonce seed (id - 1))
              currentChallengeNonce := intervalNonce seed id
              nextChallengeNonce := some (intervalNonce seed (id + 1)) } } := by
        simp only [ProofOfWorkManager.refreshChallengeNonce, hseed, hid]
      have hintervals : intervals options (.refreshChallengeNonce now nonce :: events) =
          [id - 1, id, id + 1] ++ intervals options events := by
        rw [← hid]
        rfl
      have hold : ∀ i, last = some i → i ≤ id := fun i hi =>
        hid ▸ hlast i hi _ List.mem_cons_self
      rw [hintervals, ← List.append_assoc] at hinj hinitial
      have hwindow : ∀ c ∈ (r.step options (.refreshChallengeNonce now nonce)).manager.acceptableChallengeNonces,
          c ≠ "" ∧ ∃ k ∈ [id - 1, id, id + 1], c = intervalNonce seed k := by
        intro c hc
        simp only [step, hmanager, mem_acceptable] at hc
        obtain ⟨hne, hprevious | hcurrent | hnext⟩ := hc
        · exact ⟨hne, id - 1, by simp, (Option.some.inj hprevious).symm⟩
        · exact ⟨hne, id, by simp, hcurrent.symm⟩
        · exact ⟨hne, id + 1, by simp, (Option.some.inj hnext).symm⟩
      have hnext : Derived seed initial (visited ++ [id - 1, id, id + 1]) (some id)
          (r.step options (.refreshChallengeNonce now nonce)) := by
        refine ⟨?_, ?_, ?_⟩
        · intro c hc
          cases List.mem_append.mp hc with
          | inl hmem =>
            refine (h.issued c hmem).imp_right ?_
            rintro ⟨k, hk, heq⟩
            exact ⟨k, List.mem_append_left _ hk, heq⟩
          | inr hmem =>
            obtain ⟨-, k, hk, heq⟩ := hwindow c hmem
            exact Or.inr ⟨k, List.mem_append_right _ hk, heq⟩
        · intro k hk
          refine ⟨id, rfl, ?_⟩
          cases List.mem_append.mp hk with
          | inl hmem =>
            obtain ⟨i, hi, hle⟩ := h.visited k hmem
            have hidle := hold i hi
            omega
          | inr hmem =>
            simp only [List.mem_cons, List.not_mem_nil, or_false] at hmem
            omega
        · intro i hi
          cases hi
          simp only [step, hmanager]
      refine ⟨?_, ih hnext hclock ?_ hinj hinitial⟩
      · intro c hc
        obtain ⟨hne, k, hk, rfl⟩ := hwindow c hc
        by_cases hissued : intervalNonce seed k ∈ r.issued
        · left
          have hkmem : k ∈ visited ++ [id - 1, id, id + 1] ++ intervals options events := by
            rw [List.mem_append, List.mem_append]
            exact Or.inl (Or.inr hk)
          cases h.issued _ hissued with
          | inl heq => exact absurd heq (hinitial k hkmem)
          | inr hvisited =>
            obtain ⟨k', hk', heq⟩ := hvisited
            have hsame := hinj k hkmem k' (by simp [hk']) heq
            subst hsame
            -- An interval visited before and acceptable now is one of the last three.
            obtain ⟨i, hi, hle⟩ := h.visited k hk'
            have hidle := hold i hi
            simp only [List.mem_cons, List.not_mem_nil, or_false] at hk
            rw [mem_acceptable, h.nonces i hi]
            refine ⟨hne, ?_⟩
            have hcases : k = i - 1 ∨ k = i ∨ k = i + 1 := by omega
            obtain rfl | rfl | rfl := hcases
            · exact Or.inl rfl
            · exact Or.inr (Or.inl rfl)
            · exact Or.inr (Or.inr rfl)
        · exact Or.inr hissued
      · intro i hi event hevent
        cases hi
        rw [← hid]
        exact refreshIntervalId_mono options (hlater _ (List.mem_map_of_mem hevent))
    · have hother : ∀ now nonce, event ≠ .refreshChallengeNonce now nonce :=
        fun now nonce heq => hrefresh ⟨now, nonce, heq⟩
      obtain ⟨hnonces, hissued⟩ := step_nonces options r event hother
      have hintervals : intervals options (event :: events) = intervals options events := by
        cases event with
        | refreshChallengeNonce now nonce => exact absurd rfl (hother now nonce)
        | verifyProofOfWork now proofOfWork => rfl
        | refreshMaximumAllowedHashValue now => rfl
      rw [hintervals] at hinj hinitial
      refine ⟨noReturn_of_nonces hnonces, ih ?_ hclock (fun i hi event hevent =>
        hlast i hi event (List.mem_cons_of_mem _ hevent)) hinj hinitial⟩
      exact ⟨hissued ▸ h.issued, h.visited, hnonces ▸ h.nonces⟩

theorem noReturnAll_of_distinct {initial : String} {events : List Event}
    (hclock : (events.map Event.now).Pairwise (· ≤ ·)) (hdistinct : Distinct options initial events) :
    NoReturnAll options (start options initial) events := by
  unfold Distinct at hdistinct
  split at hdistinct
  · next hseed =>
    have hstart : Drawn [initial] (start options initial) :=
      ⟨rfl, fun nonce hnonce => hnonce, List.mem_singleton_self _⟩
    exact hstart.noReturnAll hseed events hdistinct
  · next seed hseed =>
    have hstart : Derived seed initial [] none (start options initial) :=
      ⟨fun nonce hnonce => Or.inl (List.mem_singleton.mp hnonce), by simp, by simp⟩
    exact hstart.noReturnAll hseed events hclock (by simp) (by simpa using hdistinct.1)
      (by simpa using hdistinct.2)

end Returns

/-- In every run whose difficulty refreshes meet the condition, no proof is accepted twice. -/
theorem accepted_nodup (options : ProofOfWorkOptions) (initial : String) (events : List Event)
    (hclock : (events.map Event.now).Pairwise (· ≤ ·)) (hdistinct : Distinct options initial events)
    (hmeets : MeetsAll options (start options initial) events) :
    ((start options initial).run options events).accepted.Nodup :=
  ((guarded_start options initial).run events hmeets
    (noReturnAll_of_distinct hclock hdistinct)).nodup

end Run

end ProofOfWorkManager

end EnboxDwn

namespace EnboxDwn.ProofOfWorkManager.Run

def challenge : String := String.ofList (List.replicate 64 '0')

def proof : ProofOfWork where
  challengeNonce := challenge
  responseNonce := String.ofList (List.replicate 64 'A')
  requestData := "\x7b\x7d"

/-- SHA-256 on the one input that is hashed below. -/
local instance : Sha256 where
  digest input :=
    if input = challenge ++ String.ofList (List.replicate 64 'A') ++ "\x7b\x7d" then
      0xbfbc4df1852c4681936bcde64c16c065aa8c8dd8a5c922595a6733d0641ff13b
    else 0

/-- Every hash is allowed, and ten proofs a minute are desired. -/
def easyOptions : ProofOfWorkOptions where
  desiredSolveCountPerMinute := 10
  initialMaximumAllowedHashValue := 2 ^ 256 - 1
  frequency_pos := Nat.succ_pos 599
  scaledSolveRate count := some (count * 100000)

/-- The challenge nonce is renewed twice before the record of its proof is dropped. -/
def renewedBeforePruning : List Event :=
  [.verifyProofOfWork 0 proof, .refreshChallengeNonce 30000 "1", .refreshChallengeNonce 40000 "2",
    .refreshMaximumAllowedHashValue 70000, .verifyProofOfWork 70001 proof]

theorem accepted_nodup_renewedBeforePruning :
    ((start easyOptions challenge).run easyOptions renewedBeforePruning).accepted = [proof] ∧
      ((start easyOptions challenge).run easyOptions renewedBeforePruning).accepted.Nodup :=
  ⟨by decide +kernel, accepted_nodup easyOptions challenge renewedBeforePruning (by decide +kernel)
    (show (_ :: _).Nodup by decide +kernel) (by decide +kernel)⟩

/-- The record is dropped after a minute, and the challenge nonce is acceptable for ten. -/
def prunedBeforeRenewal : List Event :=
  [.verifyProofOfWork 0 proof, .refreshMaximumAllowedHashValue 60001, .verifyProofOfWork 60002 proof]

theorem not_nodup_prunedBeforeRenewal :
    (prunedBeforeRenewal.map Event.now).Pairwise (· ≤ ·) ∧
      Distinct easyOptions challenge prunedBeforeRenewal ∧
      ¬ ((start easyOptions challenge).run easyOptions prunedBeforeRenewal).accepted.Nodup :=
  ⟨by decide +kernel, show (_ :: _).Nodup by decide +kernel, by decide +kernel⟩

end EnboxDwn.ProofOfWorkManager.Run
