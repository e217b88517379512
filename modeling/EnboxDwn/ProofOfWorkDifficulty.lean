import EnboxDwn.Lib.Binary64
import EnboxDwn.ProofOfWorkManager

/-! The difficulty of the proof of work over a run: what one refresh makes of the maximum allowed
hash value above and below the desired solve rate, with the numbers of the options in double
precision. -/
namespace EnboxDwn
namespace ProofOfWorkManager

/-- A quotient of numbers; a positive number over zero is infinite. -/
def quotient (a b : Rat) : Option Rat := if b = 0 then none else Binary64.round (a / b)

def product (a b : Rat) : Option Rat := Binary64.round (a * b)

/-- A number as an integer; the conversion throws unless it is one. -/
def toBigInt (x : Rat) : Option Int := if x.den = 1 then some x.num else none

/-- What a manager is created with, as far as the difficulty is concerned. -/
structure DifficultyInput where
  desiredSolveCountPerMinute : Nat
  initialMaximumAllowedHashValue : Int
  difficultyIncreaseMultiplier : Rat := 1
  difficultyReevaluationFrequencyInSeconds : Rat := 10

def difficultyEvaluationsPerMinute (input : DifficultyInput) : Option Rat := do
  quotient 60000 (← product input.difficultyReevaluationFrequencyInSeconds 1000)

def DifficultyInput.options (input : DifficultyInput) : ProofOfWorkOptions where
  desiredSolveCountPerMinute := input.desiredSolveCountPerMinute
  initialMaximumAllowedHashValue := input.initialMaximumAllowedHashValue
  scaledSolveRate latestSolveCountPerMinute := do
    let currentSolveRateInFractionOfDesiredSolveRate ←
      quotient latestSolveCountPerMinute input.desiredSolveCountPerMinute
    let multiplied ← product currentSolveRateInFractionOfDesiredSolveRate
      input.difficultyIncreaseMultiplier
    let scaled ← product multiplied 1000000
    some ⌊scaled⌋
  scaledMultiplier := do
    let scaled ← product input.difficultyIncreaseMultiplier 1000000
    some ⌊scaled⌋
  difficultyEvaluationsPerMinute := do toBigInt (← difficultyEvaluationsPerMinute input)
  evaluationsBackToInitial := do toBigInt (← product 10 (← difficultyEvaluationsPerMinute input))

/-- More proofs were recorded in the last minute than desired. -/
def AboveRate (options : ProofOfWorkOptions) (s : ProofOfWorkManager) (now : Int) : Prop :=
  options.desiredSolveCountPerMinute <
    (s.removeProofOfWorkOlderThanOneMinute now).currentSolveCountPerMinute

instance (options : ProofOfWorkOptions) (s : ProofOfWorkManager) (now : Int) :
    Decidable (AboveRate options s now) := inferInstanceAs (Decidable (_ < _))

/-- A refresh, with none where a conversion or division throws. -/
def attemptRefresh (options : ProofOfWorkOptions) (s : ProofOfWorkManager) (now : Int) :
    Option ProofOfWorkManager :=
  let recent := s.removeProofOfWorkOlderThanOneMinute now
  if AboveRate options s now then
    (hashValueDecreaseAmount options recent recent.currentSolveCountPerMinute).map fun amount =>
      { recent with
        currentMaximumAllowedHashValue := recent.currentMaximumAllowedHashValue - amount
        hashValueIncrementPerEvaluation := none }
  else if recent.currentMaximumAllowedHashValue = options.initialMaximumAllowedHashValue then
    some recent
  else
    (hashValueIncrement options recent).map fun increment =>
      { recent with
        hashValueIncrementPerEvaluation := some increment
        currentMaximumAllowedHashValue :=
          if options.initialMaximumAllowedHashValue ≤
              recent.currentMaximumAllowedHashValue + increment then
            options.initialMaximumAllowedHashValue
          else recent.currentMaximumAllowedHashValue + increment }

theorem refresh_eq (options : ProofOfWorkOptions) (s : ProofOfWorkManager) (now : Int) :
    s.refreshMaximumAllowedHashValue options now =
      (attemptRefresh options s now).getD (s.removeProofOfWorkOlderThanOneMinute now) := by
  by_cases habove : AboveRate options s now
  · rw [attemptRefresh, if_pos habove, refreshMaximumAllowedHashValue]
    simp only [AboveRate] at habove
    rw [if_pos habove]
    cases hashValueDecreaseAmount options (s.removeProofOfWorkOlderThanOneMinute now)
      (s.removeProofOfWorkOlderThanOneMinute now).currentSolveCountPerMinute <;> rfl
  · rw [attemptRefresh, if_neg habove, refreshMaximumAllowedHashValue]
    simp only [AboveRate] at habove
    rw [if_neg habove]
    by_cases hinitial : (s.removeProofOfWorkOlderThanOneMinute now).currentMaximumAllowedHashValue =
        options.initialMaximumAllowedHashValue
    · rw [if_pos hinitial, if_pos hinitial]
      rfl
    · rw [if_neg hinitial, if_neg hinitial]
      cases hashValueIncrement options (s.removeProofOfWorkOlderThanOneMinute now) <;> rfl

inductive DifficultyStep where
  | recordProofOfWork (proofOfWorkId : String) (now : Int)
  | refreshMaximumAllowedHashValue (now : Int)
  deriving DecidableEq

def difficultyStep (options : ProofOfWorkOptions) (s : ProofOfWorkManager) :
    DifficultyStep → ProofOfWorkManager
  | .recordProofOfWork proofOfWorkId now => s.recordProofOfWork proofOfWorkId now
  | .refreshMaximumAllowedHashValue now => s.refreshMaximumAllowedHashValue options now

def difficultyRun (options : ProofOfWorkOptions) (s : ProofOfWorkManager)
    (steps : List DifficultyStep) : ProofOfWorkManager :=
  steps.foldl (difficultyStep options) s

def create (options : ProofOfWorkOptions) (nonce : String) : ProofOfWorkManager where
  challengeNonces := { currentChallengeNonce := nonce }
  currentMaximumAllowedHashValue := options.initialMaximumAllowedHashValue

/-- The whole part of the multiplier, as the refresh applies it a second time. -/
def wholeMultiplier (options : ProofOfWorkOptions) : Option Int :=
  options.scaledMultiplier.map fun scaled => scaled.tdiv scaleFactor

/-- Above the desired rate, the multiplier does not exceed the evaluations of a minute and, where
it equals them, the multiplied solve rate does not exceed the maximum. At or below, an increment
that has to be computed is at least one. -/
def Meets (options : ProofOfWorkOptions) (s : ProofOfWorkManager) : DifficultyStep → Prop
  | .recordProofOfWork _ _ => True
  | .refreshMaximumAllowedHashValue now =>
    if AboveRate options s now then
      ∃ rate ∈ options.scaledSolveRate
          (s.removeProofOfWorkOlderThanOneMinute now).currentSolveCountPerMinute,
        ∃ multiplier ∈ wholeMultiplier options,
          ∃ evaluations ∈ options.difficultyEvaluationsPerMinute, multiplier < evaluations ∨
            (multiplier = evaluations ∧ rate ≤ s.currentMaximumAllowedHashValue * scaleFactor)
    else s.hashValueIncrementPerEvaluation = none →
      s.currentMaximumAllowedHashValue = options.initialMaximumAllowedHashValue ∨
        ∃ evaluations ∈ options.evaluationsBackToInitial,
          evaluations ≤ options.initialMaximumAllowedHashValue - s.currentMaximumAllowedHashValue

def MeetsAll (options : ProofOfWorkOptions) : ProofOfWorkManager → List DifficultyStep → Prop
  | _, [] => True
  | s, step :: steps => Meets options s step ∧ MeetsAll options (difficultyStep options s step) steps

/-- Every refresh finds the solve rate at or below the desired one. -/
def Quiet (options : ProofOfWorkOptions) : ProofOfWorkManager → List DifficultyStep → Prop
  | _, [] => True
  | s, .recordProofOfWork proofOfWorkId now :: steps =>
    Quiet options (s.recordProofOfWork proofOfWorkId now) steps
  | s, .refreshMaximumAllowedHashValue now :: steps =>
    ¬AboveRate options s now ∧ Quiet options (s.refreshMaximumAllowedHashValue options now) steps

def refreshes (steps : List DifficultyStep) : Nat :=
  steps.countP fun
    | .recordProofOfWork _ _ => false
    | .refreshMaximumAllowedHashValue _ => true

/-- What the conversions of the options are promised to give, where they give anything. -/
structure Converts (options : ProofOfWorkOptions) : Prop where
  rate : ∀ count > options.desiredSolveCountPerMinute,
    ∀ scaled ∈ options.scaledSolveRate count, scaleFactor ≤ scaled
  multiplier : ∀ whole ∈ wholeMultiplier options, 0 ≤ whole
  evaluations : ∀ n ∈ options.difficultyEvaluationsPerMinute, 1 ≤ n
  back : ∀ n ∈ options.evaluationsBackToInitial, 1 ≤ n

structure InRange (options : ProofOfWorkOptions) (s : ProofOfWorkManager) : Prop where
  pos : 1 ≤ s.currentMaximumAllowedHashValue
  le_initial : s.currentMaximumAllowedHashValue ≤ options.initialMaximumAllowedHashValue
  increment : ∀ n ∈ s.hashValueIncrementPerEvaluation, 1 ≤ n

theorem tdiv_bounds {current rate : Int} (hpos : 1 ≤ current) (hrate : scaleFactor ≤ rate) :
    0 ≤ (current * scaleFactor).tdiv rate ∧ (current * scaleFactor).tdiv rate ≤ current := by
  simp only [scaleFactor] at *
  rw [Int.tdiv_eq_ediv_of_nonneg (by omega)]
  constructor
  · exact Int.ediv_nonneg (by omega) (by omega)
  · have hle : current * 1000000 ≤ current * rate := Int.mul_le_mul_of_nonneg_left hrate (by omega)
    exact Int.ediv_le_of_le_mul (by omega) hle

/-- What a refresh above the rate takes away leaves something, and takes nothing less than zero. -/
theorem decrease_bounds {current prior multiplier evaluations : Int} (hcurrent : 1 ≤ current)
    (hprior : 0 ≤ prior) (hle : prior ≤ current) (hmultiplier : 0 ≤ multiplier)
    (hevaluations : 1 ≤ evaluations)
    (h : multiplier < evaluations ∨ (multiplier = evaluations ∧ 1 ≤ prior)) :
    0 ≤ ((current - prior) * multiplier).tdiv evaluations ∧
      ((current - prior) * multiplier).tdiv evaluations < current := by
  have hnonneg : 0 ≤ (current - prior) * multiplier := Int.mul_nonneg (by omega) hmultiplier
  rw [Int.tdiv_eq_ediv_of_nonneg hnonneg]
  refine ⟨Int.ediv_nonneg hnonneg (by omega), ?_⟩
  cases h with
  | inl hless =>
    have hshare : (current - prior) * multiplier ≤ current * multiplier :=
      Int.mul_le_mul_of_nonneg_right (by omega) hmultiplier
    have hwhole : current * multiplier < current * evaluations :=
      Int.mul_lt_mul_of_pos_left hless (by omega)
    exact Int.ediv_lt_of_lt_mul (by omega) (by omega)
  | inr hsame =>
    rw [hsame.1, Int.mul_ediv_cancel _ (by omega)]
    omega

variable {options : ProofOfWorkOptions} {s : ProofOfWorkManager} {now : Int}

/-- Above the rate, a refresh that meets the condition succeeds, keeps the maximum in range and does
not raise it. -/
theorem attempt_above (hc : Converts options) (hr : InRange options s)
    (habove : AboveRate options s now)
    (hmeets : Meets options s (.refreshMaximumAllowedHashValue now)) :
    ∃ after, attemptRefresh options s now = some after ∧ InRange options after ∧
      after.currentMaximumAllowedHashValue ≤ s.currentMaximumAllowedHashValue := by
  rw [Meets, if_pos habove] at hmeets
  obtain ⟨rate, hrate, multiplier, hmultiplier, evaluations, hevaluations, hcases⟩ := hmeets
  have hscaled := hc.rate _ habove rate hrate
  have hprior := tdiv_bounds hr.pos hscaled
  have hratepos : rate ≠ 0 := by
    simp only [scaleFactor] at hscaled
    omega
  have hevalpos := hc.evaluations evaluations hevaluations
  have hnonneg := hc.multiplier multiplier hmultiplier
  have hkeep : multiplier < evaluations ∨ (multiplier = evaluations ∧
      1 ≤ (s.currentMaximumAllowedHashValue * scaleFactor).tdiv rate) := by
    cases hcases with
    | inl hless => exact .inl hless
    | inr hsame =>
      refine .inr ⟨hsame.1, ?_⟩
      have hpos := hr.pos
      simp only [scaleFactor] at hscaled hsame ⊢
      rw [Int.tdiv_eq_ediv_of_nonneg (by omega)]
      exact Int.le_ediv_of_mul_le (by omega) (by omega)
  have hbounds := decrease_bounds hr.pos hprior.1 hprior.2 hnonneg hevalpos hkeep
  obtain ⟨scaled, hscaledMultiplier, rfl⟩ := Option.map_eq_some_iff.mp hmultiplier
  have hamount : hashValueDecreaseAmount options (s.removeProofOfWorkOlderThanOneMinute now)
      (s.removeProofOfWorkOlderThanOneMinute now).currentSolveCountPerMinute =
      some (((s.currentMaximumAllowedHashValue -
        (s.currentMaximumAllowedHashValue * scaleFactor).tdiv rate) *
          scaled.tdiv scaleFactor).tdiv evaluations) := by
    have hne : evaluations ≠ 0 := by omega
    rw [Option.mem_def] at hrate hevaluations
    simp only [hashValueDecreaseAmount, hrate, hscaledMultiplier, hevaluations, Option.bind_eq_bind,
      Option.bind_some, divide, if_neg hratepos, if_neg hne]
    rfl
  rw [attemptRefresh, if_pos habove, hamount]
  refine ⟨_, rfl, ⟨?_, ?_, ?_⟩, ?_⟩
  · simp only [removeProofOfWorkOlderThanOneMinute]
    omega
  · have hle := hr.le_initial
    simp only [removeProofOfWorkOlderThanOneMinute]
    omega
  · intro n hn
    cases hn
  · simp only [removeProofOfWorkOlderThanOneMinute]
    omega

/-- At or below the rate, a refresh that meets the condition succeeds and brings the maximum to its
initial value or nearer to it. -/
theorem attempt_below (hc : Converts options) (hr : InRange options s)
    (hbelow : ¬AboveRate options s now)
    (hmeets : Meets options s (.refreshMaximumAllowedHashValue now)) :
    ∃ after, attemptRefresh options s now = some after ∧ InRange options after ∧
      s.currentMaximumAllowedHashValue ≤ after.currentMaximumAllowedHashValue ∧
      (after.currentMaximumAllowedHashValue = options.initialMaximumAllowedHashValue ∨
        s.currentMaximumAllowedHashValue + 1 ≤ after.currentMaximumAllowedHashValue) := by
  rw [Meets, if_neg hbelow] at hmeets
  have hpos := hr.pos
  have hle := hr.le_initial
  by_cases hinitial :
      s.currentMaximumAllowedHashValue = options.initialMaximumAllowedHashValue
  · have hrecent : (s.removeProofOfWorkOlderThanOneMinute now).currentMaximumAllowedHashValue =
        options.initialMaximumAllowedHashValue := hinitial
    rw [attemptRefresh, if_neg hbelow, if_pos hrecent]
    exact ⟨_, rfl, ⟨hr.pos, hr.le_initial, hr.increment⟩, le_refl _, .inl hinitial⟩
  have hrecent : (s.removeProofOfWorkOlderThanOneMinute now).currentMaximumAllowedHashValue ≠
      options.initialMaximumAllowedHashValue := hinitial
  have hincrement : ∃ n, hashValueIncrement options (s.removeProofOfWorkOlderThanOneMinute now) =
      some n ∧ 1 ≤ n := by
    cases hset : s.hashValueIncrementPerEvaluation with
    | some n =>
      refine ⟨n, ?_, hr.increment n hset⟩
      simp only [hashValueIncrement, removeProofOfWorkOlderThanOneMinute, hset]
    | none =>
      obtain ⟨evaluations, hevaluations, hdiff⟩ := (hmeets hset).resolve_left hinitial
      have hone := hc.back evaluations hevaluations
      have hne : evaluations ≠ 0 := by omega
      refine ⟨(options.initialMaximumAllowedHashValue -
        s.currentMaximumAllowedHashValue).tdiv evaluations, ?_, ?_⟩
      · rw [Option.mem_def] at hevaluations
        simp only [hashValueIncrement, removeProofOfWorkOlderThanOneMinute, hset, hevaluations,
          Option.bind_eq_bind, Option.bind_some, divide, if_neg hne]
      · rw [Int.tdiv_eq_ediv_of_nonneg (by omega)]
        exact Int.le_ediv_of_mul_le (by omega) (by omega)
  obtain ⟨n, hn, hone⟩ := hincrement
  rw [attemptRefresh, if_neg hbelow, if_neg hrecent, hn]
  have hcurrent : (s.removeProofOfWorkOlderThanOneMinute now).currentMaximumAllowedHashValue =
      s.currentMaximumAllowedHashValue := rfl
  refine ⟨_, rfl, ⟨?_, ?_, ?_⟩, ?_, ?_⟩
  · simp only [hcurrent]
    split <;> omega
  · simp only [hcurrent]
    split <;> omega
  · intro m hm
    cases hm
    exact hone
  · simp only [hcurrent]
    split <;> omega
  · simp only [hcurrent]
    split <;> omega

theorem meets_step (hc : Converts options) (hr : InRange options s) {step : DifficultyStep}
    (hmeets : Meets options s step) : InRange options (difficultyStep options s step) := by
  cases step with
  | recordProofOfWork proofOfWorkId now => exact ⟨hr.pos, hr.le_initial, hr.increment⟩
  | refreshMaximumAllowedHashValue now =>
    rw [difficultyStep, refresh_eq]
    by_cases habove : AboveRate options s now
    · obtain ⟨after, hafter, hrange, -⟩ := attempt_above hc hr habove hmeets
      rw [hafter]
      exact hrange
    · obtain ⟨after, hafter, hrange, -⟩ := attempt_below hc hr habove hmeets
      rw [hafter]
      exact hrange

theorem meetsAll_append {front back : List DifficultyStep}
    (h : MeetsAll options s (front ++ back)) :
    MeetsAll options s front ∧ MeetsAll options (difficultyRun options s front) back := by
  induction front generalizing s with
  | nil => exact ⟨trivial, h⟩
  | cons step front ih =>
    have hrest := ih h.2
    exact ⟨⟨h.1, hrest.1⟩, hrest.2⟩

theorem meets_run (hc : Converts options) (hr : InRange options s) {steps : List DifficultyStep}
    (hmeets : MeetsAll options s steps) : InRange options (difficultyRun options s steps) := by
  induction steps generalizing s with
  | nil => exact hr
  | cons step steps ih => exact ih (meets_step hc hr hmeets.1) hmeets.2

/-- While the rate is not above the desired one, each refresh brings the maximum nearer to its
initial value. -/
theorem quiet_run (hc : Converts options) (hr : InRange options s) {steps : List DifficultyStep}
    (hmeets : MeetsAll options s steps) (hquiet : Quiet options s steps) :
    (difficultyRun options s steps).currentMaximumAllowedHashValue =
        options.initialMaximumAllowedHashValue ∨
      s.currentMaximumAllowedHashValue + refreshes steps ≤
        (difficultyRun options s steps).currentMaximumAllowedHashValue := by
  induction steps generalizing s with
  | nil => exact .inr (by simp [refreshes, difficultyRun])
  | cons step steps ih =>
    have hnext := meets_step hc hr hmeets.1
    have hend := (meets_run hc hnext hmeets.2).le_initial
    cases step with
    | recordProofOfWork proofOfWorkId now =>
      have hrest := ih hnext hmeets.2 hquiet
      have hcount : refreshes (.recordProofOfWork proofOfWorkId now :: steps) =
          refreshes steps := by simp [refreshes]
      rw [hcount]
      exact hrest
    | refreshMaximumAllowedHashValue now =>
      have hrest := ih hnext hmeets.2 hquiet.2
      obtain ⟨after, hafter, -, hle, hcases⟩ := attempt_below hc hr hquiet.1 hmeets.1
      have hstep : difficultyStep options s (.refreshMaximumAllowedHashValue now) = after := by
        rw [difficultyStep, refresh_eq, hafter]
        rfl
      have hcount : refreshes (.refreshMaximumAllowedHashValue now :: steps) =
          refreshes steps + 1 := by simp [refreshes]
      rw [hstep] at hrest hend
      simp only [difficultyRun, List.foldl_cons, hstep] at hrest hend ⊢
      rw [hcount]
      omega

/-! ## The options of a manager -/

theorem natCast_le_round {n : Nat} {x b : Rat} (hn : 0 < n) (hsmall : n < 2 ^ 53) (hx : n ≤ x)
    (h : Binary64.round x = some b) : n ≤ b := by
  have hpos : (0 : Rat) < n := by exact_mod_cast hn
  obtain ⟨a, ha, hle⟩ := Binary64.round_mono hpos hx h
  rw [Binary64.round_natCast hsmall] at ha
  cases ha
  exact hle

theorem one_le_round {x b : Rat} (hx : 1 ≤ x) (h : Binary64.round x = some b) : 1 ≤ b := by
  have hle := natCast_le_round (n := 1) (by omega) (by norm_num) (by simpa using hx) h
  simpa using hle

theorem million_le_floor {x b : Rat} (hx : 1 ≤ x) (h : product x 1000000 = some b) :
    scaleFactor ≤ ⌊b⌋ := by
  have hle := natCast_le_round (n := 1000000) (by omega) (by norm_num)
    (by push_cast; linarith) h
  rw [scaleFactor, Int.le_floor]
  push_cast at hle ⊢
  exact hle

theorem product_natCast {a b c : Nat} (hc : c < 2 ^ 53) (h : c = a * b) :
    product a b = some (c : Rat) := by
  rw [product, ← Nat.cast_mul, ← h]
  exact Binary64.round_natCast hc

theorem product_million {a c : Nat} (hc : c < 2 ^ 53) (h : c = a * 1000000) :
    product a 1000000 = some (c : Rat) := by
  have hproduct := product_natCast hc h
  rw [Nat.cast_ofNat] at hproduct
  exact hproduct

theorem quotient_natCast {a b c : Nat} (hb : 0 < b) (hc : c < 2 ^ 53) (h : a = c * b) :
    quotient a b = some (c : Rat) := by
  have hne : (b : Rat) ≠ 0 := by exact_mod_cast hb.ne'
  have hquotient : (a : Rat) / b = c := by
    rw [div_eq_iff hne]
    exact_mod_cast h
  rw [quotient, if_neg hne, hquotient]
  exact Binary64.round_natCast hc

theorem toBigInt_natCast {n : Nat} : toBigInt (n : Rat) = some (n : Int) := by
  simp [toBigInt]

theorem one_le_toBigInt {x : Rat} {n : Int} (hx : 1 ≤ x) (h : toBigInt x = some n) : 1 ≤ n := by
  rw [toBigInt] at h
  split at h
  · cases h
    have hpos : 0 < x.num := Rat.num_pos.mpr (by linarith)
    omega
  · cases h

/-- The frequency divides a minute: the evaluations of a minute are a whole number. -/
def DividesMinute (input : DifficultyInput) : Prop :=
  ∃ evaluations : Nat, 1 ≤ evaluations ∧
    difficultyEvaluationsPerMinute input = some (evaluations : Rat)

theorem evaluations_seconds (input : DifficultyInput) (frequency evaluations : Nat)
    (hpos : 0 < frequency) (hinput : input.difficultyReevaluationFrequencyInSeconds = frequency)
    (hevaluations : 60 = frequency * evaluations) :
    difficultyEvaluationsPerMinute input = some (evaluations : Rat) := by
  have hle : frequency ≤ 60 := Nat.le_of_dvd (by omega) ⟨evaluations, hevaluations⟩
  have hle' : evaluations ≤ 60 := Nat.le_of_dvd (by omega) ⟨frequency, by
    rw [Nat.mul_comm]
    exact hevaluations⟩
  have hwhole : 60000 = evaluations * (frequency * 1000) := by
    calc 60000 = 60 * 1000 := by norm_num
      _ = frequency * evaluations * 1000 := by rw [← hevaluations]
      _ = evaluations * (frequency * 1000) := by ring
  have hms := product_natCast (c := frequency * 1000) (by omega) rfl
  have hquotient := quotient_natCast (b := frequency * 1000) (by omega) (by omega) hwhole
  push_cast at hms hquotient
  rw [difficultyEvaluationsPerMinute, hinput, hms, Option.bind_eq_bind, Option.bind_some]
  exact hquotient

theorem converts_options {input : DifficultyInput} {multiplier : Nat} (hmultiplier : 1 ≤ multiplier)
    (hinput : input.difficultyIncreaseMultiplier = multiplier) (hfrequency : DividesMinute input) :
    Converts input.options := by
  have hone : (1 : Rat) ≤ input.difficultyIncreaseMultiplier := by
    rw [hinput]
    exact_mod_cast hmultiplier
  obtain ⟨evaluations, hpos, hevaluations⟩ := hfrequency
  have hposcast : (1 : Rat) ≤ evaluations := by exact_mod_cast hpos
  constructor
  · intro count hcount scaled hscaled
    simp only [DifficultyInput.options, Option.mem_def, Option.bind_eq_bind,
      Option.bind_eq_some_iff, Option.some.injEq] at hscaled hcount
    obtain ⟨fraction, hfraction, multiplied, hmultiplied, b, hb, rfl⟩ := hscaled
    have hfrac : 1 ≤ fraction := by
      rw [quotient] at hfraction
      split at hfraction
      · cases hfraction
      · rename_i hdesired
        have hdesiredpos : (0 : Rat) < input.desiredSolveCountPerMinute := by
          have hnat : input.desiredSolveCountPerMinute ≠ 0 := by exact_mod_cast hdesired
          exact_mod_cast Nat.pos_of_ne_zero hnat
        refine one_le_round ?_ hfraction
        rw [le_div_iff₀ hdesiredpos, one_mul]
        exact_mod_cast le_of_lt hcount
    have hmult : 1 ≤ multiplied := by
      refine one_le_round ?_ hmultiplied
      calc (1 : Rat) = 1 * 1 := by norm_num
        _ ≤ fraction * input.difficultyIncreaseMultiplier :=
          mul_le_mul hfrac hone (by norm_num) (by linarith)
    exact million_le_floor hmult hb
  · intro whole hwhole
    simp only [wholeMultiplier, DifficultyInput.options, Option.mem_def, Option.bind_eq_bind,
      Option.map_eq_some_iff, Option.bind_eq_some_iff, Option.some.injEq] at hwhole
    obtain ⟨scaled, ⟨b, hb, rfl⟩, rfl⟩ := hwhole
    have hle := million_le_floor hone hb
    simp only [scaleFactor] at *
    exact Int.tdiv_nonneg (by omega) (by omega)
  · intro n hn
    simp only [DifficultyInput.options, hevaluations, Option.mem_def, Option.bind_eq_bind,
      Option.bind_some] at hn
    exact one_le_toBigInt hposcast hn
  · intro n hn
    simp only [DifficultyInput.options, hevaluations, Option.mem_def, Option.bind_eq_bind,
      Option.bind_some, Option.bind_eq_some_iff] at hn
    obtain ⟨b, hb, hn⟩ := hn
    have hten : (1 : Rat) ≤ 10 * evaluations := by linarith
    exact one_le_toBigInt (one_le_round hten hb) hn

/-- The multiplier is what it was before it was scaled. -/
theorem wholeMultiplier_options (input : DifficultyInput) (multiplier scaled : Nat)
    (hinput : input.difficultyIncreaseMultiplier = multiplier) (hsmall : scaled < 2 ^ 53)
    (hscaled : scaled = multiplier * 1000000) :
    wholeMultiplier input.options = some (multiplier : Int) := by
  have hproduct := product_million hsmall hscaled
  simp only [wholeMultiplier, DifficultyInput.options, hinput, hproduct, Option.bind_eq_bind,
    Option.bind_some, Option.map_some, Int.floor_natCast, scaleFactor, Option.some.injEq]
  rw [Int.tdiv_eq_ediv_of_nonneg (by omega)]
  omega

theorem scaledSolveRate_eq (input : DifficultyInput) (count : Nat) :
    input.options.scaledSolveRate count =
      (quotient count input.desiredSolveCountPerMinute).bind fun fraction =>
        (product fraction input.difficultyIncreaseMultiplier).bind fun multiplied =>
          (product multiplied 1000000).bind fun scaled => some ⌊scaled⌋ := rfl

theorem scaledSolveRate_options (input : DifficultyInput) (multiplier rate scaled : Nat)
    (hinput : input.difficultyIncreaseMultiplier = multiplier)
    (hdesired : 0 < input.desiredSolveCountPerMinute) (hrate : rate < 2 ^ 53)
    (hmultiplied : rate * multiplier < 2 ^ 53) (hsmall : scaled < 2 ^ 53)
    (hscaled : scaled = rate * multiplier * 1000000) :
    input.options.scaledSolveRate (rate * input.desiredSolveCountPerMinute) =
      some (scaled : Int) := by
  have hfraction := quotient_natCast hdesired hrate rfl
  have hproduct := product_natCast hmultiplied rfl
  have hmillions := product_million hsmall hscaled
  rw [scaledSolveRate_eq, hfraction, Option.bind_some, hinput, hproduct, Option.bind_some,
    hmillions, Option.bind_some, Int.floor_natCast]

theorem evaluations_options {input : DifficultyInput} {evaluations : Nat}
    (h : difficultyEvaluationsPerMinute input = some (evaluations : Rat)) :
    input.options.difficultyEvaluationsPerMinute = some (evaluations : Int) := by
  simp only [DifficultyInput.options, h, Option.bind_eq_bind, Option.bind_some, toBigInt_natCast]

theorem create_inRange (hinitial : 1 ≤ options.initialMaximumAllowedHashValue) (nonce : String) :
    InRange options (create options nonce) := by
  refine ⟨hinitial, le_refl _, ?_⟩
  intro n hn
  cases hn
  omega

/-- In every run of recorded proofs and refreshes that meets the condition, each refresh succeeds,
the maximum stays between one and its initial value, it does not grow above the desired rate and
does not shrink otherwise, and as many quiet refreshes as it is below its initial value bring it
back there. -/
theorem difficulty_stays_in_range (input : DifficultyInput)
    (hinitial : 1 ≤ input.initialMaximumAllowedHashValue) (multiplier : Nat)
    (hmultiplier : 1 ≤ multiplier) (hinput : input.difficultyIncreaseMultiplier = multiplier)
    (hfrequency : DividesMinute input) (nonce : String) (steps : List DifficultyStep)
    (hmeets : MeetsAll input.options (create input.options nonce) steps) :
    (∀ before after, steps = before ++ after →
      1 ≤ (difficultyRun input.options (create input.options nonce)
        before).currentMaximumAllowedHashValue ∧
      (difficultyRun input.options (create input.options nonce)
        before).currentMaximumAllowedHashValue ≤ input.initialMaximumAllowedHashValue) ∧
    (∀ before now after, steps = before ++ .refreshMaximumAllowedHashValue now :: after →
      ∃ refreshed, attemptRefresh input.options
          (difficultyRun input.options (create input.options nonce) before) now = some refreshed ∧
        (AboveRate input.options
            (difficultyRun input.options (create input.options nonce) before) now →
          refreshed.currentMaximumAllowedHashValue ≤
            (difficultyRun input.options (create input.options nonce)
              before).currentMaximumAllowedHashValue) ∧
        (¬AboveRate input.options
            (difficultyRun input.options (create input.options nonce) before) now →
          (difficultyRun input.options (create input.options nonce)
            before).currentMaximumAllowedHashValue ≤ refreshed.currentMaximumAllowedHashValue)) ∧
    (∀ before during after, steps = before ++ (during ++ after) →
      Quiet input.options (difficultyRun input.options (create input.options nonce) before)
        during →
      input.initialMaximumAllowedHashValue - (difficultyRun input.options
        (create input.options nonce) before).currentMaximumAllowedHashValue ≤ refreshes during →
      (difficultyRun input.options (create input.options nonce)
        (before ++ during)).currentMaximumAllowedHashValue =
          input.initialMaximumAllowedHashValue) := by
  have hc := converts_options hmultiplier hinput hfrequency
  have hstart : InRange input.options (create input.options nonce) := create_inRange hinitial nonce
  refine ⟨?range, ?refresh, ?back⟩
  case range =>
    intro before after heq
    rw [heq] at hmeets
    have hr := meets_run hc hstart (meetsAll_append hmeets).1
    exact ⟨hr.pos, hr.le_initial⟩
  case refresh =>
    intro before now after heq
    rw [heq] at hmeets
    obtain ⟨hbefore, hhere⟩ := meetsAll_append hmeets
    have hr := meets_run hc hstart hbefore
    by_cases habove : AboveRate input.options
        (difficultyRun input.options (create input.options nonce) before) now
    · obtain ⟨refreshed, hrefreshed, -, hle⟩ := attempt_above hc hr habove hhere.1
      exact ⟨refreshed, hrefreshed, fun _ => hle, fun hbelow => absurd habove hbelow⟩
    · obtain ⟨refreshed, hrefreshed, -, hle, -⟩ := attempt_below hc hr habove hhere.1
      exact ⟨refreshed, hrefreshed, fun h => absurd h habove, fun _ => hle⟩
  case back =>
    intro before during after heq hquiet hcount
    rw [heq] at hmeets
    obtain ⟨hbefore, hrest⟩ := meetsAll_append hmeets
    have hduring := (meetsAll_append hrest).1
    have hr := meets_run hc hstart hbefore
    have hend := (meets_run hc hr hduring).le_initial
    have happend : difficultyRun input.options (create input.options nonce) (before ++ during) =
        difficultyRun input.options
          (difficultyRun input.options (create input.options nonce) before) during := by
      simp only [difficultyRun, List.foldl_append]
    rw [happend]
    cases quiet_run hc hr hduring hquiet with
    | inl hinit => exact hinit
    | inr hgrown =>
      have hsame : input.options.initialMaximumAllowedHashValue =
          input.initialMaximumAllowedHashValue := rfl
      omega

/-- Two proofs are recorded in a minute that should see one. -/
def twoSolves (options : ProofOfWorkOptions) (nonce : String) : ProofOfWorkManager :=
  difficultyRun options (create options nonce)
    [.recordProofOfWork "first" 0, .recordProofOfWork "second" 0]

theorem twoSolves_count (options : ProofOfWorkOptions) (nonce : String) :
    ((twoSolves options nonce).removeProofOfWorkOlderThanOneMinute 1).currentSolveCountPerMinute =
      2 := rfl

theorem twoSolves_above {options : ProofOfWorkOptions} {nonce : String}
    (hdesired : options.desiredSolveCountPerMinute = 1) :
    AboveRate options (twoSolves options nonce) 1 := by
  rw [AboveRate, twoSolves_count, hdesired]
  omega

/-- With a multiplier of seven and six evaluations a minute, the maximum falls from 100 to -8. -/
theorem refresh_leaves_range :
    ¬∀ (input : DifficultyInput) (multiplier : Nat) (nonce : String) (steps : List DifficultyStep),
      1 ≤ input.initialMaximumAllowedHashValue → 1 ≤ multiplier →
      input.difficultyIncreaseMultiplier = multiplier → DividesMinute input →
      1 ≤ (difficultyRun input.options (create input.options nonce)
        steps).currentMaximumAllowedHashValue := by
  intro h
  have hevaluations : difficultyEvaluationsPerMinute ⟨1, 100, 7, 10⟩ = some ((6 : Nat) : Rat) :=
    evaluations_seconds _ 10 6 (by omega) (by norm_num) (by omega)
  have hpos := h ⟨1, 100, 7, 10⟩ 7 "nonce"
    [.recordProofOfWork "first" 0, .recordProofOfWork "second" 0, .refreshMaximumAllowedHashValue 1]
    (by decide) (by omega) (by norm_num) ⟨6, by omega, hevaluations⟩
  have hrate : (DifficultyInput.options ⟨1, 100, 7, 10⟩).scaledSolveRate 2 = some 14000000 :=
    scaledSolveRate_options ⟨1, 100, 7, 10⟩ 7 2 14000000 (by norm_num)
      (by norm_num) (by norm_num) (by norm_num) (by norm_num) (by norm_num)
  have heval : (DifficultyInput.options ⟨1, 100, 7, 10⟩).difficultyEvaluationsPerMinute = some 6 :=
    evaluations_options hevaluations
  have hwhole : wholeMultiplier (DifficultyInput.options ⟨1, 100, 7, 10⟩) = some 7 :=
    wholeMultiplier_options _ 7 7000000 (by norm_num) (by norm_num) (by norm_num)
  obtain ⟨scaled, hscaled, hseven⟩ := Option.map_eq_some_iff.mp hwhole
  have hafter : difficultyRun (DifficultyInput.options ⟨1, 100, 7, 10⟩)
      (create (DifficultyInput.options ⟨1, 100, 7, 10⟩) "nonce")
      [.recordProofOfWork "first" 0, .recordProofOfWork "second" 0,
        .refreshMaximumAllowedHashValue 1] =
      (twoSolves (DifficultyInput.options ⟨1, 100, 7, 10⟩) "nonce").refreshMaximumAllowedHashValue
        (DifficultyInput.options ⟨1, 100, 7, 10⟩) 1 := rfl
  have hcurrent : ((twoSolves (DifficultyInput.options ⟨1, 100, 7, 10⟩)
      "nonce").removeProofOfWorkOlderThanOneMinute 1).currentMaximumAllowedHashValue = 100 := rfl
  rw [hafter, refresh_eq, attemptRefresh, if_pos (twoSolves_above rfl), twoSolves_count] at hpos
  simp only [scaleFactor] at hseven
  simp only [hashValueDecreaseAmount, hrate, hscaled, heval, hcurrent, Option.bind_eq_bind,
    Option.bind_some, divide, scaleFactor, hseven] at hpos
  exact absurd hpos (by decide)

/-- A default multiplier on the same two proofs. -/
theorem difficulty_stays_in_range_default :
    1 ≤ (difficultyRun (DifficultyInput.options ⟨1, 1000, 1, 10⟩)
      (create (DifficultyInput.options ⟨1, 1000, 1, 10⟩) "nonce")
      [.recordProofOfWork "first" 0, .recordProofOfWork "second" 0,
        .refreshMaximumAllowedHashValue 1]).currentMaximumAllowedHashValue := by
  have hevaluations : difficultyEvaluationsPerMinute ⟨1, 1000, 1, 10⟩ = some ((6 : Nat) : Rat) :=
    evaluations_seconds _ 10 6 (by omega) (by norm_num) (by omega)
  have hrate : (DifficultyInput.options ⟨1, 1000, 1, 10⟩).scaledSolveRate 2 = some 2000000 :=
    scaledSolveRate_options ⟨1, 1000, 1, 10⟩ 1 2 2000000 (by norm_num)
      (by norm_num) (by norm_num) (by norm_num) (by norm_num) (by norm_num)
  have hmeets : Meets (DifficultyInput.options ⟨1, 1000, 1, 10⟩)
      (twoSolves (DifficultyInput.options ⟨1, 1000, 1, 10⟩) "nonce")
      (.refreshMaximumAllowedHashValue 1) := by
    rw [Meets, if_pos (twoSolves_above rfl), twoSolves_count]
    exact ⟨2000000, hrate, 1, wholeMultiplier_options _ 1 1000000 (by norm_num) (by norm_num)
        (by norm_num),
      6, evaluations_options hevaluations, .inl (by omega)⟩
  exact ((difficulty_stays_in_range ⟨1, 1000, 1, 10⟩ (by decide) 1 (by omega) (by norm_num)
    ⟨6, by omega, hevaluations⟩ "nonce"
    [.recordProofOfWork "first" 0, .recordProofOfWork "second" 0, .refreshMaximumAllowedHashValue 1]
    ⟨trivial, trivial, hmeets, trivial⟩).1 _ [] (List.append_nil _).symm).1

end ProofOfWorkManager
end EnboxDwn
