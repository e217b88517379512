import EnboxDwn.DrainCoordinator

/-! What a completed drain has proved. Readings of the signal and the topology are never taken back,
so when the last one finds nothing changed, none of them did, and the trace of the drain is known
up to the answers. -/
namespace EnboxDwn.Agent.SyncDrainCoordinator
open Interaction

/-! ## What a drain that stops nowhere has asked -/

def unstopped (turn generation : Nat) : List DrainEvent :=
  [⟨turn, .aborted, .ok false⟩, ⟨turn, .getTopologyGeneration, .ok generation⟩]

/-- The part of a drain in which a target is found converged: two looks at the feeds find the same
fingerprints, or the divergence is explained by omissions of which none is blocked any more. -/
inductive Proved (turn g : Nat) (target : SyncTarget) : List DrainEvent → Prop
  | stable {result stability : SyncDurableFeedReconcileResult} {link : ReplicationLinkState}
      {blocks : List String} (aborted : result.aborted = false) (pushed : result.pushFailures = [])
      (running : link.status ≠ .paused) (converged : result.converged = some true)
      (again : stability.converged = some true) (aborted' : stability.aborted = false)
      (same : stability.localFingerprint = result.localFingerprint ∧
        stability.remoteFingerprint = result.remoteFingerprint) :
      Proved turn g target (unstopped turn g ++
        [⟨turn, .reconcileTarget target true true, .ok result⟩, ⟨turn, .getLink target, .ok link⟩] ++
        unstopped turn g ++ [⟨turn, .verifyConvergence target, .ok stability⟩] ++
        unstopped turn g ++ [⟨turn, .clear target, .ok ()⟩] ++
        unstopped turn g ++ [⟨turn, .getActiveBlocksForTarget target, .ok blocks⟩])
  | explained {result : SyncDurableFeedReconcileResult} {link : ReplicationLinkState}
      (aborted : result.aborted = false) (pushed : result.pushFailures = [])
      (running : link.status ≠ .paused) (diverged : result.converged = some false) :
      Proved turn g target (unstopped turn g ++
        [⟨turn, .reconcileTarget target true true, .ok result⟩, ⟨turn, .getLink target, .ok link⟩] ++
        unstopped turn g ++ [⟨turn, .handleVerifiedDivergence target result, .ok true⟩] ++
        unstopped turn g ++ [⟨turn, .getActiveBlocksForTarget target, .ok []⟩])

section Readings
variable {s : Surroundings} {g : Nat} {w w' : DrainWorld}

def Halted (s : Surroundings) (g : Nat) (trace : List DrainEvent) : Prop :=
  s.aborted trace = true ∨ g < s.generation trace

theorem Halted.mono {t t' : List DrainEvent} (h : Halted s g t) (hgrow : t <+: t') : Halted s g t' :=
  h.imp (s.aborted_mono hgrow) fun hg => hg.trans_le (s.generation_mono hgrow)

theorem wp_getStopReason {Q : Option SyncDrainStopReason → DrainWorld → Prop}
    {E : DrainWorld → Prop} (hg : g ≤ s.generation w.trace)
    (hsome : ∀ reason w', w.Extends w' → Halted s g w'.trace → Q (some reason) w')
    (hnone : ¬ Halted s g w.trace →
      Q none { w with trace := w.trace ++ unstopped w.turn g }) :
    wp (getStopReason s g) w Q E := by
  unfold getStopReason
  refine wp_bind (wp_ask (fun aborted haborted => ?_) fun e he => ?_)
  · cases haborted
    have hlog := w.extends_log .aborted (.ok (s.aborted w.trace))
    split
    · next habort =>
      exact wp_pure (hsome _ _ hlog (Or.inl (s.aborted_mono hlog.trace habort)))
    · next habort =>
      have habort := Bool.eq_false_of_not_eq_true habort
      refine wp_bind (wp_ask (fun generation hgeneration => ?_) fun e he => ?_)
      · cases hgeneration
        generalize hw₁ : w.log .aborted (.ok (s.aborted w.trace)) = w₁ at hlog ⊢
        have hlog' := w₁.extends_log .getTopologyGeneration (.ok (s.generation w₁.trace))
        have hle := hg.trans (s.generation_mono hlog.trace)
        split
        · next hne =>
          refine wp_pure (hsome _ _ (hlog.trans hlog') (Or.inr ?_))
          exact (Nat.lt_of_le_of_ne hle (Ne.symm hne)).trans_le (s.generation_mono hlog'.trace)
        · next heq =>
          have heq : s.generation w₁.trace = g := not_not.mp heq
          rw [heq]
          refine wp_pure ?_
          have hcalm : ¬ Halted s g w.trace := by
            rintro (h | h)
            · exact Bool.false_ne_true (habort ▸ h)
            · have := s.generation_mono hlog.trace
              omega
          have hnone := hnone hcalm
          subst hw₁
          rw [habort]
          simpa only [Interaction.World.log, unstopped, List.append_assoc, List.cons_append,
            List.nil_append] using hnone
      · cases he
  · cases he

theorem extends_log (w : DrainWorld) (op : Operation) (answer : Except String op.Answer) :
    w.Extends (w.log op answer) :=
  w.extends_log op answer

/-- The world after more was asked in the turn. -/
def grown (w : DrainWorld) (events : List DrainEvent) : DrainWorld :=
  { w with trace := w.trace ++ events }

@[simp] theorem turn_grown (w : DrainWorld) (events : List DrainEvent) :
    (grown w events).turn = w.turn := rfl

theorem extends_grown (w : DrainWorld) (events : List DrainEvent) : w.Extends (grown w events) :=
  ⟨rfl, rfl, List.prefix_append _ _⟩

theorem grown_grown (w : DrainWorld) (events events' : List DrainEvent) :
    grown (grown w events) events' = grown w (events ++ events') := by
  simp [grown]

theorem log_eq_grown (w : DrainWorld) (op : Operation) (answer : Except String op.Answer) :
    w.log op answer = grown w [⟨w.turn, op, answer⟩] := rfl

theorem wp_verifyStability {target : SyncTarget} {result : SyncDurableFeedReconcileResult}
    {link : ReplicationLinkState} {failures : List PushFailure} (hg : g ≤ s.generation w.trace) :
    wp (verifyStability s g target result link failures) w (fun out w' => w.Extends w' ∧
      (Halted s g w'.trace ∨
        (out = (false, result) ∧ w' = w ∧
          (link.status = .paused ∨ result.converged ≠ some true ∨ failures ≠ [])) ∨
        ∃ stability, result.converged = some true ∧
          out = (feedHeadChanged result stability, restated result stability) ∧
          w' = grown w (unstopped w.turn g ++
            [⟨w.turn, .verifyConvergence target, .ok stability⟩]))) w.Extends := by
  unfold verifyStability
  split
  · next hskip => exact wp_pure ⟨.refl w, Or.inr (Or.inl ⟨rfl, rfl, hskip⟩)⟩
  · next hlook =>
    simp only [not_or, not_not] at hlook
    refine wp_bind (wp_getStopReason hg (fun reason w' hext hhalted => ?_) fun _ => ?_)
    · exact wp_pure ⟨hext, Or.inl hhalted⟩
    · refine wp_bind (wp_ask (fun stability _ => ?_) fun _ _ => ?_)
      · rw [log_eq_grown]
        refine wp_pure ⟨?_, Or.inr (Or.inr ⟨stability, hlook.2.1, rfl, ?_⟩)⟩
        · exact (extends_grown w _).trans (extends_grown _ _)
        · exact grown_grown w _ _
      · exact (extends_grown w _).trans (extends_log _ _ _)

theorem wp_resolveDivergence {target : SyncTarget} {result : SyncDurableFeedReconcileResult}
    {changed : Bool} (hg : g ≤ s.generation w.trace) :
    wp (resolveDivergence s g target result changed) w (fun explained w' => w.Extends w' ∧
      (Halted s g w'.trace ∨
        (result.converged = some false ∧ w' = grown w (unstopped w.turn g ++
          [⟨w.turn, .handleVerifiedDivergence target result, .ok explained⟩])) ∨
        explained = false ∧ (result.converged = some true → w' = grown w (unstopped w.turn g ++
          [⟨w.turn, .clear target, .ok ()⟩])))) w.Extends := by
  unfold resolveDivergence
  refine wp_bind (wp_getStopReason hg (fun reason w' hext hhalted => ?_) fun _ => ?_)
  · exact wp_pure ⟨hext, Or.inl hhalted⟩
  · have hext := extends_grown w (unstopped w.turn g)
    dsimp only [Option.isSome]
    split
    · next h => cases h
    split
    · next hdiverged =>
      refine wp_ask (fun explained _ => ?_) fun _ _ => hext.trans (extends_log _ _ _)
      refine ⟨hext.trans (extends_log _ _ _), Or.inr (Or.inl ⟨hdiverged.1, ?_⟩)⟩
      exact grown_grown w _ _
    · split
      · next hconverged =>
        refine wp_bind (wp_ask (fun _ _ => ?_) fun _ _ => hext.trans (extends_log _ _ _))
        refine wp_pure ⟨hext.trans (extends_log _ _ _), Or.inr (Or.inr ⟨rfl, fun _ => ?_⟩)⟩
        exact grown_grown w _ _
      · next hopen =>
        exact wp_pure ⟨hext, Or.inr (Or.inr ⟨rfl, fun h => absurd h hopen⟩)⟩

/-! ## One target -/

theorem targetError_eq_none {result : SyncDurableFeedReconcileResult} {failures : List PushFailure}
    {paused changed : Bool} {stop : Option SyncDrainStopReason}
    (h : targetError result failures paused changed stop = none) :
    stop = none ∧ paused = false ∧ changed = false ∧ result.aborted = false ∧ failures = [] ∧
      result.converged = some true := by
  cases stop with
  | some reason => cases h
  | none =>
    unfold targetError at h
    grind

/-- A target that is reported converged was completed, or was not for messages that were not pushed
or because its reconciliation was aborted. -/
def Reported (t : SyncDrainTargetResult) : Prop :=
  t.converged = true → t.completed = true ∨ t.cancelled = false ∧
    (t.error = some drainAborted ∨ ∃ failures, failures ≠ [] ∧ t.error = some (pushFailed failures))

theorem targetError_of_converged {result : SyncDurableFeedReconcileResult} {paused changed : Bool}
    {stop : Option SyncDrainStopReason} (h : targetConverged result paused changed stop = true)
    (failures : List PushFailure) :
    stop = none ∧ (targetError result failures paused changed stop = none ∨
      targetError result failures paused changed stop = some drainAborted ∨
      failures ≠ [] ∧ targetError result failures paused changed stop = some (pushFailed failures)) := by
  simp only [targetConverged, Bool.and_eq_true, beq_iff_eq, Bool.not_eq_true',
    Option.isNone_iff_eq_none] at h
  obtain ⟨⟨⟨hconverged, rfl⟩, rfl⟩, rfl⟩ := h
  refine ⟨rfl, ?_⟩
  by_cases haborted : result.aborted = true
  · exact Or.inr (Or.inl (by simp [targetError, haborted]))
  · by_cases hfailures : failures = []
    · exact Or.inl (by simp [targetError, haborted, hfailures, hconverged])
    · exact Or.inr (Or.inr ⟨hfailures, by simp [targetError, haborted, hfailures]⟩)

/-- A drain of the target went through, or something stops the drain. -/
def Settles (s : Surroundings) (g : Nat) (target : SyncTarget) (w w' : DrainWorld)
    (events : List DrainEvent) (t : SyncDrainTargetResult) : Prop :=
  w.Extends w' ∧ Reported t ∧ (t.completed = true → Halted s g w'.trace ∨
    ∃ rest, w' = grown w rest ∧ Proved w.turn g target (events ++ rest))

theorem wp_concludeTarget {target : SyncTarget} {result : SyncDurableFeedReconcileResult}
    {link : ReplicationLinkState} (hg : g ≤ s.generation w.trace) :
    wp (concludeTarget s g target result link) w
      (fun t w' => Settles s g target w w' (unstopped w.turn g ++
        [⟨w.turn, .reconcileTarget target true true, .ok result⟩,
          ⟨w.turn, .getLink target, .ok link⟩]) t ∧
        (t.completed = true → result.pushFailures = [])) w.Extends := by
  unfold concludeTarget
  refine wp_bind (wp_mono (wp_verifyStability hg) (fun out w₁ h => ?_) fun _ h => h)
  obtain ⟨changed, seen⟩ := out
  obtain ⟨hext₁, hverified⟩ := h
  have hg₁ := hg.trans (s.generation_mono hext₁.trace)
  refine wp_bind (wp_mono (wp_resolveDivergence hg₁) (fun explained w₂ h => ?_) fun _ h =>
    hext₁.trans h)
  obtain ⟨hext₂, hresolved⟩ := h
  have hg₂ := hg₁.trans (s.generation_mono hext₂.trace)
  have hext := hext₁.trans hext₂
  refine wp_bind (wp_getStopReason hg₂ (fun reason w₃ hext₃ hhalted => ?_) fun hcalm => ?_)
  · have hext := hext.trans hext₃
    refine wp_bind (wp_ask (fun blocks _ => ?_) fun _ _ => hext.trans (extends_log _ _ _))
    refine wp_pure ⟨⟨hext.trans (extends_log _ _ _), fun h => ?_, fun h => ?_⟩, fun h => ?_⟩
    · cases (targetError_of_converged h []).1
    · cases h
    · cases h
  rw [← grown] at *
  have hext := hext.trans (extends_grown w₂ (unstopped w₂.turn g))
  refine wp_bind (wp_ask (fun blocks _ => ?_) fun _ _ => hext.trans (extends_log _ _ _))
  refine wp_pure ⟨⟨hext.trans (extends_log _ _ _), fun h => ?_, fun h => Or.inr ?_⟩,
    fun h => (targetError_eq_none (Option.isNone_iff_eq_none.mp h)).2.2.2.2.1⟩
  · obtain ⟨-, hnone | herror | ⟨hfailures, herror⟩⟩ :=
      targetError_of_converged h result.pushFailures
    · exact Or.inl (Option.isNone_iff_eq_none.mpr hnone)
    · exact Or.inr ⟨rfl, Or.inl herror⟩
    · exact Or.inr ⟨rfl, Or.inr ⟨_, hfailures, herror⟩⟩
  · obtain ⟨-, hrunning, hsame, haborted, hpushed, hconverged⟩ :=
      targetError_eq_none (Option.isNone_iff_eq_none.mp h)
    have hrunning := of_decide_eq_false hrunning
    dsimp only at haborted hconverged
    have hcalm₁ : ¬ Halted s g w₁.trace := fun h => hcalm (h.mono hext₂.trace)
    obtain h | ⟨hout, rfl, hskip⟩ | ⟨stability, hfirst, hout, rfl⟩ := hverified
    · exact absurd h hcalm₁
    · cases hout
      obtain h | ⟨hdiverged, rfl⟩ | ⟨rfl, -⟩ := hresolved
      · exact absurd h hcalm
      · rw [hdiverged] at hconverged
        obtain ⟨rfl, rfl⟩ : explained = true ∧ blocks = [] := by
          by_contra hnot
          simp [hnot] at hconverged
        simp only [log_eq_grown, grown_grown, turn_grown]
        refine ⟨_, rfl, ?_⟩
        simpa only [List.append_assoc] using Proved.explained haborted hpushed hrunning hdiverged
      · simp [hrunning, hpushed] at hskip hconverged
        exact absurd hconverged hskip
    · cases hout
      obtain h | ⟨hdiverged, -⟩ | ⟨rfl, hclear⟩ := hresolved
      · exact absurd h hcalm
      · simp [restated, hsame] at hdiverged
      · rw [hclear (by simp [restated, hsame])]
        simp only [feedHeadChanged, decide_eq_false_iff_not, not_or, not_not] at hsame
        obtain ⟨hagain, hlocal, hremote⟩ := hsame
        simp only [restated, Bool.or_eq_false_iff] at haborted
        simp only [log_eq_grown, grown_grown, turn_grown]
        refine ⟨_, rfl, ?_⟩
        simpa only [List.append_assoc] using
          Proved.stable haborted.1 hpushed hrunning hfirst hagain haborted.2 ⟨hlocal, hremote⟩

theorem wp_performTargetDrain {target : SyncTarget} (hg : g ≤ s.generation w.trace) :
    wp (performTargetDrain s g target) w
      (fun t w' => Settles s g target w w' (unstopped w.turn g) t) w.Extends := by
  unfold performTargetDrain
  refine wp_bind (wp_ask (fun result _ => ?_) fun _ _ => w.extends_log _ _)
  rw [log_eq_grown]
  have hext := extends_grown w [⟨w.turn, .reconcileTarget target true true, .ok result⟩]
  split
  · next hfailures =>
    refine wp_bind (wp_ask (fun _ _ => ?_) fun _ _ => hext.trans (extends_log _ _ _))
    have hext := hext.trans (extends_log _ (.recordPushFailures target result.pushFailures) (.ok ()))
    refine wp_bind (wp_ask (fun link _ => ?_) fun _ _ => hext.trans (extends_log _ _ _))
    have hext := hext.trans (extends_log _ (.getLink target) (.ok link))
    refine wp_mono (wp_concludeTarget (hg.trans (s.generation_mono hext.trace)))
      (fun t w' h => ?_) fun _ h => hext.trans h
    obtain ⟨⟨hext', hreported, -⟩, hpushed⟩ := h
    exact ⟨hext.trans hext', hreported, fun h => absurd (hpushed h) hfailures⟩
  · refine wp_bind (wp_ask (fun link _ => ?_) fun _ _ => hext.trans (extends_log _ _ _))
    have hext := hext.trans (extends_log _ (.getLink target) (.ok link))
    refine wp_mono (wp_concludeTarget (hg.trans (s.generation_mono hext.trace)))
      (fun t w' h => ?_) fun _ h => hext.trans h
    obtain ⟨⟨hext', hreported, hsettled⟩, -⟩ := h
    refine ⟨hext.trans hext', hreported, fun h => (hsettled h).imp_right ?_⟩
    rintro ⟨rest, rfl, hproved⟩
    rw [log_eq_grown, grown_grown, grown_grown]
    refine ⟨_, rfl, ?_⟩
    simpa only [log_eq_grown, turn_grown, List.append_assoc, List.cons_append,
      List.nil_append] using hproved

theorem settles_open {target : SyncTarget} {events : List DrainEvent} {t : SyncDrainTargetResult}
    (hext : w.Extends w') (hconverged : t.converged = false) (hcompleted : t.completed = false) :
    Settles s g target w w' events t := by
  refine ⟨hext, fun h => ?_, fun h => ?_⟩
  · rw [hconverged] at h
    cases h
  · rw [hcompleted] at h
    cases h

/-- The drain of one target: nothing is thrown. -/
theorem wp_drainTarget {target : SyncTarget} {E : DrainWorld → Prop}
    (hg : g ≤ s.generation w.trace) :
    wp (drainTarget s g target) w (fun t w' => Settles s g target w w' [] t) E := by
  unfold drainTarget
  refine wp_bind (wp_getStopReason hg (fun reason w₁ hext _ => ?_) fun _ => ?_)
  · exact wp_pure (settles_open hext rfl rfl)
  have hext := extends_grown w (unstopped w.turn g)
  have hg₁ := hg.trans (s.generation_mono hext.trace)
  refine wp_tryCatch (wp_mono (wp_performTargetDrain hg₁) (fun t w' h => ?_) fun _ h => h)
    fun error w₁ hext₁ => ?_
  · obtain ⟨hext', hreported, hsettled⟩ := h
    refine ⟨hext.trans hext', hreported, fun h => (hsettled h).imp_right ?_⟩
    rintro ⟨rest, rfl, hproved⟩
    exact ⟨_, grown_grown w _ _, hproved⟩
  · have hext := hext.trans hext₁
    refine wp_bind (wp_getStopReason (hg.trans (s.generation_mono hext.trace))
      (fun reason w₂ hext₂ _ => ?_) fun _ => ?_)
    · exact wp_pure (settles_open (hext.trans hext₂) rfl rfl)
    · exact wp_pure (settles_open (hext.trans (extends_grown _ _)) rfl rfl)

/-! ## All targets -/

theorem wp_drainTargets (targets : List SyncTarget) {E : DrainWorld → Prop}
    (hg : g ≤ s.generation w.trace) :
    wp (drainTargets s g targets) w (fun ts w' => w.Extends w' ∧ ts.length = targets.length ∧
      (∀ t ∈ ts, Reported t) ∧ ((∀ t ∈ ts, t.completed = true) → Halted s g w'.trace ∨
        ∃ segments, List.Forall₂ (Proved w.turn g) targets segments ∧
          w' = grown w segments.flatten)) E := by
  induction targets generalizing w with
  | nil => exact wp_pure ⟨.refl w, rfl, by simp, fun _ => Or.inr ⟨[], .nil, by simp [grown]⟩⟩
  | cons target targets ih =>
    refine wp_bind (wp_mono (wp_drainTarget hg) (fun t w₁ h => ?_) fun _ h => h)
    obtain ⟨hext₁, hreported, hsettled⟩ := h
    have hg₁ := hg.trans (s.generation_mono hext₁.trace)
    refine wp_bind (wp_mono (ih hg₁) (fun ts w₂ h => ?_) fun _ h => h)
    obtain ⟨hext₂, hlength, hreports, hrest⟩ := h
    refine wp_pure ⟨hext₁.trans hext₂, congrArg (· + 1) hlength,
      List.forall_mem_cons.mpr ⟨hreported, hreports⟩, fun h => ?_⟩
    obtain ⟨hcompleted, hall⟩ := List.forall_mem_cons.mp h
    obtain hhalted | ⟨segment, rfl, hproved⟩ := hsettled hcompleted
    · exact Or.inl (hhalted.mono hext₂.trace)
    refine (hrest hall).imp_right ?_
    rintro ⟨segments, hsegments, rfl⟩
    exact ⟨segment :: segments, .cons hproved hsegments, grown_grown w _ _⟩

def preparing (turn g : Nat) (target : SyncTarget) : List DrainEvent :=
  unstopped turn g ++ [⟨turn, .prepareLiveTarget target, .ok ()⟩]

theorem wp_prepareLiveTargets (targets : List SyncTarget) (hg : g ≤ s.generation w.trace) :
    wp (prepareLiveTargets s g targets) w (fun _ w' => w.Extends w' ∧
      (Halted s g w'.trace ∨ w' = grown w (targets.flatMap (preparing w.turn g))))
      fun _ => True := by
  induction targets generalizing w with
  | nil => exact wp_pure ⟨.refl w, Or.inr (by simp [grown])⟩
  | cons target targets ih =>
    unfold prepareLiveTargets
    refine wp_bind (wp_getStopReason hg (fun reason w₁ hext hhalted => ?_) fun _ => ?_)
    · exact wp_pure ⟨hext, Or.inl hhalted⟩
    rw [← grown]
    refine wp_bind (wp_ask (fun _ _ => ?_) fun _ _ => trivial)
    rw [log_eq_grown, grown_grown, turn_grown]
    have hext := extends_grown w (preparing w.turn g target)
    refine wp_mono (ih (hg.trans (s.generation_mono hext.trace))) (fun _ w₂ h => ?_) fun _ h => h
    obtain ⟨hext₂, hprepared⟩ := h
    refine ⟨hext.trans hext₂, hprepared.imp_right fun h => ?_⟩
    rw [h]
    exact grown_grown w _ _

/-! ## The plan -/

structure PlannedIdentity where
  did : String
  options : SyncIdentityOptions
  targets : List SyncTarget

def PlannedIdentity.entry (i : PlannedIdentity) : SyncIdentityStoreEntry := .valid i.did i.options

def PlannedIdentity.built (turn : Nat) (remoteEndpoint : String) (i : PlannedIdentity) : DrainEvent :=
  ⟨turn, .buildTargetsForEndpoint i.did remoteEndpoint i.options, .ok i.targets⟩

/-- What is reported of a registration without targets. -/
def Unplanned (t : SyncDrainTargetResult) : Prop := t.completed = false ∧ t.converged = false

/-- Every registration that was read is valid and its targets were built, unless one failed. -/
def Plans (remoteEndpoint : String) (entries : List SyncIdentityStoreEntry)
    (plan : SyncDrainPlan) (w : DrainWorld) (plan' : SyncDrainPlan) (w' : DrainWorld) : Prop :=
  w.Extends w' ∧ (∀ t ∈ plan'.failures, t ∈ plan.failures ∨ Unplanned t) ∧
    (plan'.failures = [] → plan.failures = [] ∧ ∃ identities : List PlannedIdentity,
      entries = identities.map PlannedIdentity.entry ∧
      plan'.targets = plan.targets ++ identities.flatMap PlannedIdentity.targets ∧
      w' = grown w (identities.map (PlannedIdentity.built w.turn remoteEndpoint)))

theorem plans_failed {remoteEndpoint : String} {entry : SyncIdentityStoreEntry}
    {entries : List SyncIdentityStoreEntry} {plan plan' : SyncDrainPlan} {w₁ : DrainWorld}
    {t : SyncDrainTargetResult} (hext : w.Extends w₁) (ht : Unplanned t)
    (h : Plans remoteEndpoint entries { plan with failures := plan.failures ++ [t] } w₁ plan' w') :
    Plans remoteEndpoint (entry :: entries) plan w plan' w' := by
  obtain ⟨hext', hopen, hplanned⟩ := h
  refine ⟨hext.trans hext', fun t' ht' => ?_, fun h => ?_⟩
  · obtain hmem | hmem := hopen t' ht'
    · obtain hmem | hmem := List.mem_append.mp hmem
      · exact Or.inl hmem
      · rw [List.mem_singleton.mp hmem]
        exact Or.inr ht
    · exact Or.inr hmem
  · simpa using (hplanned h).1

theorem wp_planEntries {remoteEndpoint : String} (entries : List SyncIdentityStoreEntry)
    {plan : SyncDrainPlan} {E : DrainWorld → Prop} :
    wp (planEntries s remoteEndpoint entries plan) w (Plans remoteEndpoint entries plan w) E := by
  induction entries generalizing w plan with
  | nil =>
    exact wp_pure ⟨.refl w, fun t ht => Or.inl ht, fun h => ⟨h, [], rfl, by simp, by simp [grown]⟩⟩
  | cons entry entries ih =>
    unfold planEntries planEntry
    cases entry with
    | corrupt did error =>
      refine wp_bind (wp_pure (wp_mono ih (fun plan' w' h => ?_) fun _ h => h))
      exact plans_failed (.refl w) ⟨rfl, rfl⟩ h
    | valid did options =>
      refine wp_bind (wp_tryCatch
        (wp_bind (E := w.Extends) (wp_ask (fun targets _ => ?_) fun _ _ => w.extends_log _ _))
        fun error w₁ hext => ?_)
      · refine wp_pure (wp_mono ih (fun plan' w' h => ?_) fun _ h => h)
        rw [log_eq_grown] at h
        obtain ⟨hext', hopen, hplanned⟩ := h
        refine ⟨(extends_grown w _).trans hext', hopen, fun h => ?_⟩
        obtain ⟨hnone, identities, rfl, htargets, rfl⟩ := hplanned h
        refine ⟨hnone, ⟨did, options, targets⟩ :: identities, rfl, ?_, grown_grown w _ _⟩
        rw [htargets]
        simp
      · refine wp_pure (wp_mono ih (fun plan' w' h => ?_) fun _ h => h)
        exact plans_failed hext ⟨rfl, rfl⟩ h

theorem wp_buildPlan {remoteEndpoint : String} :
    wp (buildPlan s remoteEndpoint) w (fun plan w' => w.Extends w' ∧
      (∀ t ∈ plan.failures, Unplanned t) ∧
      (plan.failures = [] → ∃ identities : List PlannedIdentity,
        plan.targets = identities.flatMap PlannedIdentity.targets ∧
        w' = grown w (⟨w.turn, .entries, .ok ⟨identities.map PlannedIdentity.entry, none⟩⟩ ::
          identities.map (PlannedIdentity.built w.turn remoteEndpoint)))) fun _ => True := by
  unfold buildPlan
  refine wp_bind (wp_ask (fun enumeration _ => ?_) fun _ _ => trivial)
  obtain ⟨entries, failure⟩ := enumeration
  rw [log_eq_grown]
  refine wp_bind (wp_mono (wp_planEntries entries) (fun plan w' h => ?_) fun _ h => h)
  obtain ⟨hext, hopen, hplanned⟩ := h
  cases failure with
  | some error => exact wp_throw trivial
  | none =>
    refine wp_pure ⟨(extends_grown w _).trans hext, fun t ht => (hopen t ht).resolve_left nofun,
      fun h => ?_⟩
    obtain ⟨-, identities, rfl, htargets, rfl⟩ := hplanned h
    exact ⟨identities, htargets, grown_grown w _ _⟩

/-! ## The drain -/

/-- The whole drain when it hands the endpoint over: the generation read at first is read again in
the end, and every target of the plan is proved. -/
def HandedOver (remoteEndpoint : String) (trace : List DrainEvent) : Prop :=
  ∃ (generation : Nat) (identities : List PlannedIdentity) (segments : List (List DrainEvent)),
    identities.flatMap PlannedIdentity.targets ≠ [] ∧
    List.Forall₂ (Proved 0 generation) (identities.flatMap PlannedIdentity.targets) segments ∧
    trace = [⟨0, .registerEndpoint remoteEndpoint, .ok ()⟩,
        ⟨0, .getTopologyGeneration, .ok generation⟩,
        ⟨0, .entries, .ok ⟨identities.map PlannedIdentity.entry, none⟩⟩] ++
      identities.map (PlannedIdentity.built 0 remoteEndpoint) ++
      (identities.flatMap PlannedIdentity.targets).flatMap (preparing 0 generation) ++
      segments.flatten ++ unstopped 0 generation ++ [⟨0, .recordSuccess, .ok ()⟩]

def untouched : DrainWorld := ⟨0, (), []⟩

theorem wp_drain (s : Surroundings) (remoteEndpoint : String) :
    wp (drain s remoteEndpoint) untouched (fun result w' =>
      (result.completed = true → HandedOver remoteEndpoint w'.trace) ∧
      ∀ t ∈ result.targets, Reported t) fun _ => True := by
  unfold drain
  refine wp_bind (wp_ask (fun _ _ => ?_) fun _ _ => trivial)
  refine wp_bind (wp_ask (fun generation hgeneration => ?_) fun _ _ => trivial)
  have hgen : generation ≤ s.generation
      (grown untouched [⟨0, .registerEndpoint remoteEndpoint, .ok ()⟩]).trace := by
    cases hgeneration
    exact le_rfl
  have hgen := hgen.trans (s.generation_mono (extends_log _ .getTopologyGeneration
    (.ok generation)).trace)
  refine wp_bind (wp_mono wp_buildPlan (fun plan w₁ h => ?_) fun _ h => h)
  obtain ⟨hext₁, hopen, hplanned⟩ := h
  have hgen₁ := hgen.trans (s.generation_mono hext₁.trace)
  refine wp_bind (wp_mono (wp_prepareLiveTargets _ hgen₁) (fun _ w₂ h => ?_) fun _ h => h)
  obtain ⟨hext₂, hprepared⟩ := h
  have hgen₂ := hgen₁.trans (s.generation_mono hext₂.trace)
  refine wp_bind (wp_mono (wp_drainTargets _ hgen₂) (fun drained w₃ h => ?_) fun _ h => h)
  obtain ⟨hext₃, hlength, hreports, hdrained⟩ := h
  have hgen₃ := hgen₂.trans (s.generation_mono hext₃.trace)
  have hreported : ∀ t ∈ plan.failures ++ drained, Reported t := by
    intro t ht
    obtain hmem | hmem := List.mem_append.mp ht
    · intro hconverged
      rw [(hopen t hmem).2] at hconverged
      cases hconverged
    · exact hreports t hmem
  refine wp_bind (wp_getStopReason hgen₃ (fun reason w₄ _ _ => ?_) fun hcalm => ?_)
  · refine wp_bind (wp_mono (returns_any w₄) (fun _ w₅ _ => ?_) fun _ _ => trivial)
    refine wp_pure ⟨fun h => ?_, hreported⟩
    cases reason with
    | cancelled => simp at h
    | topologyChanged => simp at h
  rw [← grown]
  have hext₄ := extends_grown w₃ (unstopped w₃.turn generation)
  by_cases hcompleted : plan.failures ++ drained ≠ [] ∧
      ∀ t ∈ plan.failures ++ drained, t.completed = true
  · obtain ⟨hne, hall⟩ := hcompleted
    have hany : (plan.failures ++ drained).any (fun t => t.completed || t.quotaBlocked) = true := by
      obtain ⟨t, ht⟩ := List.exists_mem_of_ne_nil _ hne
      exact List.any_eq_true.mpr ⟨t, ht, by simp [hall t ht]⟩
    unfold updateConnectivity
    rw [if_neg hne, if_pos hany]
    refine wp_bind (wp_ask (fun _ _ => ?_) fun _ _ => trivial)
    refine wp_pure ⟨fun _ => ?_, hreported⟩
    have hnone : plan.failures = [] := by
      refine List.eq_nil_iff_forall_not_mem.mpr fun t ht => ?_
      have hcompleted := hall t (List.mem_append_left _ ht)
      rw [(hopen t ht).1] at hcompleted
      cases hcompleted
    have hcalm₂ : ¬ Halted s generation w₂.trace := fun h => hcalm (h.mono hext₃.trace)
    obtain ⟨identities, htargets, rfl⟩ := hplanned hnone
    obtain h | rfl := hprepared
    · exact absurd h hcalm₂
    obtain h | ⟨segments, hsegments, rfl⟩ := hdrained fun t ht => hall t (List.mem_append_right _ ht)
    · exact absurd h hcalm
    rw [htargets] at hsegments
    refine ⟨generation, identities, segments, ?_, hsegments, ?_⟩
    · intro hempty
      rw [htargets, hempty] at hlength
      exact hne (by rw [hnone, List.nil_append]; exact List.length_eq_zero_iff.mp hlength)
    · simp [grown, Interaction.World.log, untouched, htargets]
  · refine wp_bind (wp_mono (returns_any _) (fun _ w₅ _ => ?_) fun _ _ => trivial)
    refine wp_pure ⟨fun h => ?_, hreported⟩
    simp only [decide_eq_true_eq, List.all_eq_true] at h
    exact absurd ⟨h.1, h.2.2.2⟩ hcompleted

end Readings

/-- A drain that is reported completed has handed the endpoint over, and a target is reported
converged without being completed only when messages were not pushed or its reconciliation was
aborted, whatever the operations answer and whenever the signal or the topology changes. -/
theorem drain_hands_over (s : Surroundings) (remoteEndpoint : String) (result : SyncDrainResult)
    (h : ((drain s remoteEndpoint).run untouched).1 = .ok result) :
    (result.completed = true →
      HandedOver remoteEndpoint ((drain s remoteEndpoint).run untouched).2.trace) ∧
    ∀ t ∈ result.targets, Reported t := by
  obtain ⟨result', hresult, hdrain⟩ | ⟨⟨e, he⟩, -⟩ := wp_run (wp_drain s remoteEndpoint)
  · rw [h] at hresult
    cases hresult
    exact hdrain
  · rw [h] at he
    cases he

/-! ## A drain of one target -/

def soleTarget : SyncTarget := ⟨"did:ex:alice", "https://dwn.example", .full⟩

/-- Nothing fails and nothing changes, except for the messages that cannot be pushed. -/
def oneTarget (pushFailures : List PushFailure) : Surroundings where
  answer _ op :=
    match op with
    | .registerEndpoint _ | .prepareLiveTarget _ | .recordPushFailures _ _ | .clear _
    | .recordSuccess | .recordFailure => .ok ()
    | .aborted | .handleVerifiedDivergence _ _ => .ok false
    | .getTopologyGeneration => .ok (0 : Nat)
    | .entries => .ok ⟨[.valid "did:ex:alice" {}], none⟩
    | .buildTargetsForEndpoint _ _ _ => .ok [soleTarget]
    | .reconcileTarget _ _ _ => .ok
      { converged := some true, localFingerprint := some "f", remoteFingerprint := some "f",
        pushFailures }
    | .verifyConvergence _ => .ok
      { converged := some true, localFingerprint := some "f", remoteFingerprint := some "f" }
    | .getLink _ => .ok
      { tenantDid := "did:ex:alice", remoteEndpoint := "https://dwn.example", projectionId := "p",
        authorizationEpoch := "e", status := .live, connectivity := .online }
    | .getActiveBlocksForTarget _ => .ok []
  aborted _ := false
  generation _ := 0
  aborted_mono _ h := h
  generation_mono _ := le_rfl

theorem exists_ok_of_map {ε α β : Type} {r : Except ε α} {f : α → β} {b : β}
    (h : r.toOption.map f = some b) : ∃ a, r = .ok a ∧ f a = b := by
  cases r with
  | error e => cases h
  | ok a => exact ⟨a, rfl, Option.some.inj h⟩

theorem drain_hands_over_oneTarget :
    HandedOver "https://dwn.example"
      ((drain (oneTarget []) "https://dwn.example").run untouched).2.trace := by
  have hrun : (((drain (oneTarget []) "https://dwn.example").run untouched).1.toOption.map
      (·.completed)) = some true := by decide +kernel
  obtain ⟨result, hresult, hcompleted⟩ := exists_ok_of_map hrun
  exact (drain_hands_over (oneTarget []) "https://dwn.example" result hresult).1 hcompleted

/-- A target that failed is reported converged: a message was not pushed, and the fingerprints are
the same. -/
theorem failed_target_converged : ∃ result,
    ((drain (oneTarget [{ cid := "failed-cid" }]) "https://dwn.example").run untouched).1 = .ok result ∧
      ¬ ∀ t ∈ result.targets, t.completed = false → t.converged = false := by
  have hrun : (((drain (oneTarget [{ cid := "failed-cid" }])
      "https://dwn.example").run untouched).1.toOption.map fun result =>
        decide (∀ t ∈ result.targets, t.completed = false → t.converged = false)) = some false := by
    decide +kernel
  obtain ⟨result, hresult, hnot⟩ := exists_ok_of_map hrun
  exact ⟨result, hresult, of_decide_eq_false hnot⟩

end EnboxDwn.Agent.SyncDrainCoordinator
