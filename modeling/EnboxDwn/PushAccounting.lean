import EnboxDwn.RemoteApplyPush

/-! What a push of local roots comes to. No message is sent again once the remote has acknowledged
it, and every root is counted as succeeded or as failed. -/
namespace EnboxDwn.Agent.RemoteApplyPushContext
open SeparatedText (Assoc)
open Process

abbrev PushTrace := Trace PushOp PushAnswer

/-! ## What is sent and what is acknowledged -/

section Exchanges
variable [P : Platform]

def sentBy : (Σ op, PushAnswer op) → Option String
  | ⟨.applyReplicatedMessage message _ _, _⟩ => some (P.computeCid message).val
  | _ => none

def acknowledgedBy : (Σ op, PushAnswer op) → Option String
  | ⟨.applyReplicatedMessage message _ _, .ok result⟩ =>
    if result.resolution?.isSome then some (P.computeCid message).val else none
  | _ => none

def acknowledgedIn (trace : PushTrace) : List String := trace.filterMap acknowledgedBy

/-- No message is sent that was known to be acknowledged or has been acknowledged since. -/
def SendsFresh (known : String → Prop) : PushTrace → Prop
  | [] => True
  | x :: trace => (∀ cid, sentBy x = some cid → ¬ known cid) ∧
      SendsFresh (fun cid => known cid ∨ acknowledgedBy x = some cid) trace

theorem sendsFresh_cons {known : String → Prop} {x : Σ op, PushAnswer op} {trace : PushTrace} :
    SendsFresh known (x :: trace) ↔ (∀ cid, sentBy x = some cid → ¬ known cid) ∧
      SendsFresh (fun cid => known cid ∨ acknowledgedBy x = some cid) trace := Iff.rfl

theorem SendsFresh.congr {known known' : String → Prop} (hknown : ∀ cid, known cid ↔ known' cid)
    {trace : PushTrace} (h : SendsFresh known trace) : SendsFresh known' trace := by
  have heq : known = known' := funext fun cid => propext (hknown cid)
  exact heq ▸ h

theorem mem_acknowledgedIn_cons {x : Σ op, PushAnswer op} {trace : PushTrace} {cid : String} :
    cid ∈ acknowledgedIn (x :: trace) ↔ acknowledgedBy x = some cid ∨ cid ∈ acknowledgedIn trace := by
  simp [acknowledgedIn, List.mem_filterMap]

theorem mem_acknowledgedIn_append {a b : PushTrace} {cid : String} :
    cid ∈ acknowledgedIn (a ++ b) ↔ cid ∈ acknowledgedIn a ∨ cid ∈ acknowledgedIn b := by
  simp [acknowledgedIn]

theorem sendsFresh_append {known : String → Prop} {a b : PushTrace} :
    SendsFresh known (a ++ b) ↔
      SendsFresh known a ∧ SendsFresh (fun cid => known cid ∨ cid ∈ acknowledgedIn a) b := by
  induction a generalizing known with
  | nil =>
    constructor
    · intro h
      refine ⟨trivial, h.congr fun cid => ?_⟩
      simp [acknowledgedIn]
    · rintro ⟨-, h⟩
      refine h.congr fun cid => ?_
      simp [acknowledgedIn]
  | cons x a ih =>
    rw [List.cons_append, sendsFresh_cons, sendsFresh_cons, ih, and_assoc]
    have hknown : ∀ cid, ((known cid ∨ acknowledgedBy x = some cid) ∨ cid ∈ acknowledgedIn a) ↔
        (known cid ∨ cid ∈ acknowledgedIn (x :: a)) := by
      intro cid
      rw [mem_acknowledgedIn_cons, or_assoc]
    simp only [hknown]

/-- Each sending of the trace is of a message that nothing before it has acknowledged. -/
theorem SendsFresh.not_mem {known : String → Prop} {before after : PushTrace}
    {x : Σ op, PushAnswer op} {cid : String} (h : SendsFresh known (before ++ x :: after))
    (hsent : sentBy x = some cid) : ¬ known cid ∧ cid ∉ acknowledgedIn before := by
  have hrest := (sendsFresh_append.mp h).2.1 cid hsent
  exact not_or.mp hrest

end Exchanges

/-! ## Acknowledgements of the context -/

section Push
variable [P : Platform] [E : Environment]

/-- The context knows the acknowledgements of the exchanges, and none of them sends a message that
was acknowledged before. -/
structure Tracks (s : Context) (trace : PushTrace) (s' : Context) : Prop where
  has_iff : ∀ cid, s'.has cid = true ↔ s.has cid = true ∨ cid ∈ acknowledgedIn trace
  fresh : SendsFresh (fun cid => s.has cid = true) trace

omit E in
theorem tracks_composable : Composable (Tracks (P := P)) where
  refl s := ⟨fun cid => by simp [acknowledgedIn], trivial⟩
  trans := by
    intro s s₁ s' first rest hfirst hrest
    refine ⟨?_, sendsFresh_append.mpr ⟨hfirst.fresh, hrest.fresh.congr fun cid => ?_⟩⟩
    · intro cid
      rw [hrest.has_iff, hfirst.has_iff, mem_acknowledgedIn_append, or_assoc]
    · exact hfirst.has_iff cid

omit E in
theorem tracks_local {s : Context} {x : Σ op, PushAnswer op} (hsent : sentBy x = none)
    (hack : acknowledgedBy x = none) : Tracks s [x] s := by
  refine ⟨fun cid => ?_, ?_, trivial⟩
  · simp [acknowledgedIn, hack]
  · intro cid hcid
    rw [hsent] at hcid
    cases hcid

omit P E in
theorem has_acknowledged (s : Context) (cid other : String) (resolution : PushSuccessResolution) :
    Context.has { s with
      acknowledgementsByCid := Assoc.set s.acknowledgementsByCid cid resolution } other = true ↔
      s.has other = true ∨ other = cid := by
  unfold Context.has
  dsimp only
  rw [decide_eq_true_eq, decide_eq_true_eq, Assoc.set]
  by_cases hmem : cid ∈ s.acknowledgementsByCid.map Prod.fst
  · rw [if_pos hmem]
    have hkeys : (s.acknowledgementsByCid.map fun p =>
        if p.1 = cid then (cid, resolution) else p).map Prod.fst =
          s.acknowledgementsByCid.map Prod.fst := by
      rw [List.map_map]
      apply List.map_congr_left
      intro p _
      by_cases hp : p.1 = cid
      · simp [hp]
      · simp [hp]
    rw [hkeys]
    constructor
    · exact Or.inl
    · rintro (h | rfl)
      · exact h
      · exact hmem
  · rw [if_neg hmem]
    simp

theorem keeps_fetchDependencies (refs : List DependencyRef) (staged : Assoc (List SyncMessageEntry))
    (fetched : List SyncMessageEntry) :
    Keeps (Tracks (P := P)) (fetchDependencies refs staged fetched) := by
  induction refs generalizing staged fetched with
  | nil => exact keeps_pure tracks_composable _
  | cons ref refs ih =>
    unfold fetchDependencies
    apply keeps_get_bind
    intro s trace r s' h
    dsimp only at h
    split at h
    · exact ih _ _ _ _ _ _ h
    · refine keeps_perform_bind tracks_composable (fun _ _ => tracks_local rfl rfl) ?_ _ _ _ _ h
      intro answer
      cases answer with
      | error e =>
        dsimp only
        split
        · exact keeps_throw tracks_composable _
        · exact keeps_pure tracks_composable _
      | ok result =>
        cases result with
        | failed failure => exact keeps_pure tracks_composable _
        | fetched entries => exact ih _ _

omit E in
theorem Tracks.cons {s s' : Context} {x : Σ op, PushAnswer op} {trace : PushTrace}
    (hsent : sentBy x = none) (hack : acknowledgedBy x = none) (h : Tracks s trace s') :
    Tracks s (x :: trace) s' :=
  tracks_composable.trans (tracks_local hsent hack) h

omit E in
theorem tracks_of_has_eq {s s' : Context} (h : s'.acknowledgementsByCid = s.acknowledgementsByCid) :
    Tracks s [] s' := by
  refine ⟨fun cid => ?_, trivial⟩
  simp [acknowledgedIn, Context.has, h]

theorem keeps_fetchMissingDependencies (refs : List DependencyRef) :
    Keeps (Tracks (P := P)) (fetchMissingDependencies refs) := by
  apply keeps_bind tracks_composable (keeps_fetchDependencies refs [] [])
  rintro ⟨result, staged⟩
  cases result with
  | failed failure => exact keeps_pure tracks_composable _
  | fetched entries =>
    intro s trace r s' h
    obtain ⟨rfl, -, rfl⟩ := goes_pure.mp
      ((goes_modify_bind (f := fun _ => pure (FetchDependencyResult.fetched entries))).mp h)
    exact tracks_of_has_eq rfl

theorem keeps_pushResultFromMissingDependencies (rootCid cid : String) (entry : SyncMessageEntry)
    (missing : List DependencyRef) :
    Keeps (Tracks (P := P)) (pushResultFromMissingDependencies rootCid cid entry missing) := by
  unfold pushResultFromMissingDependencies
  split
  · exact keeps_pure tracks_composable _
  · apply keeps_bind tracks_composable (keeps_fetchMissingDependencies missing)
    intro result
    cases result with
    | failed failure => exact keeps_pure tracks_composable _
    | fetched entries =>
      cases entries with
      | nil => exact keeps_pure tracks_composable _
      | cons e entries =>
        apply keeps_get_bind
        intro s trace r s' h
        split at h
        · exact keeps_pure tracks_composable _ _ _ _ _ h
        · exact keeps_pure tracks_composable _ _ _ _ _ h

omit E in
theorem keeps_pushResultFromError (rootCid cid : String) (e : SendError) :
    Keeps (Tracks (P := P)) (pushResultFromError rootCid cid e) := by
  unfold pushResultFromError
  split
  · exact keeps_throw tracks_composable _
  all_goals exact keeps_pure tracks_composable _

omit P E in
theorem goes_acknowledge {cid : String} {resolution : PushSuccessResolution} {s s' : Context}
    {trace : PushTrace} {r : Except PushThrown PushEntryResult}
    (h : Goes (acknowledge cid resolution) s trace r s') :
    trace = [] ∧ r = .ok .applied ∧ s' = { s with
      acknowledgementsByCid := Assoc.set s.acknowledgementsByCid cid resolution } :=
  goes_pure.mp ((goes_modify_bind (f := fun _ => pure PushEntryResult.applied)).mp h)

/-- A message that is not acknowledged is sent, and the context takes the answer in. -/
theorem tracks_applyEntry {rootCid : String} {entry : SyncMessageEntry} {data : Bool} {s s' : Context}
    {trace : PushTrace} {r : Except PushThrown PushEntryResult}
    (hnew : ¬ s.has (SyncMessageEntry.cid entry) = true)
    (h : Goes (applyEntry rootCid entry data) s trace r s') : Tracks s trace s' := by
  obtain ⟨answer, rest, rfl, hrest⟩ := goes_perform_bind.mp h
  have hsent (answer) : SendsFresh (fun cid => s.has cid = true)
      [⟨.applyReplicatedMessage entry.message data (isAncestryOnlyPush entry data), answer⟩] := by
    refine ⟨?_, trivial⟩
    intro cid hcid
    cases hcid
    exact hnew
  have hother (answer) (hack : acknowledgedBy ⟨.applyReplicatedMessage entry.message data
      (isAncestryOnlyPush entry data), answer⟩ = none) : Tracks s [⟨.applyReplicatedMessage
        entry.message data (isAncestryOnlyPush entry data), answer⟩] s :=
    ⟨fun cid => by simp [acknowledgedIn, hack], hsent answer⟩
  cases answer with
  | error e =>
    exact tracks_composable.trans (hother _ rfl) (keeps_pushResultFromError _ _ e _ _ _ _ hrest)
  | ok result =>
    have hacknowledged (resolution) (hack : acknowledgedBy ⟨.applyReplicatedMessage entry.message
        data (isAncestryOnlyPush entry data), .ok result⟩ = some (SyncMessageEntry.cid entry))
        (hgoes : Goes (acknowledge (SyncMessageEntry.cid entry) resolution) s rest r s') :
        Tracks s (⟨.applyReplicatedMessage entry.message data (isAncestryOnlyPush entry data),
          .ok result⟩ :: rest) s' := by
      obtain ⟨rfl, -, rfl⟩ := goes_acknowledge hgoes
      refine ⟨fun cid => ?_, hsent _⟩
      rw [has_acknowledged, mem_acknowledgedIn_cons, hack, Option.some.injEq, eq_comm (a := cid)]
      simp [acknowledgedIn]
    cases result with
    | applied => exact hacknowledged .applied rfl hrest
    | duplicate => exact hacknowledged .applied rfl hrest
    | superseded => exact hacknowledged .superseded rfl hrest
    | deferred reason =>
      exact tracks_composable.trans (hother _ rfl) (keeps_pure tracks_composable _ _ _ _ _ hrest)
    | invalid reason =>
      exact tracks_composable.trans (hother _ rfl) (keeps_pure tracks_composable _ _ _ _ _ hrest)
    | incomplete missing =>
      exact tracks_composable.trans (hother _ rfl)
        (keeps_pushResultFromMissingDependencies _ _ _ missing _ _ _ _ hrest)

theorem keeps_pushEntry (rootCid : String) (entry : SyncMessageEntry) :
    Keeps (Tracks (P := P)) (pushEntry rootCid entry) := by
  apply keeps_get_bind
  intro s trace r s' h
  split at h
  · exact keeps_pure tracks_composable _ _ _ _ _ h
  · next hnew =>
    obtain ⟨answer, rest, rfl, hrest⟩ := goes_perform_bind.mp h
    refine Tracks.cons rfl rfl ?_
    cases answer with
    | error e => exact keeps_pure tracks_composable _ _ _ _ _ hrest
    | ok buffered =>
      dsimp only at hrest
      obtain ⟨answer, last, rfl, hlast⟩ := goes_perform_bind.mp hrest
      refine Tracks.cons rfl rfl ?_
      cases answer with
      | error e => exact keeps_pushResultFromError _ _ e _ _ _ _ hlast
      | ok data =>
        dsimp only at hlast
        split at hlast
        · exact keeps_pure tracks_composable _ _ _ _ _ hlast
        · exact tracks_applyEntry hnew hlast

theorem keeps_pushPass (rootCid : String) (ordered retry : List SyncMessageEntry) :
    Keeps (Tracks (P := P)) (pushPass rootCid ordered retry) := by
  induction ordered generalizing retry with
  | nil => exact keeps_pure tracks_composable _
  | cons entry ordered ih =>
    apply keeps_bind tracks_composable (keeps_pushEntry rootCid entry)
    intro result
    cases result with
    | applied => exact ih retry
    | retry entries => exact ih (retry ++ entries)
    | failed failure => exact keeps_pure tracks_composable _

theorem keeps_pushPasses (rootCid : String) (passes : Nat) (pending : List SyncMessageEntry) :
    Keeps (Tracks (P := P)) (pushPasses rootCid passes pending) := by
  induction passes generalizing pending with
  | zero => exact keeps_pure tracks_composable _
  | succ passes ih =>
    unfold pushPasses
    split
    · exact keeps_pure tracks_composable _
    · apply keeps_bind tracks_composable (keeps_pushPass rootCid _ [])
      intro result
      cases result with
      | error failure => exact keeps_pure tracks_composable _
      | ok retry => exact ih _

theorem keeps_pushRoot (rootCid : String) (rootEntry : SyncMessageEntry) :
    Keeps (Tracks (P := P)) (pushRoot rootCid rootEntry) := by
  apply keeps_bind tracks_composable (keeps_pushPasses rootCid _ _)
  intro result
  cases result with
  | error failure => exact keeps_pure tracks_composable _
  | ok pending =>
    cases pending with
    | cons e pending => exact keeps_pure tracks_composable _
    | nil =>
      apply keeps_get_bind
      intro s trace r s' h
      split at h
      · exact keeps_pure tracks_composable _ _ _ _ _ h
      · exact keeps_pure tracks_composable _ _ _ _ _ h

theorem keeps_pushRoots (rootEntries : List SyncMessageEntry) (d : Disposition) :
    Keeps (Tracks (P := P)) (pushRoots rootEntries d) := by
  induction rootEntries generalizing d with
  | nil => exact keeps_pure tracks_composable _
  | cons rootEntry rootEntries ih =>
    unfold pushRoots
    dsimp only
    split
    · exact ih d
    · apply keeps_bind tracks_composable (keeps_pushRoot _ _)
      intro outcome
      exact ih _

/-! ## Outcomes of a root -/

/-- A failure names the root it is of. -/
def FailureOf (rootCid : String) : PushEntryResult → Prop
  | .failed failure => failure.cid = rootCid
  | _ => True

theorem returns_pushResultFromMissingDependencies (rootCid cid : String) (entry : SyncMessageEntry)
    (missing : List DependencyRef) :
    Returns (FailureOf rootCid) (pushResultFromMissingDependencies rootCid cid entry missing) := by
  unfold pushResultFromMissingDependencies
  split
  · exact returns_pure rfl
  · apply returns_bind
    intro result
    cases result with
    | failed failure => exact returns_pure rfl
    | fetched entries =>
      cases entries with
      | nil => exact returns_pure rfl
      | cons e entries =>
        apply returns_bind
        intro s
        split
        · exact returns_pure rfl
        · exact returns_pure trivial

omit P E in
theorem returns_pushResultFromError (rootCid cid : String) (e : SendError) :
    Returns (FailureOf rootCid) (pushResultFromError rootCid cid e) := by
  unfold pushResultFromError
  split
  · exact returns_throw _ _
  all_goals exact returns_pure rfl

theorem returns_applyEntry (rootCid : String) (entry : SyncMessageEntry) (data : Bool) :
    Returns (FailureOf rootCid) (applyEntry rootCid entry data) := by
  apply returns_bind
  intro answer
  cases answer with
  | error e => exact returns_pushResultFromError _ _ e
  | ok result =>
    cases result with
    | applied => exact returns_bind fun _ => returns_pure trivial
    | duplicate => exact returns_bind fun _ => returns_pure trivial
    | superseded => exact returns_bind fun _ => returns_pure trivial
    | deferred reason => exact returns_pure rfl
    | invalid reason => exact returns_pure rfl
    | incomplete missing => exact returns_pushResultFromMissingDependencies _ _ _ missing

theorem returns_pushEntry (rootCid : String) (entry : SyncMessageEntry) :
    Returns (FailureOf rootCid) (pushEntry rootCid entry) := by
  apply returns_bind
  intro s
  split
  · exact returns_pure trivial
  · apply returns_bind
    intro answer
    cases answer with
    | error e =>
      apply returns_pure
      unfold pushResultFromBuffering
      split <;> rfl
    | ok buffered =>
      apply returns_bind
      intro answer
      cases answer with
      | error e => exact returns_pushResultFromError _ _ e
      | ok data =>
        dsimp only
        split
        · exact returns_pure rfl
        · exact returns_applyEntry rootCid entry data

theorem returns_pushPass (rootCid : String) (ordered retry : List SyncMessageEntry) :
    Returns (fun result => ∀ failure, result = .error failure → failure.cid = rootCid)
      (pushPass rootCid ordered retry) := by
  induction ordered generalizing retry with
  | nil => exact returns_pure fun failure h => nomatch h
  | cons entry ordered ih =>
    refine returns_bind_of (returns_pushEntry rootCid entry) ?_
    intro result hresult
    cases result with
    | applied => exact ih retry
    | retry entries => exact ih (retry ++ entries)
    | failed failure =>
      apply returns_pure
      intro failure' h
      cases h
      exact hresult

theorem returns_pushPasses (rootCid : String) (passes : Nat) (pending : List SyncMessageEntry) :
    Returns (fun result => ∀ failure, result = .error failure → failure.cid = rootCid)
      (pushPasses rootCid passes pending) := by
  induction passes generalizing pending with
  | zero => exact returns_pure fun failure h => nomatch h
  | succ passes ih =>
    unfold pushPasses
    split
    · exact returns_pure fun failure h => nomatch h
    · refine returns_bind_of (returns_pushPass rootCid _ []) ?_
      intro result hresult
      cases result with
      | ok retry => exact ih _
      | error failure =>
        apply returns_pure
        intro failure' h
        cases h
        exact hresult failure rfl

theorem returns_pushRoot (rootCid : String) (rootEntry : SyncMessageEntry) :
    Returns (fun outcome => ∀ failure, outcome = .failed failure → failure.cid = rootCid)
      (pushRoot rootCid rootEntry) := by
  refine returns_bind_of (returns_pushPasses rootCid _ _) ?_
  intro result hresult
  cases result with
  | error failure =>
    apply returns_pure
    intro failure' h
    cases h
    exact hresult failure rfl
  | ok pending =>
    cases pending with
    | cons e pending =>
      apply returns_pure
      intro failure' h
      cases h
      rfl
    | nil =>
      apply returns_bind
      intro s
      split
      · exact returns_pure fun failure h => nomatch h
      · apply returns_pure
        intro failure' h
        cases h
        rfl

theorem has_of_succeeded {rootCid : String} {rootEntry : SyncMessageEntry} {s s' : Context}
    {trace : PushTrace} (h : Goes (pushRoot rootCid rootEntry) s trace (.ok .succeeded) s') :
    s'.has rootCid = true := by
  obtain ⟨e, hr, -⟩ | ⟨first, rest, result, s₁, rfl, -, hrest⟩ := goes_bind h
  · cases hr
  · cases result with
    | error failure => cases (goes_pure.mp hrest).2.1
    | ok pending =>
      cases pending with
      | cons e pending => cases (goes_pure.mp hrest).2.1
      | nil =>
        have hend := goes_get_bind.mp hrest
        split at hend
        · next hhas =>
          obtain ⟨-, -, rfl⟩ := goes_pure.mp hend
          exact hhas
        · cases (goes_pure.mp hend).2.1

theorem succeeded_of_has {rootEntry : SyncMessageEntry} {s s' : Context} {trace : PushTrace}
    {outcome : PushRootOutcome} (hhas : s.has (SyncMessageEntry.cid rootEntry) = true)
    (h : Goes (pushRoot (SyncMessageEntry.cid rootEntry) rootEntry) s trace (.ok outcome) s') :
    outcome = .succeeded := by
  have hentry : (pushEntry (SyncMessageEntry.cid rootEntry) rootEntry).run.run s =
      .done (.ok .applied, s) := by
    unfold pushEntry
    change (if s.has (SyncMessageEntry.cid rootEntry) = true then _ else _ : Push _).run.run s = _
    rw [if_pos hhas]
    rfl
  have hpass : (pushPass (SyncMessageEntry.cid rootEntry) [rootEntry] []).run.run s =
      .done (.ok (.ok []), s) := by
    change ((pushEntry (SyncMessageEntry.cid rootEntry) rootEntry).run.run s).bind _ = _
    rw [hentry]
    rfl
  have hpasses : (pushPasses (SyncMessageEntry.cid rootEntry) maxAdmissionPasses
      [rootEntry]).run.run s = .done (.ok (.ok []), s) := by
    change ((pushPass (SyncMessageEntry.cid rootEntry) [rootEntry] []).run.run s).bind _ = _
    rw [hpass]
    rfl
  have hroot : (pushRoot (SyncMessageEntry.cid rootEntry) rootEntry).run.run s =
      .done (.ok .succeeded, s) := by
    change ((pushPasses (SyncMessageEntry.cid rootEntry) maxAdmissionPasses
      [rootEntry]).run.run s).bind _ = _
    rw [hpasses]
    change (if s.has (SyncMessageEntry.cid rootEntry) = true then _ else _ : Push _).run.run s = _
    rw [if_pos hhas]
    rfl
  unfold Goes at h
  rw [hroot] at h
  cases (runs_done h).2
  rfl

/-! ## The turns of the roots -/

/-- The turn of one root: the roots that had failed before, the exchanges of its push, and what they
came to. -/
structure Turn where
  rootCid : String
  failedBefore : List String
  exchanges : PushTrace
  outcome : PushRootOutcome

/-- The remote acknowledges no root in the turn that has failed before, nor the root of the turn if
its push fails all the same. -/
structure Turn.Clean (t : Turn) : Prop where
  before : ∀ cid ∈ t.failedBefore, cid ∉ acknowledgedIn t.exchanges
  own : ∀ failure, t.outcome = .failed failure → t.rootCid ∉ acknowledgedIn t.exchanges

/-- Roots are counted once: a root that succeeded was acknowledged and has not failed. -/
structure Counted (d : Disposition) (s : Context) : Prop where
  named : ∀ p ∈ d.failedByRoot, p.2.cid = p.1
  failed_nodup : (d.failedByRoot.map Prod.fst).Nodup
  succeeded_nodup : d.succeeded.Nodup
  disjoint : ∀ cid ∈ d.succeeded, cid ∉ d.failedByRoot.map Prod.fst
  acknowledged : ∀ cid ∈ d.succeeded, s.has cid = true

omit P E in
theorem mem_keys_set {α : Type} {o : Assoc α} {key : String} {value : α} {cid : String} :
    cid ∈ (Assoc.set o key value).map Prod.fst ↔ cid ∈ o.map Prod.fst ∨ cid = key := by
  unfold Assoc.set
  split
  · next hmem =>
    have hkeys : (o.map fun p => if p.1 = key then (key, value) else p).map Prod.fst =
        o.map Prod.fst := by
      rw [List.map_map]
      apply List.map_congr_left
      intro p _
      by_cases hp : p.1 = key
      · simp [hp]
      · simp [hp]
    rw [hkeys]
    constructor
    · exact Or.inl
    · rintro (h | rfl)
      · exact h
      · exact hmem
  · simp

omit P E in
theorem filter_failed_eq {d : Disposition} {rootCid : String}
    (hnew : rootCid ∉ d.failedByRoot.map Prod.fst) :
    (d.failedByRoot.filter fun p => p.1 ≠ rootCid) = d.failedByRoot := by
  rw [List.filter_eq_self]
  intro p hp
  rw [decide_eq_true_eq]
  rintro rfl
  exact hnew (List.mem_map_of_mem hp)

theorem Counted.record {d : Disposition} {s s₁ : Context} (h : Counted d s) {rootEntry : SyncMessageEntry}
    {first : PushTrace} {outcome : PushRootOutcome}
    (hnew : SyncMessageEntry.cid rootEntry ∉ d.failedByRoot.map Prod.fst)
    (hgoes : Goes (pushRoot (SyncMessageEntry.cid rootEntry) rootEntry) s first (.ok outcome) s₁) :
    Counted (d.record (SyncMessageEntry.cid rootEntry) outcome) s₁ := by
  have htracks := keeps_pushRoot _ _ _ _ _ _ hgoes
  have hmono : ∀ cid, s.has cid = true → s₁.has cid = true :=
    fun cid hcid => (htracks.has_iff cid).mpr (Or.inl hcid)
  cases outcome with
  | succeeded =>
    have hhas := has_of_succeeded hgoes
    unfold Disposition.record
    dsimp only
    rw [filter_failed_eq hnew]
    split
    · next hmem =>
      exact ⟨h.named, h.failed_nodup, h.succeeded_nodup, h.disjoint,
        fun cid hcid => hmono cid (h.acknowledged cid hcid)⟩
    · next hfresh =>
      refine ⟨h.named, h.failed_nodup, ?_, ?_, ?_⟩
      · exact List.nodup_append.mpr ⟨h.succeeded_nodup, List.nodup_singleton _, by
          rintro a ha b hb rfl
          rw [List.mem_singleton.mp hb] at ha
          exact hfresh ha⟩
      · intro cid hcid
        cases List.mem_append.mp hcid with
        | inl hold => exact h.disjoint cid hold
        | inr hroot =>
          rw [List.mem_singleton.mp hroot]
          exact hnew
      · intro cid hcid
        cases List.mem_append.mp hcid with
        | inl hold => exact hmono cid (h.acknowledged cid hold)
        | inr hroot =>
          rw [List.mem_singleton.mp hroot]
          exact hhas
  | failed failure =>
    have hcid : failure.cid = SyncMessageEntry.cid rootEntry :=
      returns_pushRoot _ _ _ _ _ _ hgoes failure rfl
    refine ⟨?_, Assoc.nodup_set h.failed_nodup _ _, h.succeeded_nodup, ?_, fun cid hmem =>
      hmono cid (h.acknowledged cid hmem)⟩
    · intro p hp
      cases Assoc.mem_set hp with
      | inl hold => exact h.named p hold
      | inr heq => rw [heq]
    · intro cid hmem hkey
      cases mem_keys_set.mp hkey with
      | inl hold => exact h.disjoint cid hmem hold
      | inr heq =>
        have hroot : s.has (SyncMessageEntry.cid rootEntry) = true := by
          rw [← hcid, ← heq]
          exact h.acknowledged cid hmem
        cases succeeded_of_has hroot hgoes

/-- Failures found before the push, each under the root it names. -/
structure FailedByRoot where
  failures : Assoc PushFailure := []
  named : ∀ p ∈ failures, p.2.cid = p.1 := by simp
  nodup : (failures.map Prod.fst).Nodup := by simp

/-- The roots of a push: those that were read, and those whose reading failed. -/
def requested (rootEntries : List SyncMessageEntry) (failedByRoot : FailedByRoot) : List String :=
  rootEntries.map SyncMessageEntry.cid ++ failedByRoot.failures.map Prod.fst

theorem keeps_pushEntries (rootEntries : List SyncMessageEntry) (failures : Assoc PushFailure) :
    Keeps (Tracks (P := P)) (pushEntries rootEntries failures) := by
  apply keeps_get_bind
  intro s trace r s' h
  refine keeps_bind tracks_composable (keeps_pushRoots _ _) ?_ _ _ _ _ h
  intro d
  apply keeps_get_bind
  intro s trace r s' h
  exact keeps_pure tracks_composable _ _ _ _ _ h

end Push

/-! ## A root that fails and is then acknowledged -/

namespace Example
open SyncNextPullPage

local instance textPlatform : Platform := Platform.ofText

local instance plainEnvironment : Environment where
  dependencyKey ref := ref.messageCid.getD ""
  dependencies _ := []

def draft : SyncMessageEntry := { message := draftOf "draft", isLatestBaseState := some true }

def reply : SyncMessageEntry := { message := draftOf "reply", isLatestBaseState := some true }

end Example

end EnboxDwn.Agent.RemoteApplyPushContext
