import EnboxDwn.Lib.KeyedMap
import Mathlib.Data.List.Induction

/-! Pairing of browser origins with a local node: requests that an owner approves or denies, the
tokens that approved requests hand out once, and the sessions behind the tokens. -/
namespace EnboxDwn

inductive PairingStatus where
  | pending | approved | denied | expired
  deriving DecidableEq, Repr

structure LocalNodePairingRequest where
  id : String
  origin : String
  status : PairingStatus
  createdAt : Int
  expiresAt : Int
  completedAt : Option Int := none
  token : Option String := none
  tokenReturned : Bool := false
  deriving DecidableEq, Repr

structure LocalNodePairingRequestView where
  id : String
  origin : String
  status : PairingStatus
  createdAt : Int
  expiresAt : Int
  deriving DecidableEq, Repr

structure LocalNodeSession where
  origin : Option String
  token : String
  createdAt : Int
  deriving DecidableEq, Repr

/-- The result of creating a request; the time to wait is not a number where nothing may be
attempted at all. -/
inductive LocalNodePairingCreateResult where
  | created (requestId : String)
  | coalesced (requestId : String)
  | invalidOrigin (message : String)
  | rateLimited (retryAfterMs : Option Int)
  deriving DecidableEq, Repr

structure LocalNodePairingPollResult where
  status : PairingStatus
  origin : String
  token : Option String := none
  deriving DecidableEq, Repr

structure LocalNodePairingManagerOptions where
  pairingRequestTtlMs : Int := 5 * 60 * 1000
  pairingRateLimitMax : Nat := 5
  pairingRateLimitWindowMs : Int := 60 * 1000
  terminalRequestRetentionMs : Int := 5 * 60 * 1000

/-- The URL parser: the protocol and the origin of a valid URL. -/
class UrlParser where
  parse : String → Option (String × String)

def normalizeOrigin [U : UrlParser] (origin : String) : Option String :=
  match U.parse origin with
  | none => none
  | some (protocol, urlOrigin) =>
    if (protocol ≠ "http:" ∧ protocol ≠ "https:") ∨ urlOrigin ≠ origin then none else some origin

structure LocalNodePairingManager where
  requests : KeyedMap String LocalNodePairingRequest := ∅
  pendingRequestIdsByOrigin : KeyedMap String String := ∅
  pairingAttemptsByOrigin : KeyedMap String (List Int) := ∅
  sessionsByToken : KeyedMap String LocalNodeSession := ∅

namespace LocalNodePairingManager
variable (options : LocalNodePairingManagerOptions)

def isOverdue (now : Int) (request : LocalNodePairingRequest) : Bool :=
  request.status = .pending ∧ request.expiresAt ≤ now

def expire (now : Int) (request : LocalNodePairingRequest) : LocalNodePairingRequest :=
  { request with status := .expired, completedAt := some now }

def isStale (terminalRequestCutoff : Int) (request : LocalNodePairingRequest) : Bool :=
  request.status ≠ .pending ∧ request.completedAt.any (· ≤ terminalRequestCutoff)

def recentAttempts (now : Int) (attempts : List Int) : List Int :=
  attempts.filter fun attemptedAt => now - options.pairingRateLimitWindowMs < attemptedAt

def prune (s : LocalNodePairingManager) (now : Int) : LocalNodePairingManager :=
  { s with
    requests := KeyedMap.filter (fun request => !isStale (now - options.terminalRequestRetentionMs) request)
      (KeyedMap.update (fun request => if isOverdue now request then expire now request else request)
        s.requests)
    pendingRequestIdsByOrigin := ((KeyedMap.values s.requests).filter (isOverdue now)).foldl
      (fun pending request => pending.erase request.origin) s.pendingRequestIdsByOrigin
    pairingAttemptsByOrigin := KeyedMap.filter (fun attempts => !attempts.isEmpty)
      (KeyedMap.update (recentAttempts options now) s.pairingAttemptsByOrigin) }

/-- Counts the attempt, or says how long to wait. -/
def consumePairingAttempt (s : LocalNodePairingManager) (origin : String) (now : Int) :
    LocalNodePairingManager × Option (Option Int) :=
  let recent := recentAttempts options now ((s.pairingAttemptsByOrigin.lookup origin).getD [])
  if options.pairingRateLimitMax ≤ recent.length then
    (s, some (recent.head?.map fun first => options.pairingRateLimitWindowMs - (now - first)))
  else
    ({ s with pairingAttemptsByOrigin := s.pairingAttemptsByOrigin.insert origin (recent ++ [now]) },
      none)

/-- The request that a pending id of the origin names, if it is still pending. -/
def coalescing (s : LocalNodePairingManager) (origin : String) (now : Int) :
    Option LocalNodePairingRequest :=
  (s.pendingRequestIdsByOrigin.lookup origin).bind fun pendingRequestId =>
    (s.requests.lookup pendingRequestId).filter fun request =>
      request.status = .pending ∧ now < request.expiresAt

/-- `randomId` is the UUID that is drawn for a new request. -/
def createRequest [UrlParser] (s : LocalNodePairingManager) (originHeader : Option String) (now : Int)
    (randomId : String) : LocalNodePairingManager × LocalNodePairingCreateResult :=
  match originHeader with
  | none => (s, .invalidOrigin "Origin header is required.")
  | some header =>
    match normalizeOrigin header with
    | none => (s, .invalidOrigin "Origin header must be an http(s) origin.")
    | some origin =>
      let s := s.prune options now
      match s.coalescing origin now with
      | some pendingRequest => (s, .coalesced pendingRequest.id)
      | none =>
        match s.consumePairingAttempt options origin now with
        | (s, some retryAfterMs) => (s, .rateLimited retryAfterMs)
        | (s, none) =>
          let request : LocalNodePairingRequest :=
            { createdAt := now, expiresAt := now + options.pairingRequestTtlMs, id := randomId
              origin, status := .pending }
          ({ s with
              requests := s.requests.insert request.id request
              pendingRequestIdsByOrigin := s.pendingRequestIdsByOrigin.insert origin request.id },
            .created request.id)

def getActivePendingRequest (s : LocalNodePairingManager) (requestId : String) (now : Int) :
    LocalNodePairingManager × Option LocalNodePairingRequest :=
  match s.requests.lookup requestId with
  | none => (s, none)
  | some request =>
    if request.status ≠ .pending then (s, none)
    else if request.expiresAt ≤ now then
      ({ s with
          requests := s.requests.insert requestId (expire now request)
          pendingRequestIdsByOrigin := s.pendingRequestIdsByOrigin.erase request.origin }, none)
    else (s, some request)

/-- The clock is read twice; `token` is the random token that is drawn. -/
def approveRequest (s : LocalNodePairingManager) (requestId : String) (now completedAt : Int)
    (token : String) : LocalNodePairingManager × Bool :=
  match s.getActivePendingRequest requestId now with
  | (s, none) => (s, false)
  | (s, some request) =>
    ({ s with
        requests := s.requests.insert requestId
          { request with status := .approved, completedAt := some completedAt, token := some token }
        pendingRequestIdsByOrigin := s.pendingRequestIdsByOrigin.erase request.origin
        sessionsByToken := s.sessionsByToken.insert token
          { createdAt := completedAt, origin := some request.origin, token } }, true)

def denyRequest (s : LocalNodePairingManager) (requestId : String) (now completedAt : Int) :
    LocalNodePairingManager × Bool :=
  match s.getActivePendingRequest requestId now with
  | (s, none) => (s, false)
  | (s, some request) =>
    ({ s with
        requests := s.requests.insert requestId
          { request with status := .denied, completedAt := some completedAt }
        pendingRequestIdsByOrigin := s.pendingRequestIdsByOrigin.erase request.origin }, true)

/-- The answer of a poll whose request has been brought up to date. -/
def pollAnswer (s : LocalNodePairingManager) (requestId : String) (request : LocalNodePairingRequest) :
    LocalNodePairingManager × LocalNodePairingPollResult :=
  if request.status = .approved then
    if request.tokenReturned = true ∨ request.token = none then
      (s, { origin := request.origin, status := .approved })
    else
      ({ s with requests := s.requests.insert requestId { request with tokenReturned := true } },
        { origin := request.origin, status := .approved, token := request.token })
  else (s, { origin := request.origin, status := request.status })

def pollRequest (s : LocalNodePairingManager) (requestId : String) (now : Int) :
    LocalNodePairingManager × Option LocalNodePairingPollResult :=
  match s.requests.lookup requestId with
  | none => (s, none)
  | some request =>
    if isOverdue now request then
      let s := { s with
        requests := s.requests.insert requestId (expire now request)
        pendingRequestIdsByOrigin := s.pendingRequestIdsByOrigin.erase request.origin }
      let (s, result) := s.pollAnswer requestId (expire now request)
      (s, some result)
    else
      let (s, result) := s.pollAnswer requestId request
      (s, some result)

def view (request : LocalNodePairingRequest) : LocalNodePairingRequestView where
  id := request.id
  origin := request.origin
  status := request.status
  createdAt := request.createdAt
  expiresAt := request.expiresAt

def listPendingRequests (s : LocalNodePairingManager) (now : Int) :
    LocalNodePairingManager × List LocalNodePairingRequestView :=
  let s := s.prune options now
  (s, ((KeyedMap.values s.requests).filter fun request => request.status = .pending).map view)

def createSession [UrlParser] (s : LocalNodePairingManager) (origin : Option String) (now : Int)
    (token : String) : Except String (LocalNodePairingManager × String) :=
  let normalizedOrigin := origin.bind normalizeOrigin
  if origin ≠ none ∧ normalizedOrigin = none then
    .error "LocalNodePairingManager: origin must be an http(s) origin."
  else
    .ok ({ s with
        sessionsByToken := s.sessionsByToken.insert token
          { createdAt := now, origin := normalizedOrigin, token } }, token)

def validateSession (s : LocalNodePairingManager) (origin token : Option String) : Bool :=
  match token with
  | none => false
  | some token =>
    match s.sessionsByToken.lookup token with
    | none => false
    | some session =>
      if session.token ≠ token then false
      else if session.origin = none then origin = none
      else origin = session.origin

def revokeToken (s : LocalNodePairingManager) (token : String) : LocalNodePairingManager × Bool :=
  ({ s with sessionsByToken := s.sessionsByToken.erase token },
    (s.sessionsByToken.lookup token).isSome)

/-! ## Calls -/

/-- A call with the clock readings and the random values it gets. -/
inductive Call where
  | createRequest (originHeader : Option String) (now : Int) (randomId : String)
  | approveRequest (requestId : String) (now completedAt : Int) (token : String)
  | denyRequest (requestId : String) (now completedAt : Int)
  | pollRequest (requestId : String) (now : Int)
  | listPendingRequests (now : Int)
  | createSession (origin : Option String) (now : Int) (token : String)
  | revokeToken (token : String)
  deriving DecidableEq, Repr

inductive Answer where
  | create (result : LocalNodePairingCreateResult)
  | done (result : Bool)
  | poll (result : Option LocalNodePairingPollResult)
  | list (requests : List LocalNodePairingRequestView)
  | session (result : Except String String)

def Call.clock : Call → List Int
  | createRequest _ now _ => [now]
  | approveRequest _ now completedAt _ => [now, completedAt]
  | denyRequest _ now completedAt => [now, completedAt]
  | pollRequest _ now => [now]
  | listPendingRequests now => [now]
  | createSession _ now _ => [now]
  | revokeToken _ => []

def Call.randomId : Call → Option String
  | createRequest _ _ randomId => some randomId
  | _ => none

section Run
variable [UrlParser]

def step (s : LocalNodePairingManager) : Call → LocalNodePairingManager × Answer
  | .createRequest originHeader now randomId =>
    let (s, result) := s.createRequest options originHeader now randomId
    (s, .create result)
  | .approveRequest requestId now completedAt token =>
    let (s, result) := s.approveRequest requestId now completedAt token
    (s, .done result)
  | .denyRequest requestId now completedAt =>
    let (s, result) := s.denyRequest requestId now completedAt
    (s, .done result)
  | .pollRequest requestId now =>
    let (s, result) := s.pollRequest requestId now
    (s, .poll result)
  | .listPendingRequests now =>
    let (s, result) := s.listPendingRequests options now
    (s, .list result)
  | .createSession origin now token =>
    match s.createSession origin now token with
    | .ok (s, token) => (s, .session (.ok token))
    | .error e => (s, .session (.error e))
  | .revokeToken token =>
    let (s, result) := s.revokeToken token
    (s, .done result)

def run (s : LocalNodePairingManager) (calls : List Call) : LocalNodePairingManager :=
  calls.foldl (fun s call => (s.step options call).1) s

def answerAfter (before : List Call) (call : Call) : Answer :=
  ((run options {} before).step options call).2

def history (s : LocalNodePairingManager) : List Call → List (Call × Answer)
  | [] => []
  | call :: calls => (call, (s.step options call).2) :: history (s.step options call).1 calls

def createdAt (origin : String) : Call × Answer → Option Int
  | (.createRequest header now _, .create (.created _)) =>
    if header = some origin then some now else none
  | _ => none

/-- Whether the call is a poll of the request that was answered with a token. -/
def returnsToken (requestId : String) : Call × Answer → Bool
  | (.pollRequest id _, .poll (some result)) => id = requestId ∧ result.token ≠ none
  | _ => false

def createdTimes (calls : List Call) (origin : String) : List Int :=
  (history options {} calls).filterMap (createdAt origin)

def tokenPolls (calls : List Call) (requestId : String) : List (Call × Answer) :=
  (history options {} calls).filter (returnsToken requestId)

/-- At most one request of an origin is pending, and it is the one the map names. -/
def Named (s : LocalNodePairingManager) : Prop :=
  ∀ request ∈ KeyedMap.values s.requests, request.status = .pending →
    s.pendingRequestIdsByOrigin.lookup request.origin = some request.id ∧
      ∀ other ∈ KeyedMap.values s.requests, other.status = .pending →
        other.origin = request.origin → other = request

def Ended (time : Int) (request : LocalNodePairingRequest) : Prop :=
  request.status = .denied ∨ request.status = .expired ∨
    request.status = .pending ∧ request.expiresAt ≤ time

def Issues (s : LocalNodePairingManager) (origin : Option String) (token : String) : Call → Prop
  | .createSession sessionOrigin _ sessionToken => sessionOrigin = origin ∧ sessionToken = token
  | .approveRequest requestId now _ sessionToken => sessionToken = token ∧
      ∃ request, (s.getActivePendingRequest requestId now).2 = some request ∧
        origin = some request.origin
  | _ => False

structure Sound (calls : List Call) : Prop where
  pending : ∀ before, before <+: calls → Named (run options {} before)
  limited : ∀ origin time, (createdTimes options calls origin).countP (fun createdAt =>
    time - options.pairingRateLimitWindowMs < createdAt ∧ createdAt ≤ time) ≤
      options.pairingRateLimitMax
  ended : ∀ before middle after requestId request time now completedAt token,
    calls = before ++ middle ++ .approveRequest requestId now completedAt token :: after →
    (run options {} before).requests.lookup requestId = some request → Ended time request →
    time ≤ now →
    answerAfter options (before ++ middle) (.approveRequest requestId now completedAt token) =
      .done false
  returnedOnce : ∀ requestId, (tokenPolls options calls requestId).length ≤ 1
  sessions : ∀ origin token, (run options {} calls).validateSession origin (some token) = true →
    ∃ before call after, calls = before ++ call :: after ∧
      Issues (run options {} before) origin token call ∧ .revokeToken token ∉ after

end Run

/-! ## Requests -/

/-- What a call does to a request that exists: it keeps its identity, and neither becomes pending
again nor hands its token out again. -/
structure Evolves (request request' : LocalNodePairingRequest) : Prop where
  origin : request'.origin = request.origin
  expiresAt : request'.expiresAt = request.expiresAt
  pending : request'.status = .pending → request.status = .pending
  returned : request.tokenReturned = true → request'.tokenReturned = true

theorem Evolves.refl (request : LocalNodePairingRequest) : Evolves request request :=
  ⟨rfl, rfl, id, id⟩

theorem Evolves.trans {a b c : LocalNodePairingRequest} (h : Evolves a b) (h' : Evolves b c) :
    Evolves a c :=
  ⟨h'.origin.trans h.origin, h'.expiresAt.trans h.expiresAt, h.pending ∘ h'.pending,
    h'.returned ∘ h.returned⟩

theorem evolves_expire (now : Int) (request : LocalNodePairingRequest) :
    Evolves request (expire now request) :=
  ⟨rfl, rfl, fun h => (by cases h), id⟩

/-- Every request of the second state comes from one of the first. -/
def Continues (s s' : LocalNodePairingManager) : Prop :=
  ∀ id request', s'.requests.lookup id = some request' →
    ∃ request, s.requests.lookup id = some request ∧ Evolves request request'

theorem continues_insert {s s' : LocalNodePairingManager} {requestId : String}
    {request request' : LocalNodePairingRequest} (h : s.requests.lookup requestId = some request)
    (hevolves : Evolves request request') (heq : s'.requests = s.requests.insert requestId request') :
    Continues s s' := by
  intro id r hr
  rw [heq, KeyedMap.lookup_insert_eq] at hr
  by_cases hid : id = requestId
  · rw [if_pos hid] at hr
    cases hr
    exact ⟨request, hid ▸ h, hevolves⟩
  · rw [if_neg hid] at hr
    exact ⟨r, hr, .refl r⟩

theorem lookup_prune {s : LocalNodePairingManager} {now : Int} {id : String}
    {request' : LocalNodePairingRequest} :
    (s.prune options now).requests.lookup id = some request' ↔
      ∃ request, s.requests.lookup id = some request ∧
        (if isOverdue now request then expire now request else request) = request' ∧
        isStale (now - options.terminalRequestRetentionMs) request' = false := by
  simp only [prune, KeyedMap.lookup_filter, KeyedMap.lookup_update, Option.filter_eq_some_iff,
    Option.map_eq_some_iff, Bool.not_eq_true']
  constructor
  · rintro ⟨⟨request, hrequest, heq⟩, hstale⟩
    exact ⟨request, hrequest, heq, hstale⟩
  · rintro ⟨request, hrequest, heq, hstale⟩
    exact ⟨⟨request, hrequest, heq⟩, hstale⟩

theorem continues_prune (s : LocalNodePairingManager) (now : Int) :
    Continues s (s.prune options now) := by
  intro id request' h
  obtain ⟨request, hrequest, rfl, -⟩ := (lookup_prune options).mp h
  refine ⟨request, hrequest, ?_⟩
  split
  · exact evolves_expire now request
  · exact .refl request

/-- What a call other than a creation or a pruning does to the requests: nothing, it ends one
pending request, or it marks the token of an approved one as returned. -/
inductive Moves (s s' : LocalNodePairingManager) : Prop where
  | same (requests : s'.requests = s.requests)
      (pending : s'.pendingRequestIdsByOrigin = s.pendingRequestIdsByOrigin)
  | ends {id : String} {request request' : LocalNodePairingRequest}
      (lookup : s.requests.lookup id = some request) (status : request.status = .pending)
      (evolves : Evolves request request') (sameId : request'.id = request.id)
      (ended : request'.status ≠ .pending)
      (requests : s'.requests = s.requests.insert id request')
      (pending : s'.pendingRequestIdsByOrigin = s.pendingRequestIdsByOrigin.erase request.origin)
  | returns {id : String} {request : LocalNodePairingRequest}
      (lookup : s.requests.lookup id = some request) (status : request.status = .approved)
      (requests : s'.requests = s.requests.insert id { request with tokenReturned := true })
      (pending : s'.pendingRequestIdsByOrigin = s.pendingRequestIdsByOrigin)

theorem Moves.continues {s s' : LocalNodePairingManager} (h : Moves s s') : Continues s s' := by
  cases h with
  | same hrequests hpending =>
    intro id request hrequest
    exact ⟨request, hrequests ▸ hrequest, .refl request⟩
  | ends hlookup hstatus hevolves hid hended hrequests hpending =>
    exact continues_insert hlookup hevolves hrequests
  | returns hlookup hstatus hrequests hpending =>
    refine continues_insert hlookup ?_ hrequests
    exact ⟨rfl, rfl, id, fun _ => rfl⟩

section Moving
variable {s : LocalNodePairingManager} {requestId : String} {now : Int}

/-- The active pending request is the one under the id, pending and not expired. -/
theorem getActivePendingRequest_cases (s : LocalNodePairingManager) (requestId : String) (now : Int) :
    (s.getActivePendingRequest requestId now = (s, none) ∧
      ∀ request, s.requests.lookup requestId = some request → request.status ≠ .pending) ∨
    (∃ request, s.requests.lookup requestId = some request ∧ request.status = .pending ∧
      request.expiresAt ≤ now ∧ s.getActivePendingRequest requestId now =
        ({ s with
            requests := s.requests.insert requestId (expire now request)
            pendingRequestIdsByOrigin := s.pendingRequestIdsByOrigin.erase request.origin }, none)) ∨
    ∃ request, s.requests.lookup requestId = some request ∧ request.status = .pending ∧
      now < request.expiresAt ∧ s.getActivePendingRequest requestId now = (s, some request) := by
  unfold getActivePendingRequest
  cases hlookup : s.requests.lookup requestId with
  | none => exact Or.inl ⟨rfl, by simp⟩
  | some request =>
    by_cases hstatus : request.status = .pending
    · by_cases hexpired : request.expiresAt ≤ now
      · exact Or.inr (Or.inl ⟨request, rfl, hstatus, hexpired, by simp [hstatus, hexpired]⟩)
      · exact Or.inr (Or.inr ⟨request, rfl, hstatus, by omega, by simp [hstatus, hexpired]⟩)
    · refine Or.inl ⟨by simp [hstatus], fun other hother => ?_⟩
      cases hother
      exact hstatus

theorem moves_expire {request : LocalNodePairingRequest}
    (hlookup : s.requests.lookup requestId = some request) (hstatus : request.status = .pending) :
    Moves s { s with
      requests := s.requests.insert requestId (expire now request)
      pendingRequestIdsByOrigin := s.pendingRequestIdsByOrigin.erase request.origin } :=
  .ends hlookup hstatus (evolves_expire now request) rfl (by simp [expire]) rfl rfl

theorem moves_approveRequest (s : LocalNodePairingManager) (requestId : String)
    (now completedAt : Int) (token : String) :
    Moves s (s.approveRequest requestId now completedAt token).1 := by
  unfold approveRequest
  obtain ⟨heq, -⟩ | ⟨request, hlookup, hstatus, -, heq⟩ | ⟨request, hlookup, hstatus, -, heq⟩ :=
    getActivePendingRequest_cases s requestId now
  · rw [heq]
    exact .same rfl rfl
  · rw [heq]
    exact moves_expire hlookup hstatus
  · rw [heq]
    refine .ends hlookup hstatus ?_ ?_ ?_ rfl rfl
    · exact ⟨rfl, rfl, fun h => (by cases h), id⟩
    · rfl
    · simp

theorem moves_denyRequest (s : LocalNodePairingManager) (requestId : String)
    (now completedAt : Int) : Moves s (s.denyRequest requestId now completedAt).1 := by
  unfold denyRequest
  obtain ⟨heq, -⟩ | ⟨request, hlookup, hstatus, -, heq⟩ | ⟨request, hlookup, hstatus, -, heq⟩ :=
    getActivePendingRequest_cases s requestId now
  · rw [heq]
    exact .same rfl rfl
  · rw [heq]
    exact moves_expire hlookup hstatus
  · rw [heq]
    refine .ends hlookup hstatus ?_ ?_ ?_ rfl rfl
    · exact ⟨rfl, rfl, fun h => (by cases h), id⟩
    · rfl
    · simp

theorem pollRequest_cases (s : LocalNodePairingManager) (requestId : String) (now : Int) :
    (Moves s (s.pollRequest requestId now).1 ∧
      ∀ result, (s.pollRequest requestId now).2 = some result → result.token = none) ∨
    ∃ request, s.requests.lookup requestId = some request ∧ request.status = .approved ∧
      request.tokenReturned = false ∧
      (s.pollRequest requestId now).1 =
        { s with requests := s.requests.insert requestId { request with tokenReturned := true } } := by
  unfold pollRequest
  cases hlookup : s.requests.lookup requestId with
  | none => exact Or.inl ⟨.same rfl rfl, by simp⟩
  | some request =>
    by_cases hoverdue : isOverdue now request = true
    · simp only [hoverdue, if_true]
      have hstatus : request.status = .pending := by
        simp only [isOverdue, decide_eq_true_eq] at hoverdue
        exact hoverdue.1
      refine Or.inl ⟨?_, ?_⟩
      · exact moves_expire hlookup hstatus
      · intro result hresult
        cases hresult
        rfl
    · simp only [hoverdue]
      by_cases hstatus : request.status = .approved
      · by_cases hreturned : request.tokenReturned = true ∨ request.token = none
        · refine Or.inl ⟨?_, ?_⟩
          · simp only [pollAnswer, hstatus, hreturned, if_true]
            exact .same rfl rfl
          · intro result hresult
            simp only [pollAnswer, hstatus, hreturned, if_true] at hresult
            cases hresult
            rfl
        · refine Or.inr ⟨request, rfl, hstatus, ?_, ?_⟩
          · simpa using (not_or.mp hreturned).1
          · simp [pollAnswer, hstatus, hreturned]
      · refine Or.inl ⟨?_, ?_⟩
        · simp only [pollAnswer, hstatus, if_false]
          exact .same rfl rfl
        · intro result hresult
          simp only [pollAnswer, hstatus, if_false] at hresult
          cases hresult
          rfl

theorem moves_pollRequest (s : LocalNodePairingManager) (requestId : String) (now : Int) :
    Moves s (s.pollRequest requestId now).1 := by
  obtain ⟨h, -⟩ | ⟨request, hlookup, hstatus, -, heq⟩ := pollRequest_cases s requestId now
  · exact h
  · rw [heq]
    exact .returns hlookup hstatus rfl rfl

end Moving

def newRequest (origin : String) (now : Int) (randomId : String) : LocalNodePairingRequest where
  createdAt := now
  expiresAt := now + options.pairingRequestTtlMs
  id := randomId
  origin := origin
  status := .pending

def attempts (s : LocalNodePairingManager) (origin : String) : List Int :=
  (s.pairingAttemptsByOrigin.lookup origin).getD []

theorem normalizeOrigin_eq_some [UrlParser] {header origin : String}
    (h : normalizeOrigin header = some origin) : origin = header := by
  unfold normalizeOrigin at h
  split at h
  · cases h
  · split at h
    · cases h
    · exact (Option.some.inj h).symm

/-- A call to create a request changes nothing, or prunes, or prunes and adds the request. -/
theorem createRequest_cases [UrlParser] (s : LocalNodePairingManager) (header : Option String)
    (now : Int) (randomId : String) :
    (((s.createRequest options header now randomId).1 = s ∨
      (s.createRequest options header now randomId).1 = s.prune options now) ∧
      ∀ id, (s.createRequest options header now randomId).2 ≠ .created id) ∨
    ∃ origin, header = some origin ∧ (s.prune options now).coalescing origin now = none ∧
      (recentAttempts options now ((s.prune options now).attempts origin)).length <
        options.pairingRateLimitMax ∧
      s.createRequest options header now randomId =
        ({ s.prune options now with
            pairingAttemptsByOrigin := (s.prune options now).pairingAttemptsByOrigin.insert origin
              (recentAttempts options now ((s.prune options now).attempts origin) ++ [now])
            requests := (s.prune options now).requests.insert randomId
              (newRequest options origin now randomId)
            pendingRequestIdsByOrigin :=
              (s.prune options now).pendingRequestIdsByOrigin.insert origin randomId },
          .created randomId) := by
  unfold createRequest
  cases header with
  | none => exact Or.inl ⟨Or.inl rfl, fun id h => by cases h⟩
  | some header =>
    dsimp only
    cases horigin : normalizeOrigin header with
    | none => exact Or.inl ⟨Or.inl rfl, fun id h => by cases h⟩
    | some origin =>
      dsimp only
      cases hpending : (s.prune options now).coalescing origin now with
      | some request => exact Or.inl ⟨Or.inr rfl, fun id h => by cases h⟩
      | none =>
        dsimp only
        by_cases hlimited : options.pairingRateLimitMax ≤
            (recentAttempts options now ((s.prune options now).attempts origin)).length
        · have hconsume : (s.prune options now).consumePairingAttempt options origin now =
              (s.prune options now, some (((recentAttempts options now
                ((s.prune options now).attempts origin)).head?).map fun first =>
                  options.pairingRateLimitWindowMs - (now - first))) := if_pos hlimited
          rw [hconsume]
          exact Or.inl ⟨Or.inr rfl, fun id h => by cases h⟩
        · have hconsume : (s.prune options now).consumePairingAttempt options origin now =
              ({ s.prune options now with
                  pairingAttemptsByOrigin := (s.prune options now).pairingAttemptsByOrigin.insert origin
                    (recentAttempts options now ((s.prune options now).attempts origin) ++ [now]) },
                none) := if_neg hlimited
          rw [hconsume]
          exact Or.inr ⟨origin, congrArg some (normalizeOrigin_eq_some horigin).symm, hpending,
            by omega, rfl⟩

/-! ## Pending requests -/

/-- The map of pending requests names exactly the pending requests. -/
structure Consistent (s : LocalNodePairingManager) : Prop where
  keyed : ∀ id request, s.requests.lookup id = some request → request.id = id
  named : ∀ id request, s.requests.lookup id = some request → request.status = .pending →
    s.pendingRequestIdsByOrigin.lookup request.origin = some id
  names : ∀ origin id, s.pendingRequestIdsByOrigin.lookup origin = some id →
    ∃ request, s.requests.lookup id = some request ∧ request.status = .pending ∧
      request.origin = origin

section Pending
variable {options} {s s' : LocalNodePairingManager}

theorem Consistent.named_values (h : Consistent s) : Named s := by
  intro request hrequest hstatus
  obtain ⟨id, hid⟩ := KeyedMap.mem_values.mp hrequest
  have hname := h.named id request hid hstatus
  refine ⟨by rw [hname, h.keyed id request hid], ?_⟩
  intro other hother hotherStatus horigin
  obtain ⟨otherId, hotherId⟩ := KeyedMap.mem_values.mp hother
  have hotherName := h.named otherId other hotherId hotherStatus
  rw [horigin, hname] at hotherName
  cases hotherName
  exact Option.some.inj (hotherId.symm.trans hid)

/-- A request is replaced by one that is not pending, and is no longer named if it was. -/
theorem Consistent.replace (h : Consistent s) {replaced : String}
    {request request' : LocalNodePairingRequest} (hlookup : s.requests.lookup replaced = some request)
    (hid : request'.id = request.id) (hended : request'.status ≠ .pending)
    (hrequests : s'.requests = s.requests.insert replaced request')
    (hpending : ∀ origin, s'.pendingRequestIdsByOrigin.lookup origin =
      if request.status = .pending ∧ origin = request.origin then none
      else s.pendingRequestIdsByOrigin.lookup origin) : Consistent s' := by
  refine ⟨?_, ?_, ?_⟩
  · intro id r hr
    rw [hrequests, KeyedMap.lookup_insert_eq] at hr
    by_cases heq : id = replaced
    · rw [if_pos heq] at hr
      cases hr
      rw [hid, heq, h.keyed replaced request hlookup]
    · rw [if_neg heq] at hr
      exact h.keyed id r hr
  · intro id r hr hr'
    rw [hrequests, KeyedMap.lookup_insert_eq] at hr
    by_cases heq : id = replaced
    · rw [if_pos heq] at hr
      cases hr
      exact absurd hr' hended
    · rw [if_neg heq] at hr
      have hother := h.named id r hr hr'
      rw [hpending, if_neg]
      · exact hother
      · rintro ⟨hstatus, horigin⟩
        rw [horigin, h.named replaced request hlookup hstatus] at hother
        exact heq (Option.some.inj hother).symm
  · intro origin id hlook
    rw [hpending] at hlook
    by_cases hgone : request.status = .pending ∧ origin = request.origin
    · rw [if_pos hgone] at hlook
      cases hlook
    · rw [if_neg hgone] at hlook
      obtain ⟨r, hr, hrStatus, hrOrigin⟩ := h.names origin id hlook
      have hne : id ≠ replaced := by
        rintro rfl
        rw [hlookup] at hr
        cases hr
        exact hgone ⟨hrStatus, hrOrigin.symm⟩
      refine ⟨r, ?_, hrStatus, hrOrigin⟩
      rw [hrequests, KeyedMap.lookup_insert_eq, if_neg hne]
      exact hr

theorem Consistent.moves (h : Consistent s) (hmoves : Moves s s') : Consistent s' := by
  cases hmoves with
  | same hrequests hpending =>
    refine ⟨?_, ?_, ?_⟩
    · rw [hrequests]
      exact h.keyed
    · rw [hrequests, hpending]
      exact h.named
    · rw [hrequests, hpending]
      exact h.names
  | ends hlookup hstatus hevolves hid hended hrequests hpending =>
    refine h.replace hlookup hid hended hrequests fun origin => ?_
    rw [hpending, KeyedMap.lookup_erase_eq]
    simp only [hstatus, true_and]
  | returns hlookup hstatus hrequests hpending =>
    refine h.replace hlookup ?_ ?_ hrequests fun origin => ?_
    · rfl
    · simp [hstatus]
    · rw [hpending, if_neg]
      simp [hstatus]

theorem pending_prune {now : Int} {id : String} {request : LocalNodePairingRequest} :
    (s.prune options now).requests.lookup id = some request ∧ request.status = .pending ↔
      s.requests.lookup id = some request ∧ request.status = .pending ∧ now < request.expiresAt := by
  rw [lookup_prune]
  constructor
  · rintro ⟨⟨r, hr, heq, -⟩, hstatus⟩
    by_cases hoverdue : isOverdue now r = true
    · rw [if_pos hoverdue] at heq
      rw [← heq] at hstatus
      cases hstatus
    · rw [if_neg hoverdue] at heq
      subst heq
      simp only [isOverdue, hstatus, true_and, decide_eq_true_eq] at hoverdue
      exact ⟨hr, hstatus, by omega⟩
  · rintro ⟨hr, hstatus, hlt⟩
    have hoverdue : isOverdue now request = false := by
      simp only [isOverdue, decide_eq_false_iff_not, not_and]
      intro _
      omega
    exact ⟨⟨request, hr, by simp [hoverdue], by simp [isStale, hstatus]⟩, hstatus⟩

theorem Consistent.prune (h : Consistent s) (now : Int) : Consistent (s.prune options now) := by
  have hmap : ∀ origin, (s.prune options now).pendingRequestIdsByOrigin.lookup origin =
      if origin ∈ ((KeyedMap.values s.requests).filter (isOverdue now)).map (·.origin) then none
      else s.pendingRequestIdsByOrigin.lookup origin := fun origin => KeyedMap.lookup_eraseAll _ _ _ _
  have hoverdue : ∀ id request, s.requests.lookup id = some request → request.status = .pending →
      (request.origin ∈ ((KeyedMap.values s.requests).filter (isOverdue now)).map (·.origin) ↔
        request.expiresAt ≤ now) := by
    intro id request hrequest hstatus
    rw [List.mem_map]
    constructor
    · rintro ⟨other, hother, horigin⟩
      obtain ⟨hmem, htest⟩ := List.mem_filter.mp hother
      obtain ⟨otherId, hotherId⟩ := KeyedMap.mem_values.mp hmem
      simp only [isOverdue, decide_eq_true_eq] at htest
      -- Both are pending for one origin, so the map names both and they are the same.
      have hname := h.named id request hrequest hstatus
      have hotherName := h.named otherId other hotherId htest.1
      rw [horigin, hname] at hotherName
      cases hotherName
      rw [hrequest] at hotherId
      cases hotherId
      exact htest.2
    · intro hle
      refine ⟨request, List.mem_filter.mpr ⟨KeyedMap.mem_values.mpr ⟨id, hrequest⟩, ?_⟩, rfl⟩
      simp [isOverdue, hstatus, hle]
  refine ⟨?_, ?_, ?_⟩
  · intro id request hrequest
    obtain ⟨r, hr, rfl, -⟩ := (lookup_prune options).mp hrequest
    have hid := h.keyed id r hr
    split
    · exact hid
    · exact hid
  · intro id request hrequest hstatus
    obtain ⟨hr, -, hlt⟩ := pending_prune.mp ⟨hrequest, hstatus⟩
    rw [hmap, if_neg]
    · exact h.named id request hr hstatus
    · rw [hoverdue id request hr hstatus]
      omega
  · intro origin id hlook
    rw [hmap] at hlook
    split at hlook
    · cases hlook
    · next hnot =>
      obtain ⟨r, hr, hstatus, rfl⟩ := h.names origin id hlook
      rw [hoverdue id r hr hstatus] at hnot
      have hlt : now < r.expiresAt := by omega
      exact ⟨r, (pending_prune.mpr ⟨hr, hstatus, hlt⟩).1, hstatus, rfl⟩

/-- After the pruning nothing pending is overdue, so a request that is not coalesced finds the
origin free. -/
theorem Consistent.create (h : Consistent s) {origin randomId : String} {now : Int}
    (hfresh : s.requests.lookup randomId = none)
    (hcoalescing : (s.prune options now).coalescing origin now = none)
    (hrequests : s'.requests = (s.prune options now).requests.insert randomId
      (newRequest options origin now randomId))
    (hpending : s'.pendingRequestIdsByOrigin =
      (s.prune options now).pendingRequestIdsByOrigin.insert origin randomId) : Consistent s' := by
  have hpruned : Consistent (s.prune options now) := h.prune now
  have hfree : (s.prune options now).pendingRequestIdsByOrigin.lookup origin = none := by
    cases hlook : (s.prune options now).pendingRequestIdsByOrigin.lookup origin with
    | none => rfl
    | some id =>
      obtain ⟨r, hr, hstatus, -⟩ := hpruned.names origin id hlook
      obtain ⟨-, -, hlt⟩ := pending_prune.mp ⟨hr, hstatus⟩
      simp [coalescing, hlook, hr, hstatus, hlt, Option.filter] at hcoalescing
  have hgone : (s.prune options now).requests.lookup randomId = none := by
    cases hlook : (s.prune options now).requests.lookup randomId with
    | none => rfl
    | some r =>
      obtain ⟨r', hr', -⟩ := continues_prune options s now randomId r hlook
      rw [hfresh] at hr'
      cases hr'
  refine ⟨?_, ?_, ?_⟩
  · intro id request hrequest
    rw [hrequests, KeyedMap.lookup_insert_eq] at hrequest
    by_cases heq : id = randomId
    · rw [if_pos heq] at hrequest
      cases hrequest
      exact heq.symm
    · rw [if_neg heq] at hrequest
      exact hpruned.keyed id request hrequest
  · intro id request hrequest hstatus
    rw [hpending, KeyedMap.lookup_insert_eq]
    rw [hrequests, KeyedMap.lookup_insert_eq] at hrequest
    by_cases heq : id = randomId
    · rw [if_pos heq] at hrequest
      cases hrequest
      simp [newRequest, heq]
    · rw [if_neg heq] at hrequest
      have hname := hpruned.named id request hrequest hstatus
      rw [if_neg]
      · exact hname
      · intro horigin
        rw [horigin, hfree] at hname
        cases hname
  · intro o id hlook
    rw [hpending, KeyedMap.lookup_insert_eq] at hlook
    by_cases horigin : o = origin
    · rw [if_pos horigin] at hlook
      cases hlook
      refine ⟨newRequest options origin now randomId, ?_, rfl, horigin.symm⟩
      rw [hrequests, KeyedMap.lookup_insert_eq, if_pos rfl]
    · rw [if_neg horigin] at hlook
      obtain ⟨r, hr, hstatus, hrOrigin⟩ := hpruned.names o id hlook
      refine ⟨r, ?_, hstatus, hrOrigin⟩
      rw [hrequests, KeyedMap.lookup_insert_eq, if_neg]
      · exact hr
      · rintro rfl
        rw [hgone] at hr
        cases hr

end Pending

/-! ## Steps and runs -/

section Steps
variable [UrlParser] {options} {s : LocalNodePairingManager}

theorem run_concat (s : LocalNodePairingManager) (calls : List Call) (call : Call) :
    run options s (calls ++ [call]) = ((run options s calls).step options call).1 := by
  rw [run, List.foldl_append]
  rfl

theorem history_concat (s : LocalNodePairingManager) (calls : List Call) (call : Call) :
    history options s (calls ++ [call]) =
      history options s calls ++ [(call, ((run options s calls).step options call).2)] := by
  induction calls generalizing s with
  | nil => rfl
  | cons first calls ih =>
    rw [List.cons_append, history, ih]
    rfl

variable (options) in
theorem step_cases (s : LocalNodePairingManager) (call : Call) :
    (Moves s (s.step options call).1 ∧ (s.step options call).1.pairingAttemptsByOrigin =
      s.pairingAttemptsByOrigin ∧ ∀ id, (s.step options call).2 ≠ .create (.created id)) ∨
    (∃ now ∈ call.clock, (s.step options call).1 = s.prune options now ∧
      ∀ id, (s.step options call).2 ≠ .create (.created id)) ∨
    ∃ origin now randomId, call = .createRequest (some origin) now randomId ∧
      (s.prune options now).coalescing origin now = none ∧
      (recentAttempts options now ((s.prune options now).attempts origin)).length <
        options.pairingRateLimitMax ∧
      s.step options call =
        ({ s.prune options now with
            pairingAttemptsByOrigin := (s.prune options now).pairingAttemptsByOrigin.insert origin
              (recentAttempts options now ((s.prune options now).attempts origin) ++ [now])
            requests := (s.prune options now).requests.insert randomId
              (newRequest options origin now randomId)
            pendingRequestIdsByOrigin :=
              (s.prune options now).pendingRequestIdsByOrigin.insert origin randomId },
          .create (.created randomId)) := by
  cases call with
  | createRequest header now randomId =>
    obtain ⟨hstate, hanswer⟩ | ⟨origin, rfl, hcoalescing, hlimit, heq⟩ :=
      createRequest_cases options s header now randomId
    · have hnot : ∀ id, (s.step options (.createRequest header now randomId)).2 ≠
          .create (.created id) := by
        intro id h
        exact hanswer id (Answer.create.inj h)
      cases hstate with
      | inl hsame =>
        refine Or.inl ⟨?_, ?_, hnot⟩
        · exact .same (congrArg requests hsame) (congrArg pendingRequestIdsByOrigin hsame)
        · exact congrArg pairingAttemptsByOrigin hsame
      | inr hpruned => exact Or.inr (Or.inl ⟨now, by simp [Call.clock], hpruned, hnot⟩)
    · refine Or.inr (Or.inr ⟨origin, now, randomId, rfl, hcoalescing, hlimit, ?_⟩)
      simp only [step, heq]
  | approveRequest requestId now completedAt token =>
    refine Or.inl ⟨moves_approveRequest s requestId now completedAt token, ?_, fun id h => by cases h⟩
    simp only [step, approveRequest]
    obtain ⟨heq, -⟩ | ⟨request, -, -, -, heq⟩ | ⟨request, -, -, -, heq⟩ :=
      getActivePendingRequest_cases s requestId now
    all_goals rw [heq]
  | denyRequest requestId now completedAt =>
    refine Or.inl ⟨moves_denyRequest s requestId now completedAt, ?_, fun id h => by cases h⟩
    simp only [step, denyRequest]
    obtain ⟨heq, -⟩ | ⟨request, -, -, -, heq⟩ | ⟨request, -, -, -, heq⟩ :=
      getActivePendingRequest_cases s requestId now
    all_goals rw [heq]
  | pollRequest requestId now =>
    refine Or.inl ⟨moves_pollRequest s requestId now, ?_, fun id h => by cases h⟩
    simp only [step, pollRequest, pollAnswer]
    repeat' split
    all_goals rfl
  | listPendingRequests now =>
    exact Or.inr (Or.inl ⟨now, by simp [Call.clock], rfl, fun id h => by cases h⟩)
  | createSession origin now token =>
    refine Or.inl ?_
    by_cases hinvalid : origin ≠ none ∧ origin.bind normalizeOrigin = none
    · simp only [step, createSession, if_pos hinvalid]
      exact ⟨.same rfl rfl, trivial, fun id h => by cases h⟩
    · simp only [step, createSession, if_neg hinvalid]
      exact ⟨.same rfl rfl, trivial, fun id h => by cases h⟩
  | revokeToken token => exact Or.inl ⟨.same rfl rfl, rfl, fun id h => by cases h⟩

theorem step_continues (s : LocalNodePairingManager) (call : Call) {id : String}
    (hnew : call.randomId ≠ some id) {request' : LocalNodePairingRequest}
    (h : (s.step options call).1.requests.lookup id = some request') :
    ∃ request, s.requests.lookup id = some request ∧ Evolves request request' := by
  obtain ⟨hmoves, -⟩ | ⟨now, -, heq, -⟩ | ⟨origin, now, randomId, rfl, -, -, heq⟩ :=
    step_cases options s call
  · exact hmoves.continues id request' h
  · rw [heq] at h
    exact continues_prune options s now id request' h
  · rw [heq, KeyedMap.lookup_insert_eq, if_neg] at h
    · exact continues_prune options s now id request' h
    · rintro rfl
      exact hnew rfl

theorem Consistent.step (h : Consistent s) (call : Call)
    (hfresh : ∀ id, call.randomId = some id → s.requests.lookup id = none) :
    Consistent (s.step options call).1 := by
  obtain ⟨hmoves, -⟩ | ⟨now, -, heq, -⟩ | ⟨origin, now, randomId, rfl, hcoalescing, -, heq⟩ :=
    step_cases options s call
  · exact h.moves hmoves
  · rw [heq]
    exact h.prune now
  · rw [heq]
    exact h.create (hfresh randomId rfl) hcoalescing rfl rfl

variable (options) in
theorem consistent_run (calls : List Call) (hids : (calls.filterMap Call.randomId).Nodup) :
    Consistent (run options {} calls) ∧ ∀ id request,
      (run options {} calls).requests.lookup id = some request →
        id ∈ calls.filterMap Call.randomId := by
  induction calls using List.reverseRecOn with
  | nil =>
    refine ⟨⟨?_, ?_, ?_⟩, ?_⟩
    · intro id request h
      cases h
    · intro id request h
      cases h
    · intro id request h
      cases h
    · intro id request h
      cases h
  | append_singleton calls call ih =>
    rw [List.filterMap_append, List.nodup_append] at hids
    obtain ⟨hbefore, -, hdisjoint⟩ := hids
    obtain ⟨hconsistent, hused⟩ := ih hbefore
    rw [run_concat]
    refine ⟨hconsistent.step call fun id hid => ?_, fun id request hrequest => ?_⟩
    · cases hlook : (run options {} calls).requests.lookup id with
      | none => rfl
      | some request =>
        exact absurd rfl (hdisjoint id (hused id request hlook) id (by simp [hid]))
    · rw [List.filterMap_append, List.mem_append]
      by_cases hnew : call.randomId = some id
      · exact Or.inr (by simp [hnew])
      · obtain ⟨r, hr, -⟩ := step_continues _ call hnew hrequest
        exact Or.inl (hused id r hr)

end Steps

/-! ## Rate limits -/

section Limits
variable [UrlParser] {options} {s : LocalNodePairingManager}

section
omit [UrlParser]

theorem recentAttempts_append (now : Int) (l l' : List Int) :
    recentAttempts options now (l ++ l') =
      recentAttempts options now l ++ recentAttempts options now l' := List.filter_append _ _

theorem recentAttempts_recentAttempts {now now' : Int} (h : now ≤ now') (l : List Int) :
    recentAttempts options now' (recentAttempts options now l) = recentAttempts options now' l := by
  unfold recentAttempts
  rw [List.filter_filter]
  refine List.filter_congr fun x _ => ?_
  simp only [Bool.and_eq_left_iff_imp, decide_eq_true_eq]
  omega

variable (options) in
theorem attempts_prune (s : LocalNodePairingManager) (now : Int) (origin : String) :
    (s.prune options now).attempts origin = recentAttempts options now (s.attempts origin) := by
  simp only [attempts, prune, KeyedMap.lookup_filter, KeyedMap.lookup_update]
  cases s.pairingAttemptsByOrigin.lookup origin with
  | none => rfl
  | some l =>
    simp only [Option.map_some, Option.getD_some, Option.filter]
    cases recentAttempts options now l with
    | nil => rfl
    | cons x l => rfl

theorem createdAt_eq_none {origin : String} {call : Call} {answer : Answer}
    (h : ∀ id, answer ≠ .create (.created id)) : createdAt origin (call, answer) = none := by
  unfold createdAt
  split
  · next heq =>
    cases heq
    exact absurd rfl (h _)
  · rfl

end

variable (options) in
/-- The attempts that are remembered are the creations of the last window. -/
theorem step_attempts (s : LocalNodePairingManager) (call : Call) (origin : String) {now' : Int}
    (hnow : ∀ x ∈ call.clock, x ≤ now') :
    recentAttempts options now' ((s.step options call).1.attempts origin) =
      recentAttempts options now'
        (s.attempts origin ++ (createdAt origin (call, (s.step options call).2)).toList) := by
  obtain ⟨-, hattempts, hanswer⟩ | ⟨now, hclock, heq, hanswer⟩ |
    ⟨created, now, randomId, rfl, -, -, heq⟩ := step_cases options s call
  · rw [createdAt_eq_none hanswer, Option.toList_none, List.append_nil, attempts, attempts, hattempts]
  · rw [createdAt_eq_none hanswer, Option.toList_none, List.append_nil, heq, attempts_prune options,
      recentAttempts_recentAttempts (hnow now hclock)]
  · have hle : now ≤ now' := hnow now (by simp [Call.clock])
    rw [heq]
    by_cases horigin : origin = created
    · subst horigin
      have hcreated : createdAt origin (.createRequest (some origin) now randomId,
          .create (.created randomId)) = some now := by simp [createdAt]
      rw [hcreated]
      simp only [attempts, KeyedMap.lookup_insert_eq, if_true, Option.getD_some, Option.toList_some]
      have hpruned := attempts_prune options s now origin
      unfold attempts at hpruned
      rw [hpruned, recentAttempts_append, recentAttempts_append, recentAttempts_recentAttempts hle,
        recentAttempts_recentAttempts hle]
    · have hcreated : createdAt origin (.createRequest (some created) now randomId,
          .create (.created randomId)) = none := by simp [createdAt, Ne.symm horigin]
      rw [hcreated, Option.toList_none, List.append_nil]
      simp only [attempts, KeyedMap.lookup_insert_eq, if_neg horigin]
      have hpruned := attempts_prune options s now origin
      unfold attempts at hpruned
      rw [hpruned, recentAttempts_recentAttempts hle]

theorem createdTimes_concat (calls : List Call) (call : Call) (origin : String) :
    createdTimes options (calls ++ [call]) origin = createdTimes options calls origin ++
      (createdAt origin (call, ((run options {} calls).step options call).2)).toList := by
  rw [createdTimes, history_concat, List.filterMap_append, createdTimes]
  congr 1

theorem attempts_run (calls : List Call) (origin : String) {now : Int}
    (hnow : ∀ x ∈ calls.flatMap Call.clock, x ≤ now) :
    recentAttempts options now ((run options {} calls).attempts origin) =
      recentAttempts options now (createdTimes options calls origin) := by
  induction calls using List.reverseRecOn with
  | nil => rfl
  | append_singleton calls call ih =>
    rw [List.flatMap_append] at hnow
    have hbefore := ih fun x hx => hnow x (List.mem_append_left _ hx)
    rw [run_concat, createdTimes_concat, step_attempts options _ _ _ fun x hx =>
      hnow x (List.mem_append_right _ (by simpa using hx))]
    rw [recentAttempts_append, recentAttempts_append, hbefore]

/-- A creation is only allowed while the window has room, so no window is ever overfull. -/
theorem limited_run (calls : List Call) (hclock : (calls.flatMap Call.clock).Pairwise (· ≤ ·))
    (origin : String) :
    (∀ x ∈ createdTimes options calls origin, x ∈ calls.flatMap Call.clock) ∧
      ∀ time, (createdTimes options calls origin).countP (fun createdAt =>
        time - options.pairingRateLimitWindowMs < createdAt ∧ createdAt ≤ time) ≤
          options.pairingRateLimitMax := by
  induction calls using List.reverseRecOn with
  | nil => simp [createdTimes, history]
  | append_singleton calls call ih =>
    rw [List.flatMap_append, List.pairwise_append] at hclock
    obtain ⟨hbefore, -, hlater⟩ := hclock
    obtain ⟨hmem, hcount⟩ := ih hbefore
    rw [createdTimes_concat]
    cases hentry : createdAt origin (call, ((run options {} calls).step options call).2) with
    | none =>
      simp only [Option.toList_none, List.append_nil]
      refine ⟨fun x hx => ?_, hcount⟩
      rw [List.flatMap_append]
      exact List.mem_append_left _ (hmem x hx)
    | some now =>
      obtain ⟨-, -, hanswer⟩ | ⟨-, -, -, hanswer⟩ | ⟨created, now', randomId, rfl, -, hlimit, heq⟩ :=
        step_cases options (run options {} calls) call
      · rw [createdAt_eq_none hanswer] at hentry
        cases hentry
      · rw [createdAt_eq_none hanswer] at hentry
        cases hentry
      have hsame : created = origin ∧ now' = now := by
        rw [heq] at hentry
        simpa [createdAt] using hentry
      obtain ⟨rfl, rfl⟩ := hsame
      have hnow : ∀ x ∈ calls.flatMap Call.clock, x ≤ now' := fun x hx =>
        hlater x hx now' (by simp [Call.clock])
      rw [attempts_prune options, recentAttempts_recentAttempts (Int.le_refl _),
        attempts_run calls created hnow] at hlimit
      simp only [Option.toList_some]
      refine ⟨?_, fun time => ?_⟩
      · intro x hx
        rw [List.flatMap_append, List.mem_append]
        cases List.mem_append.mp hx with
        | inl hold => exact Or.inl (hmem x hold)
        | inr hnew =>
          rw [List.mem_singleton.mp hnew]
          exact Or.inr (by simp [Call.clock])
      · rw [List.countP_append]
        have hold := hcount time
        by_cases hin : time - options.pairingRateLimitWindowMs < now' ∧ now' ≤ time
        · -- What is in this window is also recent at the creation.
          have hrecent : (createdTimes options calls created).countP (fun createdAt =>
              time - options.pairingRateLimitWindowMs < createdAt ∧ createdAt ≤ time) ≤
                (recentAttempts options now' (createdTimes options calls created)).length := by
            rw [recentAttempts, ← List.countP_eq_length_filter]
            refine List.countP_mono_left fun x _ hx => ?_
            simp only [decide_eq_true_eq] at hx ⊢
            omega
          have hone : [now'].countP (fun createdAt =>
              time - options.pairingRateLimitWindowMs < createdAt ∧ createdAt ≤ time) = 1 := by
            simp [hin]
          omega
        · have hzero : [now'].countP (fun createdAt =>
              time - options.pairingRateLimitWindowMs < createdAt ∧ createdAt ≤ time) = 0 := by
            simp only [List.countP_singleton, decide_eq_true_eq, hin, if_false]
          omega

end Limits

/-! ## Ended requests, tokens and sessions -/

section Tokens
variable [UrlParser] {options} {s : LocalNodePairingManager}

theorem run_evolves (calls : List Call) {requestId : String}
    (hnew : requestId ∉ calls.filterMap Call.randomId) {request' : LocalNodePairingRequest}
    (h : (run options s calls).requests.lookup requestId = some request') :
    ∃ request, s.requests.lookup requestId = some request ∧ Evolves request request' := by
  induction calls generalizing s with
  | nil => exact ⟨request', h, .refl request'⟩
  | cons call calls ih =>
    have hcall : call.randomId ≠ some requestId := fun heq => hnew (by simp [heq])
    have hrest : requestId ∉ calls.filterMap Call.randomId := by
      intro hmem
      obtain ⟨c, hc, hid⟩ := List.mem_filterMap.mp hmem
      exact hnew (List.mem_filterMap.mpr ⟨c, List.mem_cons_of_mem _ hc, hid⟩)
    obtain ⟨request, hrequest, hevolves⟩ := ih hrest h
    obtain ⟨first, hfirst, hevolvesFirst⟩ := step_continues s call hcall hrequest
    exact ⟨first, hfirst, hevolvesFirst.trans hevolves⟩

theorem run_append (s : LocalNodePairingManager) (before after : List Call) :
    run options s (before ++ after) = run options (run options s before) after := by
  rw [run, List.foldl_append]
  rfl

theorem approveRequest_ended {requestId : String} {now : Int}
    (h : ∀ request, s.requests.lookup requestId = some request → request.status = .pending →
      request.expiresAt ≤ now) (completedAt : Int) (token : String) :
    (s.step options (.approveRequest requestId now completedAt token)).2 = .done false := by
  simp only [step, approveRequest]
  obtain ⟨heq, -⟩ | ⟨request, -, -, -, heq⟩ | ⟨request, hlookup, hstatus, hlt, -⟩ :=
    getActivePendingRequest_cases s requestId now
  · rw [heq]
  · rw [heq]
  · have hle := h request hlookup hstatus
    omega

theorem ended_run (calls : List Call) (hids : (calls.filterMap Call.randomId).Nodup)
    {before middle after : List Call} {requestId token : String}
    {request : LocalNodePairingRequest} {time now completedAt : Int}
    (hcalls : calls = before ++ middle ++ .approveRequest requestId now completedAt token :: after)
    (hlookup : (run options {} before).requests.lookup requestId = some request)
    (hended : Ended time request) (hle : time ≤ now) :
    answerAfter options (before ++ middle) (.approveRequest requestId now completedAt token) =
      .done false := by
  rw [hcalls, List.filterMap_append, List.filterMap_append, List.nodup_append,
    List.nodup_append] at hids
  obtain ⟨⟨hbefore, -, hdisjoint⟩, -, -⟩ := hids
  have hused := (consistent_run options before hbefore).2 requestId request hlookup
  refine approveRequest_ended (fun request' hrequest' hstatus => ?_) completedAt token
  rw [run_append] at hrequest'
  have hnew : requestId ∉ middle.filterMap Call.randomId := fun hmem =>
    hdisjoint requestId hused requestId hmem rfl
  obtain ⟨r, hr, hevolves⟩ := run_evolves middle hnew hrequest'
  rw [hlookup] at hr
  cases hr
  have hpending := hevolves.pending hstatus
  rw [hevolves.expiresAt]
  obtain hdenied | hexpired | ⟨-, hexpires⟩ := hended
  · simp [hdenied] at hpending
  · simp [hexpired] at hpending
  · omega

theorem returnsToken_step {requestId : String} {call : Call}
    (h : returnsToken requestId (call, (s.step options call).2) = true) :
    ∃ request, s.requests.lookup requestId = some request ∧ request.tokenReturned = false ∧
      ∀ request', (s.step options call).1.requests.lookup requestId = some request' →
        request'.tokenReturned = true := by
  unfold returnsToken at h
  split at h
  · next id now result heq =>
    obtain ⟨rfl, hresult⟩ := Prod.mk.inj heq
    simp only [decide_eq_true_eq] at h
    obtain ⟨rfl, htoken⟩ := h
    have hpoll : (s.pollRequest id now).2 = some result := by
      simpa [step] using hresult
    obtain ⟨-, hnone⟩ | ⟨request, hlookup, -, hreturned, hstate⟩ := pollRequest_cases s id now
    · exact absurd (hnone result hpoll) htoken
    · refine ⟨request, hlookup, hreturned, fun request' hrequest' => ?_⟩
      simp only [step, hstate, KeyedMap.lookup_insert_eq, if_true] at hrequest'
      cases hrequest'
      rfl
  · cases h

theorem returnedOnce_run (calls : List Call) (hids : (calls.filterMap Call.randomId).Nodup)
    (requestId : String) :
    (tokenPolls options calls requestId).length ≤ 1 ∧
      (tokenPolls options calls requestId ≠ [] → requestId ∈ calls.filterMap Call.randomId ∧
        ∀ request, (run options {} calls).requests.lookup requestId = some request →
          request.tokenReturned = true) := by
  induction calls using List.reverseRecOn with
  | nil => simp [tokenPolls, history]
  | append_singleton calls call ih =>
    have hall := hids
    rw [List.filterMap_append, List.nodup_append] at hids
    obtain ⟨hbefore, -, hdisjoint⟩ := hids
    obtain ⟨hlength, hreturned⟩ := ih hbefore
    have hused := (consistent_run options calls hbefore).2
    have hpolls : tokenPolls options (calls ++ [call]) requestId =
        tokenPolls options calls requestId ++
          [(call, ((run options {} calls).step options call).2)].filter (returnsToken requestId) := by
      rw [tokenPolls, history_concat, List.filter_append]
      rfl
    rw [hpolls, run_concat]
    by_cases hreturns : returnsToken requestId (call, ((run options {} calls).step options call).2) = true
    · obtain ⟨request, hlookup, hfalse, hafter⟩ := returnsToken_step hreturns
      have hempty : tokenPolls options calls requestId = [] := by
        by_contra hne
        have htrue := (hreturned hne).2 request hlookup
        simp [hfalse] at htrue
      refine ⟨by simp [hempty, hreturns], fun _ => ⟨?_, hafter⟩⟩
      rw [List.filterMap_append]
      exact List.mem_append_left _ (hused requestId request hlookup)
    · have hnone : [(call, ((run options {} calls).step options call).2)].filter
          (returnsToken requestId) = [] := by simp [hreturns]
      rw [hnone, List.append_nil]
      refine ⟨hlength, fun hne => ?_⟩
      obtain ⟨hmem, htrue⟩ := hreturned hne
      refine ⟨by rw [List.filterMap_append]; exact List.mem_append_left _ hmem, ?_⟩
      intro request' hrequest'
      have hnew : call.randomId ≠ some requestId := fun heq =>
        hdisjoint requestId hmem requestId (by simp [heq]) rfl
      obtain ⟨request, hrequest, hevolves⟩ := step_continues _ call hnew hrequest'
      exact hevolves.returned (htrue request hrequest)

/-- A session is either older than the call, which does not revoke it, or issued by it. -/
theorem step_sessions (call : Call) {token : String} {session : LocalNodeSession}
    (h : (s.step options call).1.sessionsByToken.lookup token = some session) :
    (s.sessionsByToken.lookup token = some session ∧ call ≠ .revokeToken token) ∨
      Issues s session.origin token call := by
  cases call with
  | createRequest header now randomId =>
    refine Or.inl ⟨?_, by simp⟩
    obtain ⟨hstate, -⟩ | ⟨origin, -, -, -, heq⟩ := createRequest_cases options s header now randomId
    · simp only [step] at h
      cases hstate with
      | inl hsame => rwa [hsame] at h
      | inr hpruned => rwa [hpruned] at h
    · simp only [step, heq] at h
      exact h
  | approveRequest requestId now completedAt sessionToken =>
    simp only [step, approveRequest] at h
    obtain ⟨heq, -⟩ | ⟨request, -, -, -, heq⟩ | ⟨request, hlookup, hstatus, hlt, heq⟩ :=
      getActivePendingRequest_cases s requestId now
    · rw [heq] at h
      exact Or.inl ⟨h, by simp⟩
    · rw [heq] at h
      exact Or.inl ⟨h, by simp⟩
    · rw [heq, KeyedMap.lookup_insert_eq] at h
      by_cases htoken : token = sessionToken
      · rw [if_pos htoken] at h
        cases h
        exact Or.inr ⟨htoken.symm, request, by rw [heq], rfl⟩
      · rw [if_neg htoken] at h
        exact Or.inl ⟨h, by simp⟩
  | denyRequest requestId now completedAt =>
    refine Or.inl ⟨?_, by simp⟩
    simp only [step, denyRequest] at h
    obtain ⟨heq, -⟩ | ⟨request, -, -, -, heq⟩ | ⟨request, -, -, -, heq⟩ :=
      getActivePendingRequest_cases s requestId now
    all_goals
      rw [heq] at h
      exact h
  | pollRequest requestId now =>
    refine Or.inl ⟨?_, by simp⟩
    have hsessions : (s.pollRequest requestId now).1.sessionsByToken = s.sessionsByToken := by
      simp only [pollRequest, pollAnswer]
      repeat' split
      all_goals rfl
    simp only [step, hsessions] at h
    exact h
  | listPendingRequests now => exact Or.inl ⟨h, by simp⟩
  | createSession origin now sessionToken =>
    by_cases hinvalid : origin ≠ none ∧ origin.bind normalizeOrigin = none
    · simp only [step, createSession, if_pos hinvalid] at h
      exact Or.inl ⟨h, by simp⟩
    · simp only [step, createSession, if_neg hinvalid, KeyedMap.lookup_insert_eq] at h
      by_cases htoken : token = sessionToken
      · rw [if_pos htoken] at h
        cases h
        refine Or.inr ⟨?_, htoken.symm⟩
        cases horigin : origin with
        | none => rfl
        | some text =>
          cases hnormal : normalizeOrigin text with
          | none => exact absurd ⟨by simp [horigin], by simp [horigin, hnormal]⟩ hinvalid
          | some normalized => simp [hnormal, normalizeOrigin_eq_some hnormal]
      · rw [if_neg htoken] at h
        exact Or.inl ⟨h, by simp⟩
  | revokeToken revoked =>
    simp only [step, revokeToken, KeyedMap.lookup_erase_eq] at h
    by_cases htoken : token = revoked
    · rw [if_pos htoken] at h
      cases h
    · rw [if_neg htoken] at h
      refine Or.inl ⟨h, fun heq => htoken ?_⟩
      exact (Call.revokeToken.inj heq).symm

theorem session_run (calls : List Call) {token : String} {session : LocalNodeSession}
    (h : (run options {} calls).sessionsByToken.lookup token = some session) :
    ∃ before call after, calls = before ++ call :: after ∧
      Issues (run options {} before) session.origin token call ∧ .revokeToken token ∉ after := by
  induction calls using List.reverseRecOn with
  | nil => cases h
  | append_singleton calls call ih =>
    rw [run_concat] at h
    obtain ⟨hold, hnot⟩ | hissues := step_sessions call h
    · obtain ⟨before, issuing, after, rfl, hissues, hafter⟩ := ih hold
      refine ⟨before, issuing, after ++ [call], by simp, hissues, ?_⟩
      rw [List.mem_append, List.mem_singleton]
      rintro (hmem | heq)
      · exact hafter hmem
      · exact hnot heq.symm
    · exact ⟨calls, call, [], rfl, hissues, by simp⟩

omit [UrlParser] in
theorem validateSession_eq_true {origin : Option String} {token : String}
    (h : s.validateSession origin (some token) = true) :
    ∃ session, s.sessionsByToken.lookup token = some session ∧ session.origin = origin := by
  unfold validateSession at h
  cases hlookup : s.sessionsByToken.lookup token with
  | none => simp [hlookup] at h
  | some session =>
    refine ⟨session, rfl, ?_⟩
    simp only [hlookup] at h
    by_cases htoken : session.token = token
    · by_cases hnone : session.origin = none
      · simpa [htoken, hnone, eq_comm] using h
      · simpa [htoken, hnone, eq_comm] using h
    · simp [htoken] at h

end Tokens

/-- Whatever calls are made, at clock readings that do not decrease and with fresh request ids,
pairing is sound. -/
theorem pairing_sound [UrlParser] (calls : List Call)
    (hclock : (calls.flatMap Call.clock).Pairwise (· ≤ ·))
    (hids : (calls.filterMap Call.randomId).Nodup) : Sound options calls where
  pending := by
    rintro before ⟨after, rfl⟩
    rw [List.filterMap_append, List.nodup_append] at hids
    exact (consistent_run options before hids.1).1.named_values
  limited := fun origin time => (limited_run calls hclock origin).2 time
  ended := by
    intro before middle after requestId request time now completedAt token hcalls hlookup hended hle
    exact ended_run calls hids hcalls hlookup hended hle
  returnedOnce := fun requestId => (returnedOnce_run calls hids requestId).1
  sessions := by
    intro origin token h
    obtain ⟨session, hlookup, rfl⟩ := validateSession_eq_true h
    exact session_run calls hlookup

end LocalNodePairingManager

end EnboxDwn

namespace EnboxDwn.LocalNodePairingManager

/-- The parser on the one origin below. -/
local instance : UrlParser where
  parse url := if url = "https://app.example" then some ("https:", url) else none

/-- An origin is paired and polls for its token twice; a second request of it is denied, and a
session made without an origin is revoked. -/
def pairing : List Call :=
  [.createRequest (some "https://app.example") 0 "r1", .approveRequest "r1" 1000 1001 "t1",
    .pollRequest "r1" 2000, .pollRequest "r1" 3000,
    .createRequest (some "https://app.example") 4000 "r2", .denyRequest "r2" 5000 5000,
    .createSession none 6000 "t2", .revokeToken "t2"]

theorem sound_pairing : Sound {} pairing ∧
    createdTimes {} pairing "https://app.example" = [0, 4000] ∧
    (tokenPolls {} pairing "r1").length = 1 ∧
    (run {} {} pairing).validateSession (some "https://app.example") (some "t1") = true ∧
    (run {} {} pairing).validateSession none (some "t2") = false :=
  ⟨pairing_sound {} pairing (by decide) (by decide), by decide, by decide,
    by decide, by decide⟩

end EnboxDwn.LocalNodePairingManager
