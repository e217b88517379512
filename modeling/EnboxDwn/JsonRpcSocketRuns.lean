import EnboxDwn.JsonRpcSocket

/-! What holds of a JSON RPC socket in every order of calls, timers and events of its WebSockets:
promises settle once, one reconnect loop runs, and a closed socket stays closed. -/
namespace EnboxDwn.Clients

/-! ## Promises -/

namespace Rpc
variable (options : JsonRpcSocketOptions)

def Armed (rpc : Rpc) : Prop := ∀ r ∈ rpc.requests, r.outcome = none → r.timer = true

/-- The promises are still there, with their outcomes. -/
structure Advances (rpc rpc' : Rpc) : Prop where
  kept : ∀ (n : Nat) (r : RequestPromise), rpc.requests[n]? = some r → ∃ r' : RequestPromise,
    rpc'.requests[n]? = some r' ∧ ∀ outcome, r.outcome = some outcome → r'.outcome = some outcome
  armed : rpc.Armed → rpc'.Armed

theorem advances_of_requests_eq {rpc rpc' : Rpc} (h : rpc'.requests = rpc.requests) :
    rpc.Advances rpc' where
  kept n r hr := ⟨r, by rw [h, hr], fun _ ho => ho⟩
  armed harmed := by
    intro r hr
    rw [h] at hr
    exact harmed r hr

theorem Advances.refl (rpc : Rpc) : rpc.Advances rpc := advances_of_requests_eq rfl

theorem Advances.trans {a b c : Rpc} (hab : a.Advances b) (hbc : b.Advances c) : a.Advances c where
  kept n r hr := by
    obtain ⟨r', hr', hkept⟩ := hab.kept n r hr
    obtain ⟨r'', hr'', hkept'⟩ := hbc.kept n r' hr'
    exact ⟨r'', hr'', fun outcome ho => hkept' outcome (hkept outcome ho)⟩
  armed h := hbc.armed (hab.armed h)

theorem advances_setRequest {rpc : Rpc} {n : Nat} {r r' : RequestPromise}
    (hr : rpc.requests[n]? = some r)
    (hkept : ∀ outcome, r.outcome = some outcome → r'.outcome = some outcome)
    (harmed : (r.outcome = none → r.timer = true) → r'.outcome = none → r'.timer = true) :
    rpc.Advances (rpc.setRequest n r') where
  kept m q hq := by
    change ∃ q', (rpc.requests.set n r')[m]? = some q' ∧ _
    rw [List.getElem?_set]
    by_cases hmn : n = m
    · subst hmn
      obtain ⟨hlt, -⟩ := List.getElem?_eq_some_iff.mp hr
      rw [hr] at hq
      cases hq
      exact ⟨r', by rw [if_pos rfl, if_pos hlt], hkept⟩
    · exact ⟨q, by rw [if_neg hmn, hq], fun _ ho => ho⟩
  armed h := by
    intro q hq
    obtain hmem | rfl := List.mem_or_eq_of_mem_set hq
    · exact h q hmem
    · exact harmed (h r (List.mem_of_getElem? hr))

theorem settle_outcome (r : RequestPromise) (outcome : Outcome) :
    (r.settle outcome).outcome = some (r.outcome.getD outcome) := by
  cases h : r.outcome <;> simp [RequestPromise.settle, h]

theorem advances_settle {rpc : Rpc} {n : Nat} {r : RequestPromise} (hr : rpc.requests[n]? = some r)
    (outcome : Outcome) : rpc.Advances (rpc.setRequest n (r.settle outcome)) := by
  apply advances_setRequest hr
  · intro o ho
    rw [settle_outcome, ho]
    rfl
  · intro _ hnone
    rw [settle_outcome] at hnone
    cases hnone

theorem advances_push {rpc rpc' : Rpc} {r : RequestPromise} (h : rpc'.requests = rpc.requests ++ [r])
    (hr : r.outcome = none → r.timer = true) : rpc.Advances rpc' where
  kept n q hq := by
    obtain ⟨hlt, -⟩ := List.getElem?_eq_some_iff.mp hq
    exact ⟨q, by rw [h, List.getElem?_append_left hlt, hq], fun _ ho => ho⟩
  armed harmed := by
    intro q hq
    rw [h] at hq
    obtain hmem | hnew := List.mem_append.mp hq
    · exact harmed q hmem
    · cases List.mem_singleton.mp hnew
      exact hr

theorem advances_requestWithProgress (rpc : Rpc) (socket : Option Nat) (g : Given)
    (id : Option JsonRpcId) : rpc.Advances (rpc.requestWithProgress options socket g id) := by
  unfold requestWithProgress
  cases socket with
  | none => exact advances_push rfl nofun
  | some socket =>
    dsimp only
    cases g.sendError with
    | none => exact advances_push rfl fun _ => rfl
    | some error => exact advances_push rfl nofun

theorem advances_closing (rpc : Rpc) (socket : Option Nat) (g : Given) (id : JsonRpcId) :
    rpc.Advances ((rpc.deleteSubscriptionHandler id).closeSubscription options socket g) := by
  have hdeleted : rpc.Advances (rpc.deleteSubscriptionHandler id) := advances_of_requests_eq rfl
  exact hdeleted.trans (advances_requestWithProgress options _ socket g none)

theorem advances_expire (rpc : Rpc) (g : Given) (n : Nat) : rpc.Advances (rpc.expire g n) := by
  unfold expire
  cases hr : rpc.requests[n]? with
  | none => exact .refl rpc
  | some r =>
    dsimp only
    split
    · exact .refl rpc
    · split
      · exact .refl rpc
      · have hdeleted : rpc.Advances (rpc.deleteHandler r.id) := advances_of_requests_eq rfl
        exact hdeleted.trans (advances_settle (by exact hr) _)

theorem restoreHandler_requests (rpc : Rpc) (n : Nat) (sub : Subscription) :
    (rpc.restoreHandler n sub).requests = rpc.requests := by
  unfold restoreHandler
  split
  · rfl
  · split <;> rfl

theorem advances_subscribe (rpc : Rpc) (socket : Option Nat) (g : Given) (method : String)
    (id subscription : Option JsonRpcId) :
    rpc.Advances (rpc.subscribe options socket g method id subscription) := by
  unfold subscribe
  split
  · cases subscription with
    | none => exact .refl rpc
    | some subscriptionId =>
      dsimp only
      generalize hsub : Subscription.mk _ _ _ _ _ = sub
      have hadded : rpc.Advances (rpc.addSubscription sub) := advances_of_requests_eq rfl
      exact hadded.trans (advances_requestWithProgress options _ socket g id)
  · exact .refl rpc

theorem advances_subscribed (rpc : Rpc) (socket : Option Nat) (g : Given) (n : Nat) :
    rpc.Advances (rpc.subscribed options socket g n) := by
  unfold subscribed
  split
  · exact .refl rpc
  · next sub _ =>
    split
    · exact .refl rpc
    · split
      · exact .refl rpc
      · -- the entry of the subscription changes first
        have hentry : rpc.Advances (rpc.setSubscription n
            { sub with refreshTimeout := false, settled := true }) := advances_of_requests_eq rfl
        apply hentry.trans
        dsimp only
        split
        · have hrestored := advances_of_requests_eq (restoreHandler_requests
            (rpc.setSubscription n { sub with refreshTimeout := false, settled := true }) n sub)
          split
          · exact hrestored.trans (advances_closing options _ socket g sub.id)
          · exact hrestored
        · split
          · exact advances_of_requests_eq (restoreHandler_requests _ n sub)
          · exact .refl _

theorem advances_close (rpc : Rpc) (socket : Option Nat) (g : Given) (n : Nat) :
    rpc.Advances (rpc.close options socket g n) := by
  unfold close
  cases rpc.subscriptions[n]? with
  | none => exact .refl rpc
  | some sub => exact advances_closing options rpc socket g sub.id

theorem advances_handlePong (rpc : Rpc) (pingId : JsonRpcId) :
    rpc.Advances (rpc.handlePong pingId) := by
  unfold handlePong
  dsimp only
  split <;> exact advances_of_requests_eq rfl

theorem advances_handleProbe (rpc : Rpc) (n : Nat) (response : JsonRpcResponse) :
    rpc.Advances (rpc.handleProbe n response) := by
  unfold handleProbe
  split
  · exact .refl rpc
  · split <;> exact advances_of_requests_eq rfl

theorem advances_handleSubscription (rpc : Rpc) (socket : Option Nat) (g : Given) (n : Nat)
    (response : JsonRpcResponse) :
    rpc.Advances (rpc.handleSubscription options socket g n response) := by
  unfold handleSubscription
  split
  · exact .refl rpc
  · next sub _ =>
    split
    · exact .refl rpc
    · dsimp only
      cases hr : rpc.requests[sub.request]?.filter fun _ => sub.refreshTimeout with
      | none =>
        dsimp only
        split
        · exact advances_closing options rpc socket g sub.id
        · exact .refl rpc
      | some r =>
        obtain ⟨hrequest, -⟩ := Option.filter_eq_some_iff.mp hr
        have hrefreshed : rpc.Advances (rpc.setRequest sub.request
            { r with deadline := g.now + options.responseTimeout }) :=
          advances_setRequest hrequest (fun _ ho => ho) fun h => h
        dsimp only
        split
        · exact hrefreshed.trans (advances_closing options _ socket g sub.id)
        · exact hrefreshed

theorem advances_handleResponse (rpc : Rpc) (n : Nat) (response : JsonRpcResponse) :
    rpc.Advances (rpc.handleResponse n response) := by
  unfold handleResponse
  cases hr : rpc.requests[n]? with
  | none => exact .refl rpc
  | some r =>
    dsimp only
    split
    · exact .refl rpc
    · have hdeleted : rpc.Advances (rpc.deleteHandler r.id) := advances_of_requests_eq rfl
      exact hdeleted.trans (advances_settle (by exact hr) _)

theorem advances_handle (rpc : Rpc) (socket : Option Nat) (g : Given) (response : JsonRpcResponse)
    (handler : Handler) : rpc.Advances (rpc.handle options socket g response handler) := by
  cases handler with
  | request n => exact advances_handleResponse rpc n response
  | subscription n => exact advances_handleSubscription options rpc socket g n response
  | heartbeat pingId => exact advances_handlePong rpc pingId
  | probe n => exact advances_handleProbe rpc n response

theorem advances_receive (rpc : Rpc) (socket : Option Nat) (g : Given)
    (response : JsonRpcResponse) : rpc.Advances (rpc.receive options socket g response) := by
  unfold receive
  split
  · exact advances_handle options rpc socket g response _
  · exact .refl rpc

theorem advances_rejectPendingRequest (rpc : Rpc) (socket : Option Nat) (g : Given)
    (id : JsonRpcId) : rpc.Advances (rejectPendingRequest options socket g rpc id) := by
  unfold rejectPendingRequest
  split
  · exact .refl rpc
  · split
    · exact .refl rpc
    · exact (advances_handle options rpc socket g _ _).trans (advances_of_requests_eq rfl)

theorem advances_rejectPendingRequests (rpc : Rpc) (socket : Option Nat) (g : Given) :
    rpc.Advances (rpc.rejectPendingRequests options socket g) := by
  unfold rejectPendingRequests
  generalize rpc.messageHandlers.keys = ids
  induction ids generalizing rpc with
  | nil => exact .refl rpc
  | cons id ids ih =>
    rw [List.foldl_cons]
    exact (advances_rejectPendingRequest options rpc socket g id).trans (ih _)

theorem advances_heartbeat (rpc : Rpc) (socket : Option Nat) (g : Given) :
    rpc.Advances (rpc.heartbeat socket g) := by
  unfold heartbeat
  split
  · exact .refl rpc
  · dsimp only
    split <;> exact advances_of_requests_eq rfl

/-- The timer of a request that waits settles it once its deadline has passed. -/
theorem expire_settles {rpc : Rpc} {g : Given} {n : Nat} {r : RequestPromise}
    (hr : rpc.requests[n]? = some r) (htimer : r.timer = true) (hdue : r.deadline ≤ g.now) :
    ∃ r', (rpc.expire g n).requests[n]? = some r' ∧ r'.outcome.isSome = true := by
  refine ⟨r.settle (.rejected "request timed out"), ?_, by rw [settle_outcome]; rfl⟩
  unfold expire
  rw [hr]
  dsimp only
  rw [if_neg (by rw [htimer]; exact Bool.false_ne_true.symm), if_neg (by omega)]
  change (rpc.requests.set n _)[n]? = _
  rw [List.getElem?_set_self (List.getElem?_eq_some_iff.mp hr).1]

end Rpc

/-! ## Reconnect loops -/

namespace Link
variable (options : JsonRpcSocketOptions)

def Running (l : Link) (i : Nat) : Prop := ∃ loop, l.loops[i]? = some loop ∧ loop.point ≠ .ended

/-- At most one loop runs, and while it runs the flag says so. -/
structure Single (l : Link) : Prop where
  flagged : ∀ i, l.Running i → l.reconnecting = true
  unique : ∀ i j, l.Running i → l.Running j → i = j

/-- A socket that was closed stays closed and adopts no other WebSocket. -/
structure Steady (l l' : Link) : Prop where
  closed : l.closedByUser = true → l'.closedByUser = true
  socket : l.closedByUser = true → l'.socket = l.socket
  wired : l.closedByUser = true → ∀ socket ∈ l'.wired, socket ∈ l.wired

theorem Steady.of_eq {l l' : Link} (hclosed : l'.closedByUser = l.closedByUser)
    (hsocket : l'.socket = l.socket) (hwired : ∀ socket ∈ l'.wired, socket ∈ l.wired) :
    l.Steady l' :=
  ⟨fun h => hclosed.trans h, fun _ => hsocket, fun _ => hwired⟩

theorem running_setLoop {l : Link} {i j : Nat} {loop : Loop} (h : (l.setLoop i loop).Running j) :
    (i = j ∧ loop.point ≠ .ended) ∨ (i ≠ j ∧ l.Running j) := by
  obtain ⟨loop', hloop', hpoint⟩ := h
  change (l.loops.set i loop)[j]? = some loop' at hloop'
  rw [List.getElem?_set] at hloop'
  by_cases hij : i = j
  · rw [if_pos hij] at hloop'
    split at hloop'
    · cases hloop'
      exact Or.inl ⟨hij, hpoint⟩
    · cases hloop'
  · rw [if_neg hij] at hloop'
    exact Or.inr ⟨hij, loop', hloop', hpoint⟩

theorem single_setLoop {l l' : Link} {i : Nat} {loop : Loop} (halone : ∀ j, l.Running j → j = i)
    (hloops : l'.loops = l.loops.set i loop) (hflag : loop.point ≠ .ended → l'.reconnecting = true) :
    l'.Single := by
  have honly : ∀ j, l'.Running j → i = j ∧ loop.point ≠ .ended := by
    rintro j ⟨loop', hloop', hpoint⟩
    rw [hloops] at hloop'
    obtain hhere | ⟨hne, hother⟩ := running_setLoop (l := l) ⟨loop', hloop', hpoint⟩
    · exact hhere
    · exact absurd (halone j hother).symm hne
  constructor
  · intro j hj
    exact hflag (honly j hj).2
  · intro j k hj hk
    exact (honly j hj).1.symm.trans (honly k hk).1

theorem Single.alone {l : Link} (h : l.Single) {i : Nat} (hi : l.Running i) :
    ∀ j, l.Running j → j = i := fun j hj => h.unique j i hj hi

theorem Single.of_loops_eq {l l' : Link} (h : l.Single) (hloops : l'.loops = l.loops)
    (hflag : l'.reconnecting = l.reconnecting) : l'.Single := by
  have hrunning : ∀ i, l'.Running i → l.Running i := by
    rintro i ⟨loop, hloop, hpoint⟩
    exact ⟨loop, hloops ▸ hloop, hpoint⟩
  constructor
  · intro i hi
    exact hflag.trans (h.flagged i (hrunning i hi))
  · intro i j hi hj
    exact h.unique i j (hrunning i hi) (hrunning j hj)

/-- What one step may do to the connection and its loops. -/
inductive Change (l : Link) : Link → Prop where
  | same : Change l l
  | disconnect (wired : List Nat) (h : ∀ socket ∈ wired, socket ∈ l.wired) :
      Change l { l with isConnected := false, wired := wired }
  | close : Change l (wakeReconnect { l with closedByUser := true, isConnected := false })
  | wake : Change l l.wakeReconnect
  | start (offline : Bool) (h : l.reconnecting = false) : Change l (l.attemptReconnect options offline)
  | move (i : Nat) (loop : Loop) (reconnectWake : Option Nat) (nextSocket : Nat)
      (h : l.Running i) : Change l { l.setLoop i loop with reconnectWake, nextSocket }
  | finish (i attempt : Nat) (h : l.Running i) : Change l (l.endLoop i attempt)
  | adopt (i attempt socket : Nat) (h : l.Running i) (hopen : l.closedByUser = false) :
      Change l (l.adopt i attempt socket)

variable {options}

theorem wakeReconnect_fields (l : Link) : l.wakeReconnect.closedByUser = l.closedByUser ∧
    l.wakeReconnect.socket = l.socket ∧ l.wakeReconnect.wired = l.wired ∧
      l.wakeReconnect.reconnecting = l.reconnecting := by
  unfold wakeReconnect
  split <;> exact ⟨rfl, rfl, rfl, rfl⟩

theorem running_wakeReconnect {l : Link} {i : Nat} (h : l.wakeReconnect.Running i) :
    l.Running i := by
  unfold wakeReconnect at h
  split at h
  · exact h
  · next n _ =>
    obtain ⟨loop', hloop', hpoint⟩ := h
    change (l.loops.modify n Loop.awaken)[i]? = some loop' at hloop'
    rw [List.getElem?_modify] at hloop'
    obtain ⟨loop, hloop, rfl⟩ := Option.map_eq_some_iff.mp hloop'
    refine ⟨loop, hloop, ?_⟩
    intro hended
    apply hpoint
    by_cases hin : n = i
    · rw [if_pos hin, Loop.awaken, hended]
      exact hended
    · rw [if_neg hin]
      exact hended

theorem Single.wakeReconnect {l : Link} (h : l.Single) : l.wakeReconnect.Single := by
  constructor
  · intro i hi
    rw [(wakeReconnect_fields l).2.2.2]
    exact h.flagged i (running_wakeReconnect hi)
  · intro i j hi hj
    exact h.unique i j (running_wakeReconnect hi) (running_wakeReconnect hj)

theorem single_tryReconnect {l : Link} {offline : Bool} {i attempt : Nat}
    (halone : ∀ j, l.Running j → j = i) (hflag : l.reconnecting = true) :
    (l.tryReconnect options offline i attempt).Single := by
  have hend : (l.endLoop i attempt).Single :=
    single_setLoop halone rfl fun h => absurd rfl h
  unfold tryReconnect
  split
  · exact hend
  · split
    · exact hend
    · unfold waitWhileExplicitlyOffline
      split <;> exact single_setLoop halone rfl fun _ => hflag

theorem tryReconnect_fields (options : JsonRpcSocketOptions) (l : Link) (offline : Bool) (i attempt : Nat) :
    (l.tryReconnect options offline i attempt).closedByUser = l.closedByUser ∧
      (l.tryReconnect options offline i attempt).socket = l.socket ∧
        (l.tryReconnect options offline i attempt).wired = l.wired := by
  unfold tryReconnect
  split
  · exact ⟨rfl, rfl, rfl⟩
  · split
    · exact ⟨rfl, rfl, rfl⟩
    · unfold waitWhileExplicitlyOffline
      split <;> exact ⟨rfl, rfl, rfl⟩

theorem single_attemptReconnect {l : Link} (h : l.Single) (hflag : l.reconnecting = false)
    (offline : Bool) : (l.attemptReconnect options offline).Single := by
  apply single_tryReconnect
  · rintro j ⟨loop, hloop, hpoint⟩
    rw [List.getElem?_append] at hloop
    split at hloop
    · have hrunning := h.flagged j ⟨loop, hloop, hpoint⟩
      rw [hflag] at hrunning
      cases hrunning
    · next hge =>
      have hlt := (List.getElem?_eq_some_iff.mp hloop).1
      simp only [List.length_singleton] at hlt
      omega
  · rfl

theorem Change.single {l l' : Link} (hchange : Change options l l') (h : l.Single) : l'.Single := by
  cases hchange with
  | same => exact h
  | disconnect wired _ => exact h.of_loops_eq rfl rfl
  | close =>
    have hclosed : Single { l with closedByUser := true, isConnected := false } :=
      h.of_loops_eq rfl rfl
    exact hclosed.wakeReconnect
  | wake => exact h.wakeReconnect
  | start offline hflag => exact single_attemptReconnect h hflag offline
  | move i loop reconnectWake nextSocket hi =>
    exact single_setLoop (h.alone hi) rfl fun _ => h.flagged i hi
  | finish i attempt hi => exact single_setLoop (h.alone hi) rfl fun hne => absurd rfl hne
  | adopt i attempt socket hi _ => exact single_setLoop (h.alone hi) rfl fun hne => absurd rfl hne

theorem Change.steady {l l' : Link} (hchange : Change options l l') : l.Steady l' := by
  cases hchange with
  | same => exact .of_eq rfl rfl fun _ h => h
  | disconnect wired hwired => exact .of_eq rfl rfl hwired
  | close =>
    obtain ⟨hclosed, hsocket, hwired, -⟩ :=
      wakeReconnect_fields { l with closedByUser := true, isConnected := false }
    exact ⟨fun _ => hclosed, fun _ => hsocket, fun _ => by rw [hwired]; exact fun _ h => h⟩
  | wake =>
    obtain ⟨hclosed, hsocket, hwired, -⟩ := wakeReconnect_fields l
    exact .of_eq hclosed hsocket (by rw [hwired]; exact fun _ h => h)
  | start offline _ =>
    obtain ⟨hclosed, hsocket, hwired⟩ := tryReconnect_fields options
      { l with reconnecting := true, loops := l.loops ++ [⟨0, .ended⟩] } offline l.loops.length 0
    exact .of_eq hclosed hsocket (by unfold attemptReconnect; rw [hwired]; exact fun _ h => h)
  | move => exact .of_eq rfl rfl fun _ h => h
  | finish => exact .of_eq rfl rfl fun _ h => h
  | adopt i attempt socket _ hopen =>
    constructor <;>
    · intro hclosed
      rw [hopen] at hclosed
      cases hclosed

end Link

/-! ## Steps -/

namespace JsonRpcSocket
variable {options : JsonRpcSocketOptions}

theorem change_closeDeadConnection {s : JsonRpcSocket} {l : Link} (h : s.link = l) :
    Link.Change options l s.closeDeadConnection.link := by
  subst h
  unfold closeDeadConnection
  split
  · exact .same
  · exact .disconnect s.link.wired fun _ h => h

theorem change_checkHealth (s : JsonRpcSocket) (g : Given) :
    Link.Change options s.link (s.checkHealth options g).link := by
  unfold checkHealth
  split
  · exact .same
  · split
    · split
      · exact .wake
      · next hflag =>
        split
        · exact .start g.offline (by simpa using hflag)
        · exact .same
    · split
      · exact .same
      · unfold probeConnection
        dsimp only
        split
        · exact change_closeDeadConnection rfl
        · exact .same

theorem change_call (s : JsonRpcSocket) (g : Given) (c : Call) :
    Link.Change options s.link (s.call options g c).link := by
  cases c with
  | checkHealth => exact change_checkHealth s g
  | close => exact .close
  | _ => exact .same

theorem change_waitWhileExplicitlyOffline {l : Link} {offline : Bool} {i attempt : Nat}
    {again waited : Bool} (h : l.Running i) :
    Link.Change options l (l.waitWhileExplicitlyOffline offline i attempt again waited) := by
  unfold Link.waitWhileExplicitlyOffline
  split
  · exact .move i _ (some i) l.nextSocket h
  · exact .move i _ l.reconnectWake l.nextSocket h

theorem change_tryReconnect {l : Link} {offline : Bool} {i attempt : Nat} (h : l.Running i) :
    Link.Change options l (l.tryReconnect options offline i attempt) := by
  unfold Link.tryReconnect
  split
  · exact .finish i attempt h
  · split
    · exact .finish i attempt h
    · exact change_waitWhileExplicitlyOffline h

theorem change_resumeLoop (s : JsonRpcSocket) (g : Given) (i : Nat) :
    Link.Change options s.link (s.resumeLoop options g i).link := by
  unfold resumeLoop
  split
  · next hloop => exact change_waitWhileExplicitlyOffline ⟨_, hloop, nofun⟩
  · next hloop =>
    split
    · exact .finish i _ ⟨_, hloop, nofun⟩
    · exact .same
  · next hloop => exact change_waitWhileExplicitlyOffline ⟨_, hloop, nofun⟩
  · next hloop =>
    split
    · exact .finish i _ ⟨_, hloop, nofun⟩
    · exact .move i _ s.link.reconnectWake (s.link.nextSocket + 1) ⟨_, hloop, nofun⟩
  · next hloop =>
    split
    · exact .finish i _ ⟨_, hloop, nofun⟩
    · next hopen => exact .adopt i _ _ ⟨_, hloop, nofun⟩ (by simpa using hopen)
  · next hloop => exact change_tryReconnect ⟨_, hloop, nofun⟩
  · exact .same

variable (options)

/-- A late close event finds its successor down already, nothing waiting on it, and a loop that runs
wherever reconnection is wanted; and no handler throws after a reconnection. -/
def Meets (s : JsonRpcSocket) (e : Event) : Prop :=
  match s.callback, e.action with
  | none, .closed socket => socket ∈ s.link.wired → socket ≠ s.link.socket →
      s.link.isConnected = false ∧
        ∀ r ∈ s.rpc.requests, r.socket = s.link.socket → r.outcome.isSome = true
  | some (.onclose socket goesOn), .callbackEnds threw => socket ≠ s.link.socket →
      goesOn = true → threw = false → options.autoReconnect = true → s.link.reconnecting = true
  | some (.onreconnected _), .callbackEnds threw => threw = false
  | _, _ => True

variable {options}

theorem change_callbackEnds {s : JsonRpcSocket} {g : Given} {threw : Bool} {callback : Callback}
    (h : ∀ i, callback = .onreconnected i → threw = false) :
    Link.Change options s.link (s.callbackEnds options g threw callback).link := by
  unfold callbackEnds
  cases callback with
  | onclose socket goesOn =>
    dsimp only
    split
    · next hall => exact .start g.offline hall.2.2.2
    · exact .same
  | onreconnecting i =>
    dsimp only
    split
    · next hloop =>
      split
      · exact .move i _ s.link.reconnectWake s.link.nextSocket ⟨_, hloop, nofun⟩
      · split
        · exact change_waitWhileExplicitlyOffline ⟨_, hloop, nofun⟩
        · exact .move i _ (some i) s.link.nextSocket ⟨_, hloop, nofun⟩
    · exact .same
  | onreconnected i =>
    rw [h i rfl]
    dsimp only
    split <;> exact .same

theorem change_step {s : JsonRpcSocket} {e : Event} (h : Meets options s e) :
    Link.Change options s.link (s.step options e).link := by
  obtain ⟨action, g⟩ := e
  unfold Meets at h
  unfold step
  dsimp only at h ⊢
  cases hcallback : s.callback with
  | some callback =>
    rw [hcallback] at h
    cases action with
    | call c => exact change_call s g c
    | callbackEnds threw =>
      apply change_callbackEnds (s := { s with callback := none })
      rintro i rfl
      exact h
    | _ => exact .same
  | none =>
    cases action with
    | call c => exact change_call s g c
    | message socket response =>
      cases response with
      | none => exact .same
      | some response =>
        dsimp only
        split <;> exact .same
    | closed socket =>
      dsimp only
      unfold closed
      split
      · exact .disconnect _ fun _ hsocket => List.mem_of_mem_filter hsocket
      · exact .same
    | heartbeatTimeout =>
      dsimp only
      unfold heartbeatTimeout
      split
      · exact .same
      · exact change_closeDeadConnection rfl
    | probeTimeout n =>
      dsimp only
      unfold probeTimeout
      split
      · exact .same
      · split
        · exact .same
        · exact change_closeDeadConnection rfl
    | probeSettled n =>
      dsimp only
      unfold probeSettled
      split <;> exact .same
    | backoffTimeout i =>
      dsimp only
      unfold Link.backoffElapsed
      split
      · next hloop => exact .move i _ none s.link.nextSocket ⟨_, hloop, nofun⟩
      · exact .same
    | connectSettled i opened =>
      dsimp only
      unfold Link.connectSettled
      split
      · next hloop =>
        exact .move i _ s.link.reconnectWake s.link.nextSocket ⟨_, hloop, nofun⟩
      · exact .same
    | resumeLoop i => exact change_resumeLoop s g i
    | _ => exact .same

theorem advances_closeDeadConnection {s : JsonRpcSocket} {rpc : Rpc} (h : rpc.Advances s.rpc) :
    rpc.Advances s.closeDeadConnection.rpc := by
  unfold closeDeadConnection
  split
  · exact h
  · exact h.trans (Rpc.advances_of_requests_eq rfl)

theorem advances_checkHealth (s : JsonRpcSocket) (g : Given) :
    s.rpc.Advances (s.checkHealth options g).rpc := by
  unfold checkHealth
  split
  · exact .refl _
  · split
    · split
      · exact .refl _
      · split <;> exact .refl _
    · split
      · exact .refl _
      · unfold probeConnection
        dsimp only
        split
        · exact advances_closeDeadConnection (Rpc.advances_of_requests_eq rfl)
        · exact Rpc.advances_of_requests_eq rfl

theorem advances_call (s : JsonRpcSocket) (g : Given) (c : Call) :
    s.rpc.Advances (s.call options g c).rpc := by
  cases c with
  | request id => exact Rpc.advances_requestWithProgress options s.rpc _ g id
  | subscribe method id subscription =>
    exact Rpc.advances_subscribe options s.rpc _ g method id subscription
  | closeSubscription n => exact Rpc.advances_close options s.rpc _ g n
  | checkHealth => exact advances_checkHealth s g
  | close => exact Rpc.advances_of_requests_eq rfl

theorem advances_resumeLoop (s : JsonRpcSocket) (g : Given) (i : Nat) :
    s.rpc.Advances (s.resumeLoop options g i).rpc := by
  unfold resumeLoop
  split
  · exact .refl _
  · split <;> exact .refl _
  · exact .refl _
  · split <;> exact .refl _
  · split
    · exact .refl _
    · exact Rpc.advances_of_requests_eq rfl
  · exact .refl _
  · exact .refl _

theorem callbackEnds_rpc (s : JsonRpcSocket) (g : Given) (threw : Bool) (callback : Callback) :
    (s.callbackEnds options g threw callback).rpc = s.rpc := by
  unfold callbackEnds
  cases callback with
  | onclose socket goesOn =>
    dsimp only
    split <;> rfl
  | onreconnecting i =>
    dsimp only
    split
    · split
      · rfl
      · split <;> rfl
    · rfl
  | onreconnected i =>
    dsimp only
    split
    · split <;> rfl
    · rfl

theorem advances_step (s : JsonRpcSocket) (e : Event) : s.rpc.Advances (s.step options e).rpc := by
  obtain ⟨action, g⟩ := e
  unfold step
  dsimp only
  cases s.callback with
  | some callback =>
    cases action with
    | call c => exact advances_call s g c
    | callbackEnds threw => exact Rpc.advances_of_requests_eq (by rw [callbackEnds_rpc])
    | _ => exact .refl _
  | none =>
    cases action with
    | call c => exact advances_call s g c
    | callbackEnds threw => exact .refl _
    | message socket response =>
      cases response with
      | none => exact .refl _
      | some response =>
        dsimp only
        split
        · exact Rpc.advances_receive options s.rpc _ g response
        · exact .refl _
    | closed socket =>
      dsimp only
      unfold closed
      split
      · have hstopped : s.rpc.Advances s.rpc.stopHeartbeat := Rpc.advances_of_requests_eq rfl
        exact hstopped.trans (Rpc.advances_rejectPendingRequests options _ none g)
      · exact .refl _
    | heartbeatInterval => exact Rpc.advances_heartbeat s.rpc _ g
    | heartbeatTimeout =>
      dsimp only
      unfold heartbeatTimeout
      split
      · exact .refl _
      · exact advances_closeDeadConnection (Rpc.advances_of_requests_eq rfl)
    | requestTimeout n => exact Rpc.advances_expire s.rpc g n
    | probeTimeout n =>
      dsimp only
      unfold probeTimeout
      split
      · exact .refl _
      · split
        · exact .refl _
        · exact advances_closeDeadConnection (Rpc.advances_of_requests_eq rfl)
    | probeSettled n =>
      dsimp only
      unfold probeSettled
      split
      · exact Rpc.advances_of_requests_eq rfl
      · exact .refl _
    | subscribeSettled n => exact Rpc.advances_subscribed options s.rpc _ g n
    | backoffTimeout i => exact .refl _
    | connectSettled i opened => exact .refl _
    | resumeLoop i => exact advances_resumeLoop s g i

/-! ## Whole runs -/

variable (options)

/-- The close event of a replaced WebSocket leaves the current connection, the requests that wait on
it and the reconnect loops as they are. -/
def LateCloseHarmless (s : JsonRpcSocket) (e : Event) : Prop :=
  match s.callback, e.action with
  | none, .closed socket => socket ∈ s.link.wired → socket ≠ s.link.socket →
      (s.step options e).link.isConnected = s.link.isConnected ∧
        ∀ (n : Nat) (r : RequestPromise), s.rpc.requests[n]? = some r → r.socket = s.link.socket →
          r.outcome = none → ∃ r' : RequestPromise,
            (s.step options e).rpc.requests[n]? = some r' ∧ r'.outcome = none
  | some (.onclose socket _), .callbackEnds _ => socket ≠ s.link.socket →
      (s.step options e).link.loops = s.link.loops
  | _, _ => True

/-- A request that waits is settled by its timer at the latest. -/
def Settling (s : JsonRpcSocket) : Prop :=
  ∀ (n : Nat) (r : RequestPromise), s.rpc.requests[n]? = some r → r.outcome = none →
    ∀ g : Given, r.deadline ≤ g.now → s.callback = none →
      ∃ r' : RequestPromise, (s.step options ⟨.requestTimeout n, g⟩).rpc.requests[n]? = some r' ∧
        r'.outcome.isSome = true

structure StepSound (s : JsonRpcSocket) (e : Event) : Prop where
  oneLoop : ∀ i j, (s.step options e).link.Running i → (s.step options e).link.Running j → i = j
  lateClose : LateCloseHarmless options s e
  staysClosed : s.link.Steady (s.step options e).link
  settledOnce : ∀ (n : Nat) (r : RequestPromise), s.rpc.requests[n]? = some r →
    ∃ r' : RequestPromise, (s.step options e).rpc.requests[n]? = some r' ∧
      ∀ outcome, r.outcome = some outcome → r'.outcome = some outcome
  settles : Settling options (s.step options e)

def SoundAll (s : JsonRpcSocket) : List Event → Prop
  | [] => True
  | e :: events => StepSound options s e ∧ SoundAll (s.step options e) events

def MeetsAll (s : JsonRpcSocket) : List Event → Prop
  | [] => True
  | e :: events => Meets options s e ∧ MeetsAll (s.step options e) events

instance decidableMeets (s : JsonRpcSocket) (e : Event) : Decidable (Meets options s e) := by
  unfold Meets
  split <;> infer_instance

instance decidableMeetsAll (s : JsonRpcSocket) :
    (events : List Event) → Decidable (MeetsAll options s events)
  | [] => inferInstanceAs (Decidable True)
  | e :: events =>
    have := decidableMeetsAll (s.step options e) events
    inferInstanceAs (Decidable (_ ∧ _))

theorem SoundAll.last {s : JsonRpcSocket} {events : List Event} {e : Event}
    (h : SoundAll options s (events ++ [e])) : StepSound options (s.run options events) e := by
  induction events generalizing s with
  | nil => exact h.1
  | cons e' events ih => exact ih h.2

variable {options}

theorem lateCloseHarmless_of_meets {s : JsonRpcSocket} {e : Event} (h : Meets options s e) :
    LateCloseHarmless options s e := by
  obtain ⟨action, g⟩ := e
  unfold LateCloseHarmless
  unfold Meets at h
  cases hcallback : s.callback with
  | some callback =>
    rw [hcallback] at h
    cases callback with
    | onclose socket goesOn =>
      cases action with
      | callbackEnds threw =>
        intro hlate
        have hflag := h hlate
        unfold step
        rw [hcallback]
        dsimp only [callbackEnds]
        split
        · next hall =>
          rw [hflag hall.1 hall.2.1 hall.2.2.1] at hall
          cases hall.2.2.2
        · rfl
      | _ => trivial
    | _ => trivial
  | none =>
    rw [hcallback] at h
    cases action with
    | closed socket =>
      intro hwired hlate
      obtain ⟨hdown, hsettled⟩ := h hwired hlate
      constructor
      · unfold step
        rw [hcallback]
        dsimp only [closed]
        rw [if_pos hwired, hdown]
      · intro n r hr hsocket hwaits
        have houtcome := hsettled r (List.mem_of_getElem? hr) hsocket
        rw [hwaits] at houtcome
        cases houtcome
    | _ => trivial

theorem settling_of_armed {s : JsonRpcSocket} (h : s.rpc.Armed) : Settling options s := by
  intro n r hr hwaits g hdue hcallback
  have htimer := h r (List.mem_of_getElem? hr) hwaits
  unfold step
  rw [hcallback]
  exact Rpc.expire_settles hr htimer hdue

structure Consistent (s : JsonRpcSocket) : Prop where
  single : s.link.Single
  armed : s.rpc.Armed

theorem consistent_initial : (initial options).Consistent where
  single := by
    constructor
    · rintro i ⟨loop, hloop, -⟩
      cases hloop
    · rintro i j ⟨loop, hloop, -⟩
      cases hloop
  armed := by
    intro r hr
    cases hr

theorem Consistent.step {s : JsonRpcSocket} (h : s.Consistent) {e : Event}
    (he : Meets options s e) : (s.step options e).Consistent ∧ StepSound options s e := by
  have hchange := change_step he
  have hadvances : s.rpc.Advances (s.step options e).rpc := advances_step s e
  have hconsistent : (s.step options e).Consistent :=
    ⟨hchange.single h.single, hadvances.armed h.armed⟩
  refine ⟨hconsistent, ?_⟩
  exact
    { oneLoop := hconsistent.single.unique
      lateClose := lateCloseHarmless_of_meets he
      staysClosed := hchange.steady
      settledOnce := hadvances.kept
      settles := settling_of_armed hconsistent.armed }

theorem Consistent.soundAll {s : JsonRpcSocket} (h : s.Consistent) {events : List Event}
    (hmeets : MeetsAll options s events) : SoundAll options s events := by
  induction events generalizing s with
  | nil => trivial
  | cons e events ih =>
    obtain ⟨hconsistent, hsound⟩ := h.step hmeets.1
    exact ⟨hsound, ih hconsistent hmeets.2⟩

theorem reconnection_sound {events : List Event} (h : MeetsAll options (initial options) events) :
    SoundAll options (initial options) events :=
  consistent_initial.soundAll h

namespace Example

def after (actions : List Action) : List Event := actions.map fun action => ⟨action, { uuid := "u" }⟩

/-- A health probe finds the connection dead, and the next check brings a new WebSocket. -/
def reconnected : List Event :=
  after [.call .checkHealth, .probeTimeout 0, .probeSettled 0, .call .checkHealth, .resumeLoop 0,
    .callbackEnds false, .backoffTimeout 0, .resumeLoop 0, .resumeLoop 0, .connectSettled 0 true,
    .resumeLoop 0, .callbackEnds false, .call (.request none)]

theorem sound_reconnected : SoundAll {} (initial {}) reconnected :=
  reconnection_sound (by decide)

/-- Only now the close event of the dead WebSocket arrives. -/
theorem unsound_lateClose : ¬ SoundAll {} (initial {}) (reconnected ++ after [.closed 0]) := by
  intro h
  obtain ⟨hconnected, -⟩ := h.last.lateClose (by decide) (by decide)
  revert hconnected
  decide

end Example

end JsonRpcSocket

end EnboxDwn.Clients
