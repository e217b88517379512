import EnboxDwn.ConfigureLog
import EnboxDwn.Lib.Interleaving

/-! Concurrent runs of the configuration handler on one module. A run reads the stored
configurations, later puts its own, and then demotes what it has read; between these steps other
runs take theirs. -/
namespace EnboxDwn.ConfigureConcurrency
open MessageStore ModulesConfigureHandler ConfigureLog

abbrev ConfigureOf (module : String) :=
  { m : ModulesConfigureMessage // m.descriptor.definitionModule = module }

variable [P : Platform] {module : String}

/-- Where a run stands: what it has read, or what it still has to demote. -/
inductive Phase where
  | arrived
  | queried (existingMessages : List StoredMessage)
  | demoting (displaced : List StoredMessage)
  | finished
  deriving DecidableEq

structure Call (module : String) where
  message : ConfigureOf module
  phase : Phase := .arrived

structure State (module : String) where
  log : Log := {}
  calls : List (Call module) := []

/-- `refuse` stands for any check of the handler that fails before the put. -/
inductive Action where
  | query | refuse | put | demote
  deriving DecidableEq, Repr

inductive Event (module : String) where
  | start (m : ConfigureOf module)
  | act (i : Nat) (action : Action)

namespace Phase

def existingMessages : Phase → List StoredMessage
  | queried existingMessages => existingMessages
  | _ => []

def displaced : Phase → List StoredMessage
  | demoting displaced => displaced
  | _ => []

end Phase

namespace Call

/-- One step of a run on the log; a store call that throws ends the run. -/
def act (call : Call module) (log : Log) : Action → Log × Phase
  | .query =>
    match call.phase with
    | .arrived =>
      let existingMessages := query log [configureFilter module]
      if isDuplicate call.message.val existingMessages then (log, .finished)
      else (log, .queried existingMessages)
    | phase => (log, phase)
  | .refuse =>
    match call.phase with
    | .arrived => (log, .finished)
    | .queried _ => (log, .finished)
    | phase => (log, phase)
  | .put =>
    match call.phase with
    | .queried existingMessages =>
      match putConfiguration call.message.val existingMessages log with
      | .error _ => (log, .finished)
      | .ok (_, log') =>
        (log', .demoting (displacedConfigurations call.message.val existingMessages))
    | phase => (log, phase)
  | .demote =>
    match call.phase with
    | .demoting [] => (log, .finished)
    | .demoting (e :: displaced) =>
      match demoteConfiguration e log with
      | .error _ => (log, .finished)
      | .ok (_, log') => (log', .demoting displaced)
    | phase => (log, phase)

/-- What the run has read is current as far as its decision goes: if it takes its configuration
for the newest, the newest stored one is still the one it has read. -/
def Current (log : Log) (call : Call module) : Prop :=
  match call.phase with
  | .queried existingMessages =>
    incomingMessageIsNewest call.message.val existingMessages = true →
      Message.getNewestMessage (query log [configureFilter module]) =
        Message.getNewestMessage existingMessages
  | _ => True

instance (log : Log) (call : Call module) : Decidable (call.Current log) :=
  match h : call.phase with
  | .arrived => .isTrue (by simp [Current, h])
  | .finished => .isTrue (by simp [Current, h])
  | .demoting _ => .isTrue (by simp [Current, h])
  | .queried existingMessages =>
    decidable_of_iff (incomingMessageIsNewest call.message.val existingMessages = true →
      Message.getNewestMessage (query log [configureFilter module]) =
        Message.getNewestMessage existingMessages) (by simp [Current, h])

end Call

namespace State

def setPhase (s : State module) (i : Nat) (phase : Phase) : State module :=
  { s with calls := s.calls.modify i fun call => { call with phase } }

def step (s : State module) : Event module → State module
  | .start m => { s with calls := s.calls ++ [{ message := m }] }
  | .act i action =>
    match s.calls[i]? with
    | none => s
    | some call => { s with log := (call.act s.log action).1 }.setPhase i (call.act s.log action).2

def run (s : State module) : List (Event module) → State module
  | [] => s
  | event :: events => (s.step event).run events

def Quiescent (s : State module) : Prop := ∀ call ∈ s.calls, call.phase = .finished

/-- Puts are made on current reads. -/
def Meets (s : State module) : Event module → Prop
  | .act i .put => ∀ call ∈ s.calls[i]?, call.Current s.log
  | _ => True

def MeetsAll (s : State module) : List (Event module) → Prop
  | [] => True
  | event :: events => s.Meets event ∧ (s.step event).MeetsAll events

instance (s : State module) : (event : Event module) → Decidable (s.Meets event)
  | .act i .put => inferInstanceAs (Decidable (∀ call ∈ s.calls[i]?, call.Current s.log))
  | .act _ .query => .isTrue trivial
  | .act _ .refuse => .isTrue trivial
  | .act _ .demote => .isTrue trivial
  | .start _ => .isTrue trivial

instance decidableMeetsAll (s : State module) :
    (events : List (Event module)) → Decidable (s.MeetsAll events)
  | [] => .isTrue trivial
  | event :: events =>
    have := decidableMeetsAll (s.step event) events
    inferInstanceAs (Decidable (s.Meets event ∧ (s.step event).MeetsAll events))

end State

/-- The messages that can meet in a run: those in the log and those that arrive. -/
def messages (log : Log) : List (Event module) → List GenericMessage
  | [] => log.rows.map fun r => r.message.message
  | .start m :: events => .modulesConfigure m.val :: messages log events
  | .act _ _ :: events => messages log events

/-! ## What every step keeps -/

def Greatest (log : Log) (module : String) (r : Row) : Prop :=
  ∀ r' ∈ configureRows log module, Message.age r'.message ≤ Message.age r.message

/-- Besides the greatest configuration, only those are flagged latest that a run is about to
demote, and no run is about to demote the greatest. -/
structure Consistent (known : List GenericMessage) (s : State module) : Prop where
  wf : s.log.WellFormed
  rowsKnown : ∀ r ∈ s.log.rows, r.message.message ∈ known
  callsKnown : ∀ call ∈ s.calls, GenericMessage.modulesConfigure call.message.val ∈ known
  read : ∀ call ∈ s.calls, ∀ e ∈ call.phase.existingMessages ++ call.phase.displaced,
    ∃ r ∈ configureRows s.log module, r.message = e
  superseded : ∀ call ∈ s.calls, ∀ e ∈ call.phase.displaced,
    ∃ r ∈ configureRows s.log module, Message.age e < Message.age r.message
  greatest : ∀ r ∈ configureRows s.log module, Greatest s.log module r → r.isLatest = true
  latest : ∀ r ∈ configureRows s.log module, r.isLatest = true →
    Greatest s.log module r ∨ ∃ call ∈ s.calls, r.message ∈ call.phase.displaced

section Steps
variable {known : List GenericMessage} {s : State module} {i : Nat} {call : Call module}

theorem mem_setPhase {phase : Phase} (hi : s.calls[i]? = some call) {c : Call module}
    (hc : c ∈ (s.setPhase i phase).calls) : c ∈ s.calls ∨ c = { call with phase } :=
  Interleaving.mem_modify hi hc

theorem setPhase_mem (phase : Phase) (hi : s.calls[i]? = some call) :
    { call with phase } ∈ (s.setPhase i phase).calls ∧
      ∀ c ∈ s.calls, c ∈ (s.setPhase i phase).calls ∨ c = call :=
  ⟨Interleaving.modify_mem _ hi, fun _ hc => Interleaving.mem_modify_of_ne _ hi hc⟩

/-- A step of one run: the log keeps its configurations, and the facts about the new log and the
new phase of the run are given. -/
theorem Consistent.advance (h : Consistent known s) (hi : s.calls[i]? = some call) {log' : Log}
    {phase : Phase} (wf : log'.WellFormed) (hknown : ∀ r ∈ log'.rows, r.message.message ∈ known)
    (hkeeps : ∀ r ∈ configureRows s.log module, ∃ r' ∈ configureRows log' module,
      r'.message = r.message)
    (hread : ∀ e ∈ phase.existingMessages ++ phase.displaced,
      ∃ r ∈ configureRows log' module, r.message = e)
    (hsuperseded : ∀ e ∈ phase.displaced,
      ∃ r ∈ configureRows log' module, Message.age e < Message.age r.message)
    (hgreatest : ∀ r ∈ configureRows log' module, Greatest log' module r → r.isLatest = true)
    (hlatest : ∀ r ∈ configureRows log' module, r.isLatest = true → Greatest log' module r ∨
      r.message ∈ phase.displaced ∨ r.message ∉ call.phase.displaced ∧
        ∃ c ∈ s.calls, r.message ∈ c.phase.displaced) :
    Consistent known ({ s with log := log' }.setPhase i phase) := by
  have hi' : ({ s with log := log' } : State module).calls[i]? = some call := hi
  refine ⟨wf, hknown, ?_, ?_, ?_, hgreatest, ?_⟩
  · intro c hc
    cases mem_setPhase hi' hc with
    | inl hc => exact h.callsKnown c hc
    | inr heq => exact heq ▸ h.callsKnown call (List.mem_of_getElem? hi)
  · intro c hc e he
    cases mem_setPhase hi' hc with
    | inl hc =>
      obtain ⟨r, hr, rfl⟩ := h.read c hc e he
      exact hkeeps r hr
    | inr heq =>
      subst heq
      exact hread e he
  · intro c hc e he
    cases mem_setPhase hi' hc with
    | inl hc =>
      obtain ⟨r, hr, hlt⟩ := h.superseded c hc e he
      obtain ⟨r', hr', heq⟩ := hkeeps r hr
      exact ⟨r', hr', by rwa [heq]⟩
    | inr heq =>
      subst heq
      exact hsuperseded e he
  · intro r hr hflag
    obtain hmax | hmem | ⟨hnot, c, hc, hmem⟩ := hlatest r hr hflag
    · exact Or.inl hmax
    · exact Or.inr ⟨_, (setPhase_mem _ hi').1, hmem⟩
    · cases (setPhase_mem phase hi').2 c hc with
      | inl hc' => exact Or.inr ⟨c, hc', hmem⟩
      | inr heq => exact absurd (heq ▸ hmem) hnot

theorem Consistent.rest (h : Consistent known s) (hi : s.calls[i]? = some call) {phase : Phase}
    (hread : ∀ e ∈ phase.existingMessages, ∃ r ∈ configureRows s.log module, r.message = e)
    (hdisplaced : phase.displaced = call.phase.displaced) :
    Consistent known ({ s with log := s.log }.setPhase i phase) := by
  have hcall := List.mem_of_getElem? hi
  refine h.advance hi h.wf h.rowsKnown (fun r hr => ⟨r, hr, rfl⟩) ?_ ?_ h.greatest ?_
  · intro e he
    cases List.mem_append.mp he with
    | inl he => exact hread e he
    | inr he => exact h.read call hcall e (List.mem_append_right _ (hdisplaced ▸ he))
  · intro e he
    exact h.superseded call hcall e (hdisplaced ▸ he)
  · intro r hr hflag
    rw [hdisplaced]
    by_cases hmem : r.message ∈ call.phase.displaced
    · exact Or.inr (Or.inl hmem)
    · exact (h.latest r hr hflag).imp id fun hc => Or.inr ⟨hmem, hc⟩

theorem mem_existing_of_newest (h : Consistent known s) {m : StoredMessage}
    (hm : Message.getNewestMessage (query s.log [configureFilter module]) = some m) {r : Row}
    (hr : r ∈ configureRows s.log module) : Message.age r.message ≤ Message.age m :=
  (Message.getNewestMessage_eq_some hm).2 _ ((mem_existing h.wf).mpr ⟨r, hr, rfl⟩)

/-- On a current read, a configuration taken for the newest is newer than all that are stored. -/
theorem Consistent.newer (h : Consistent known s) {existingMessages : List StoredMessage}
    (hphase : call.phase = .queried existingMessages) (hcurrent : call.Current s.log)
    (hnewest : incomingMessageIsNewest call.message.val existingMessages = true) {r : Row}
    (hr : r ∈ configureRows s.log module) :
    Message.age r.message < Message.age (ModulesConfigure.stored call.message.val) ∧
      (Greatest s.log module r → r.message ∈ existingMessages) := by
  unfold Call.Current at hcurrent
  rw [hphase] at hcurrent
  have heq := hcurrent hnewest
  have hmem : r.message ∈ query s.log [configureFilter module] :=
    (mem_existing h.wf).mpr ⟨r, hr, rfl⟩
  cases hn : Message.getNewestMessage existingMessages with
  | none =>
    rw [hn, Message.getNewestMessage_eq_none] at heq
    rw [heq] at hmem
    cases hmem
  | some n =>
    rw [hn] at heq
    simp only [incomingMessageIsNewest, hn, Option.all_some, Message.isNewer_iff] at hnewest
    refine ⟨lt_of_le_of_lt (mem_existing_of_newest h heq hr) hnewest, fun hmax => ?_⟩
    -- The greatest row is the newest message, which the run has read.
    obtain ⟨top, htop, rfl⟩ := (mem_existing h.wf).mp (Message.getNewestMessage_eq_some heq).1
    have hrow := eq_of_age h.wf hr htop (le_antisymm (mem_existing_of_newest h heq hr) (hmax top htop))
    rw [hrow]
    exact (Message.getNewestMessage_eq_some hn).1

/-- A configuration that is not taken for the newest displaces all it has read but the newest,
which is not older than itself. -/
theorem Consistent.older (h : Consistent known s) (hi : s.calls[i]? = some call)
    {existingMessages : List StoredMessage} (hphase : call.phase = .queried existingMessages)
    (hnewest : incomingMessageIsNewest call.message.val existingMessages = false) :
    ∃ top ∈ configureRows s.log module,
      Message.age (ModulesConfigure.stored call.message.val) ≤ Message.age top.message ∧
      ∀ e ∈ displacedConfigurations call.message.val existingMessages,
        e ∈ existingMessages ∧ Message.age e < Message.age top.message := by
  have hread : ∀ e ∈ existingMessages, ∃ r ∈ configureRows s.log module, r.message = e := by
    intro e he
    exact h.read call (List.mem_of_getElem? hi) e (by simp [hphase, Phase.existingMessages, he])
  cases hn : Message.getNewestMessage existingMessages with
  | none => simp [incomingMessageIsNewest, hn] at hnewest
  | some n =>
    obtain ⟨hmem, hmax⟩ := Message.getNewestMessage_eq_some hn
    obtain ⟨top, htop, rfl⟩ := hread n hmem
    have hle : Message.age (ModulesConfigure.stored call.message.val) ≤ Message.age top.message := by
      simpa only [incomingMessageIsNewest, hn, Option.all_some, Message.isNewer_eq_false] using hnewest
    refine ⟨top, htop, hle, fun e he => ?_⟩
    simp only [displacedConfigurations, hnewest, hn, Bool.false_eq_true, if_false, List.mem_filter,
      decide_eq_true_eq, ne_eq, Option.some.injEq] at he
    refine ⟨he.1, lt_of_le_of_ne (hmax e he.1) fun hage => he.2 ?_⟩
    obtain ⟨r, hr, rfl⟩ := hread e he.1
    rw [eq_of_age h.wf hr htop hage]

theorem age_of_message {m : StoredMessage} {c : ModulesConfigureMessage}
    (h : m.message = .modulesConfigure c) :
    Message.age m = Message.age (ModulesConfigure.stored c) := by
  simp only [Message.age, Message.getCid, h, ModulesConfigure.stored]

theorem configures_stored (m : ConfigureOf module) :
    (ModulesConfigure.stored m.val).configures module = true :=
  StoredMessage.configures_eq_true.mpr ⟨m.val, rfl, m.property⟩

/-- A put that finds the message stored changes nothing but the phase of the run. -/
theorem Consistent.put_duplicate (h : Consistent known s)
    (hinj : ∀ a ∈ known, ∀ b ∈ known, P.computeCid a = P.computeCid b → a = b)
    (hi : s.calls[i]? = some call) {existingMessages : List StoredMessage}
    (hphase : call.phase = .queried existingMessages) (hcurrent : call.Current s.log) {r : Row}
    (hr : r ∈ s.log.rows) (hcid : r.cid = Message.getCid (ModulesConfigure.stored call.message.val)) :
    Consistent known ({ s with log := s.log }.setPhase i
      (.demoting (displacedConfigurations call.message.val existingMessages))) := by
  have hcall := List.mem_of_getElem? hi
  have hmsg : r.message.message = .modulesConfigure call.message.val :=
    hinj _ (h.rowsKnown r hr) _ (h.callsKnown call hcall) hcid
  have hrow : r ∈ configureRows s.log module :=
    mem_configureRows.mpr ⟨hr, StoredMessage.configures_eq_true.mpr ⟨_, hmsg, call.message.property⟩⟩
  cases hnewest : incomingMessageIsNewest call.message.val existingMessages with
  | true =>
    have hlt := (h.newer hphase hcurrent hnewest hrow).1
    rw [age_of_message hmsg] at hlt
    exact absurd hlt (lt_irrefl _)
  | false =>
    obtain ⟨top, htop, -, hdisplaced⟩ := h.older hi hphase hnewest
    refine h.advance hi h.wf h.rowsKnown (fun r hr => ⟨r, hr, rfl⟩) ?_ ?_ h.greatest ?_
    · intro e he
      simp only [Phase.existingMessages, Phase.displaced, List.nil_append] at he
      exact h.read call hcall e (by simp [hphase, Phase.existingMessages, (hdisplaced e he).1])
    · intro e he
      exact ⟨top, htop, (hdisplaced e he).2⟩
    · intro r hr hflag
      refine (h.latest r hr hflag).imp id fun hc => Or.inr ⟨?_, hc⟩
      simp [hphase, Phase.displaced]

theorem Consistent.put_fresh (h : Consistent known s) (hi : s.calls[i]? = some call)
    {existingMessages : List StoredMessage} (hphase : call.phase = .queried existingMessages)
    (hcurrent : call.Current s.log) {log' : Log} (wf : log'.WellFormed)
    (habsent : ∀ r ∈ s.log.rows, r.cid ≠ Message.getCid (ModulesConfigure.stored call.message.val))
    (hlog : log' =
      { rows := s.log.rows ++ [newRow s.log (ModulesConfigure.stored call.message.val)
          (ModulesConfigure.constructIndexes call.message.val
            (incomingMessageIsNewest call.message.val existingMessages))]
        head := s.log.head + 1 }) :
    Consistent known ({ s with log := log' }.setPhase i
      (.demoting (displacedConfigurations call.message.val existingMessages))) := by
  have hcall := List.mem_of_getElem? hi
  generalize hnew : newRow s.log (ModulesConfigure.stored call.message.val)
    (ModulesConfigure.constructIndexes call.message.val
      (incomingMessageIsNewest call.message.val existingMessages)) = new at hlog
  have hmsg : new.message = ModulesConfigure.stored call.message.val := by rw [← hnew]; rfl
  have hflagNew : new.isLatest = incomingMessageIsNewest call.message.val existingMessages := by
    rw [← hnew]
    exact ModulesConfigure.isLatest_constructIndexes _ _
  have hconf : new.message.configures module = true := by
    rw [hmsg]
    exact configures_stored call.message
  have hrows : ∀ r, r ∈ configureRows log' module ↔ r ∈ configureRows s.log module ∨ r = new := by
    intro r
    rw [hlog, mem_configureRows_append]
    simp [hconf]
  have hkeep : ∀ r ∈ configureRows s.log module, r ∈ configureRows log' module :=
    fun r hr => (hrows r).mpr (Or.inl hr)
  have hknown : ∀ r ∈ log'.rows, r.message.message ∈ known := by
    intro r hr
    rw [hlog] at hr
    cases List.mem_append.mp hr with
    | inl hr => exact h.rowsKnown r hr
    | inr hr =>
      rw [List.mem_singleton.mp hr, hmsg]
      exact h.callsKnown call hcall
  have hread : ∀ e ∈ existingMessages, ∃ r ∈ configureRows log' module, r.message = e := by
    intro e he
    obtain ⟨r, hr, heq⟩ :=
      h.read call hcall e (by simp [hphase, Phase.existingMessages, he])
    exact ⟨r, hkeep r hr, heq⟩
  have hnone : ∀ r : Row, r.message ∉ call.phase.displaced := by
    simp [hphase, Phase.displaced]
  cases hnewest : incomingMessageIsNewest call.message.val existingMessages with
  | true =>
    have hnewer := fun r hr => h.newer hphase hcurrent hnewest (r := r) hr
    rw [hnewest] at hflagNew
    have hall : displacedConfigurations call.message.val existingMessages = existingMessages := by
      simp [displacedConfigurations, hnewest]
    have hmax : Greatest log' module new := by
      intro r hr
      cases (hrows r).mp hr with
      | inl hr => exact hmsg ▸ (hnewer r hr).1.le
      | inr heq => exact heq ▸ le_rfl
    rw [hall]
    refine h.advance hi wf hknown (fun r hr => ⟨r, hkeep r hr, rfl⟩) ?_ ?_ ?_ ?_
    · intro e he
      exact hread e (by simpa [Phase.existingMessages, Phase.displaced] using he)
    · intro e he
      obtain ⟨r, hr, rfl⟩ := h.read call hcall e (by
        simpa [hphase, Phase.existingMessages, Phase.displaced] using he)
      exact ⟨new, (hrows new).mpr (Or.inr rfl), hmsg ▸ (hnewer r hr).1⟩
    · intro r hr hgreatest
      cases (hrows r).mp hr with
      | inl hr =>
        have := hgreatest new ((hrows new).mpr (Or.inr rfl))
        rw [hmsg] at this
        exact absurd (hnewer r hr).1 (not_lt.mpr this)
      | inr heq => exact heq ▸ hflagNew
    · intro r hr hflag
      cases (hrows r).mp hr with
      | inl hr =>
        refine Or.inr ((h.latest r hr hflag).imp (fun hg => ?_) fun hc => ⟨hnone r, hc⟩)
        exact (hnewer r hr).2 hg
      | inr heq => exact Or.inl (heq ▸ hmax)
  | false =>
    obtain ⟨top, htop, hle, hdisplaced⟩ := h.older hi hphase hnewest
    rw [hnewest] at hflagNew
    have hlt : Message.age new.message < Message.age top.message := by
      rw [hmsg]
      refine lt_of_le_of_ne hle fun hage => ?_
      exact habsent top (mem_configureRows.mp htop).1 (Message.getCid_eq_of_age_eq hage).symm
    have hmono : ∀ r ∈ configureRows s.log module, Greatest s.log module r →
        Greatest log' module r := by
      intro r hr hg r' hr'
      cases (hrows r').mp hr' with
      | inl hr' => exact hg r' hr'
      | inr heq => exact heq ▸ hlt.le.trans (hg top htop)
    refine h.advance hi wf hknown (fun r hr => ⟨r, hkeep r hr, rfl⟩) ?_ ?_ ?_ ?_
    · intro e he
      simp only [Phase.existingMessages, Phase.displaced, List.nil_append] at he
      exact hread e (hdisplaced e he).1
    · intro e he
      exact ⟨top, hkeep top htop, (hdisplaced e he).2⟩
    · intro r hr hgreatest
      cases (hrows r).mp hr with
      | inl hr => exact h.greatest r hr fun r' hr' => hgreatest r' (hkeep r' hr')
      | inr heq => exact absurd hlt (not_lt.mpr (heq ▸ hgreatest top (hkeep top htop)))
    · intro r hr hflag
      cases (hrows r).mp hr with
      | inl hr =>
        exact (h.latest r hr hflag).imp (hmono r hr) fun hc => Or.inr ⟨hnone r, hc⟩
      | inr heq =>
        rw [heq, hflagNew] at hflag
        cases hflag

/-- The demotion of one displaced configuration, which is never the greatest. -/
theorem Consistent.demote (h : Consistent known s) (hi : s.calls[i]? = some call)
    {e : StoredMessage} {displaced : List StoredMessage}
    (hphase : call.phase = .demoting (e :: displaced)) :
    ∃ log', demoteConfiguration e s.log = .ok ((), log') ∧
      Consistent known ({ s with log := log' }.setPhase i (.demoting displaced)) := by
  have hcall := List.mem_of_getElem? hi
  have hread : ∀ e' ∈ e :: displaced, ∃ r ∈ configureRows s.log module, r.message = e' := by
    intro e' he'
    exact h.read call hcall e' (by simpa [hphase, Phase.existingMessages, Phase.displaced] using he')
  obtain ⟨row, hrow, hmessage⟩ := hread e (by simp)
  obtain ⟨c, hc, -⟩ := StoredMessage.configures_eq_true.mp (mem_configureRows.mp hrow).2
  have hlog := (mem_configureRows.mp hrow).1
  have hupdate := updateIndexes_ok h.wf hlog hc
  refine ⟨{ s.log with rows := s.log.rows.map (historical c row.cid) }, ?_, ?_⟩
  · have has : e.asModulesConfigure = some c :=
      StoredMessage.asModulesConfigure_eq_some.mpr (hmessage ▸ hc)
    simp only [demoteConfiguration, has]
    rw [← hmessage]
    exact hupdate
  · have hmem : ∀ r ∈ configureRows s.log module, historical c row.cid r ∈
        configureRows { s.log with rows := s.log.rows.map (historical c row.cid) } module :=
      fun r hr => mem_configureRows_historical.mpr ⟨r, hr, rfl⟩
    refine h.advance hi (wellFormed_historical h.wf hlog hc) ?_
      (fun r hr => ⟨_, hmem r hr, message_historical _⟩) ?_ ?_ ?_ ?_
    · intro r' hr'
      obtain ⟨r, hr, rfl⟩ := List.mem_map.mp hr'
      rw [message_historical]
      exact h.rowsKnown r hr
    · intro e' he'
      simp only [Phase.existingMessages, Phase.displaced, List.nil_append] at he'
      obtain ⟨r, hr, heq⟩ := hread e' (List.mem_cons_of_mem _ he')
      exact ⟨_, hmem r hr, by rw [message_historical, heq]⟩
    · intro e' he'
      obtain ⟨r, hr, hlt⟩ := h.superseded call hcall e' (by
        rw [hphase]
        exact List.mem_cons_of_mem _ he')
      exact ⟨_, hmem r hr, by rwa [message_historical]⟩
    · intro r' hr' hgreatest
      obtain ⟨r, hr, rfl⟩ := mem_configureRows_historical.mp hr'
      have hg : Greatest s.log module r := by
        intro other hother
        have := hgreatest _ (hmem other hother)
        rwa [message_historical, message_historical] at this
      -- The demoted configuration is superseded, so the greatest is another row.
      have hne : row.cid ≠ r.cid := by
        intro hcid
        have heq := h.wf.eq_of_cid hlog (mem_configureRows.mp hr).1 hcid
        obtain ⟨newer, hnewer, hlt⟩ := h.superseded call hcall e (by simp [hphase, Phase.displaced])
        rw [← hmessage, heq] at hlt
        exact absurd hlt (not_lt.mpr (hg newer hnewer))
      rw [isLatest_historical, h.greatest r hr hg, decide_eq_true hne]
      rfl
    · intro r' hr' hflag
      obtain ⟨r, hr, rfl⟩ := mem_configureRows_historical.mp hr'
      rw [isLatest_historical, Bool.and_eq_true, decide_eq_true_eq] at hflag
      rw [message_historical]
      obtain hg | hpending := h.latest r hr hflag.1
      · refine Or.inl fun other hother => ?_
        obtain ⟨before, hbefore, rfl⟩ := mem_configureRows_historical.mp hother
        rw [message_historical, message_historical]
        exact hg before hbefore
      · by_cases hown : r.message ∈ call.phase.displaced
        · refine Or.inr (Or.inl ?_)
          rw [hphase] at hown
          cases List.mem_cons.mp hown with
          | inl heq =>
            refine absurd ?_ hflag.2
            rw [Row.cid, Row.cid, hmessage, heq]
          | inr hmem' => exact hmem'
        · exact Or.inr (Or.inr ⟨hown, hpending⟩)

theorem Consistent.act (h : Consistent known s)
    (hinj : ∀ a ∈ known, ∀ b ∈ known, P.computeCid a = P.computeCid b → a = b)
    (hi : s.calls[i]? = some call) (action : Action) (hcurrent : action = .put → call.Current s.log) :
    Consistent known
      ({ s with log := (call.act s.log action).1 }.setPhase i (call.act s.log action).2) := by
  have hread : ∀ e ∈ call.phase.existingMessages, ∃ r ∈ configureRows s.log module,
      r.message = e := fun e he =>
    h.read call (List.mem_of_getElem? hi) e (List.mem_append_left _ he)
  have hstay := h.rest hi hread rfl
  have hend : call.phase.displaced = [] → Consistent known
      ({ s with log := s.log }.setPhase i .finished) := fun hnone =>
    h.rest hi (by simp [Phase.existingMessages]) (by rw [hnone]; rfl)
  cases hphase : call.phase with
  | arrived =>
    rw [hphase] at hstay hend
    cases action with
    | query =>
      simp only [Call.act, hphase]
      split
      · exact hend rfl
      · refine h.rest hi (fun e he => (mem_existing h.wf).mp he) ?_
        rw [hphase]
        rfl
    | refuse => simpa only [Call.act, hphase] using hend rfl
    | put => simpa only [Call.act, hphase] using hstay
    | demote => simpa only [Call.act, hphase] using hstay
  | queried existingMessages =>
    rw [hphase] at hstay hend
    cases action with
    | query => simpa only [Call.act, hphase] using hstay
    | refuse => simpa only [Call.act, hphase] using hend rfl
    | put =>
      simp only [Call.act, hphase]
      split
      · exact hend rfl
      · next hput =>
        obtain ⟨⟨r, hr, hcid⟩, heq⟩ | ⟨habsent, heq⟩ := put_cases hput
        · rw [heq]
          exact h.put_duplicate hinj hi hphase (hcurrent rfl) hr hcid
        · exact h.put_fresh hi hphase (hcurrent rfl) (wellFormed_put h.wf hput) habsent heq
    | demote => simpa only [Call.act, hphase] using hstay
  | demoting displaced =>
    rw [hphase] at hstay hend
    cases action with
    | query => simpa only [Call.act, hphase] using hstay
    | refuse => simpa only [Call.act, hphase] using hstay
    | put => simpa only [Call.act, hphase] using hstay
    | demote =>
      cases displaced with
      | nil => simpa only [Call.act, hphase] using hend rfl
      | cons e displaced =>
        obtain ⟨log', hdemote, hcons⟩ := h.demote hi hphase
        simpa only [Call.act, hphase, hdemote] using hcons
  | finished =>
    rw [hphase] at hstay
    cases action <;> simpa only [Call.act, hphase] using hstay

theorem Consistent.start (h : Consistent known s) {m : ConfigureOf module}
    (hm : GenericMessage.modulesConfigure m.val ∈ known) :
    Consistent known (s.step (.start m)) := by
  have hmem : ∀ c ∈ (s.step (.start m)).calls, c ∈ s.calls ∨ c = { message := m } := by
    intro c hc
    exact (List.mem_append.mp hc).imp id List.mem_singleton.mp
  refine ⟨h.wf, h.rowsKnown, ?_, ?_, ?_, h.greatest, ?_⟩
  · intro c hc
    cases hmem c hc with
    | inl hc => exact h.callsKnown c hc
    | inr heq => exact heq ▸ hm
  · intro c hc e he
    cases hmem c hc with
    | inl hc => exact h.read c hc e he
    | inr heq =>
      subst heq
      simp [Phase.existingMessages, Phase.displaced] at he
  · intro c hc e he
    cases hmem c hc with
    | inl hc => exact h.superseded c hc e he
    | inr heq =>
      subst heq
      simp [Phase.displaced] at he
  · intro r hr hflag
    refine (h.latest r hr hflag).imp id ?_
    rintro ⟨c, hc, hmem⟩
    exact ⟨c, List.mem_append_left _ hc, hmem⟩

end Steps

theorem mem_messages {log : Log} {events : List (Event module)} {r : Row} (hr : r ∈ log.rows) :
    r.message.message ∈ messages log events := by
  induction events with
  | nil => exact List.mem_map.mpr ⟨r, hr, rfl⟩
  | cons event events ih =>
    cases event with
    | start m => exact List.mem_cons_of_mem _ ih
    | act i action => exact ih

theorem Consistent.run {known : List GenericMessage} {s : State module} {log : Log}
    (hinj : ∀ a ∈ known, ∀ b ∈ known, P.computeCid a = P.computeCid b → a = b)
    (events : List (Event module)) (hknown : messages log events ⊆ known)
    (h : Consistent known s) (hmeets : s.MeetsAll events) : Consistent known (s.run events) := by
  induction events generalizing s with
  | nil => exact h
  | cons event events ih =>
    obtain ⟨hmeet, hrest⟩ := hmeets
    cases event with
    | start m =>
      exact ih (fun x hx => hknown (List.mem_cons_of_mem _ hx))
        (h.start (hknown List.mem_cons_self)) hrest
    | act i action =>
      refine ih hknown ?_ hrest
      cases hi : s.calls[i]? with
      | none => simpa only [State.step, hi] using h
      | some call =>
        have hact := h.act hinj hi action (by
          rintro rfl
          exact hmeet call (by simp [hi]))
        simpa only [State.step, hi] using hact

/-- When every run is over and every put was made on a current read, exactly one stored
configuration is active, and it is the greatest. CIDs do not collide. -/
theorem oneActive_when_finished {log : Log} (wf : log.WellFormed) (hactive : OneActive log module)
    (events : List (Event module))
    (hinj : ∀ a ∈ messages log events, ∀ b ∈ messages log events,
      P.computeCid a = P.computeCid b → a = b)
    (hmeets : ({ log } : State module).MeetsAll events)
    (hquiet : (({ log } : State module).run events).Quiescent) :
    OneActive (({ log } : State module).run events).log module := by
  have hstart : Consistent (messages log events) ({ log } : State module) :=
    { wf := wf
      rowsKnown := fun r hr => mem_messages hr
      callsKnown := by simp
      read := by simp
      superseded := by simp
      greatest := fun r hr hmax => (hactive.iff wf hr).mpr hmax
      latest := fun r hr hflag => Or.inl ((hactive.iff wf hr).mp hflag) }
  have h := hstart.run hinj events
    (show messages log events ⊆ messages log events from fun _ hx => hx) hmeets
  refine oneActive_of_iff h.wf fun r hr => ⟨fun hflag => ?_, h.greatest r hr⟩
  obtain hmax | ⟨call, hcall, hmem⟩ := h.latest r hr hflag
  · exact hmax
  · rw [hquiet call hcall] at hmem
    cases hmem

end EnboxDwn.ConfigureConcurrency

namespace EnboxDwn.ConfigureConcurrency
open ConfigureLog

local instance : Platform := Platform.ofText

def chatConfigure (signature : String) (messageTimestamp : Timestamp) : ConfigureOf "chat" :=
  ⟨{ descriptor :=
      { messageTimestamp, definitionModule := "chat", definitionPublished := true }
     authorization := { signature, signer := "alice" } }, rfl⟩

/-- Two runs that overlap without harm: the second reads after the first has put. -/
def overlapping : List (Event "chat") :=
  [.start (chatConfigure "a" "1"), .start (chatConfigure "b" "2"), .act 0 .query, .act 0 .put,
    .act 1 .query, .act 1 .put, .act 1 .demote, .act 0 .demote, .act 1 .demote]

theorem oneActive_overlapping :
    (({} : State "chat").MeetsAll overlapping) ∧
      OneActive (({} : State "chat").run overlapping).log "chat" :=
  ⟨by decide, oneActive_when_finished Log.WellFormed.empty (Or.inl rfl) overlapping
    (by decide) (by decide)
    (by
      intro call hcall
      revert call
      decide)⟩

/-- Both runs read the empty store. -/
def bothReadFirst : List (Event "chat") :=
  [.start (chatConfigure "a" "1"), .start (chatConfigure "b" "2"), .act 0 .query, .act 1 .query,
    .act 0 .put, .act 1 .put, .act 0 .demote, .act 1 .demote]

/-- Two configurations stay active when both runs read before either puts. -/
theorem two_active_bothReadFirst :
    (({} : State "chat").run bothReadFirst).Quiescent ∧
      ¬ OneActive (({} : State "chat").run bothReadFirst).log "chat" := by
  have htwo : ((configureRows (({} : State "chat").run bothReadFirst).log "chat").filter
      Row.isLatest).length = 2 := by decide
  constructor
  · intro call hcall
    revert call
    decide
  · rintro (hnone | ⟨r, hr, -⟩)
    · rw [hnone] at htwo
      cases htwo
    · rw [hr] at htwo
      cases htwo

end EnboxDwn.ConfigureConcurrency
