import EnboxDwn.RecordsWriteCreate

/-! Which updates the node admits as updates of their record: those of stored writes whose
initial write has neither grant nor squash and whose context ends with parent and record. -/
namespace EnboxDwn
open MessageStore StorageController SeparatedText

variable [P : Platform]

/-! ## Contexts as paths -/

namespace Records

/-- The context ends with the parent of the record, if it has one, and the record. -/
structure EndsWithRecord (m : RecordsWriteMessage) : Prop where
  record : (split m.contextId '/').getLast? = some m.recordId
  parent : (split m.contextId '/').dropLast.getLast? = m.descriptor.parentId

instance (m : RecordsWriteMessage) : Decidable (EndsWithRecord m) :=
  decidable_of_iff ((split m.contextId '/').getLast? = some m.recordId ∧
      (split m.contextId '/').dropLast.getLast? = m.descriptor.parentId)
    ⟨fun h => ⟨h.1, h.2⟩, fun h => ⟨h.record, h.parent⟩⟩

omit P

theorem segment_of_isContextId {contextId segment : String} (h : isContextId contextId = true)
    (hmem : segment ∈ split contextId '/') : segment ≠ "" ∧ Lacks '/' segment := by
  rw [isContextId, Bool.and_eq_true, List.all_eq_true] at h
  have hsegment := h.2 segment hmem
  rw [Bool.and_eq_true, decide_eq_true_eq] at hsegment
  exact ⟨hsegment.1, (lacks_of_mem_split hmem).1⟩

theorem exists_segments (contextId : String) : ∃ parents segment,
    split contextId '/' = parents ++ [segment] :=
  ⟨_, _, (List.dropLast_append_getLast (split_ne_nil contextId '/')).symm⟩

theorem getParentContextFromOfContextId_join {parents : List String} {segment : String}
    (h : Lacks '/' segment) :
    getParentContextFromOfContextId (join (parents ++ [segment]) '/') = join parents '/' := by
  unfold getParentContextFromOfContextId
  have hall : ∀ c ∈ segment.toList.reverse, decide (c ≠ '/') = true := by
    intro c hc
    rw [decide_eq_true_eq]
    rintro rfl
    exact h (List.mem_reverse.mp hc)
  by_cases hparents : parents = []
  · subst hparents
    rw [List.nil_append, join_singleton, List.dropWhile_eq_nil_iff.mpr hall]
    rfl
  · have htext : (join (parents ++ [segment]) '/').toList.reverse =
        segment.toList.reverse ++ '/' :: (join parents '/').toList.reverse := by
      rw [join_concat hparents]
      simp
    rw [htext, List.dropWhile_append_of_pos hall]
    simp

end Records

namespace RecordsWrite

omit P in
theorem getRecordIdFromContextId_join {parents : List String}
    (h : ∀ p ∈ parents, p ≠ "" ∧ Lacks '/' p) :
    getRecordIdFromContextId (some (join parents '/')) = parents.getLast? := by
  have hfilter : (split (join parents '/') '/').filter (· ≠ "") = parents := by
    by_cases hparents : parents = []
    · subst hparents
      decide
    · rw [split_join hparents fun p hp => (h p hp).2, List.filter_eq_self]
      intro p hp
      rw [decide_eq_true_eq]
      exact (h p hp).1
  rw [getRecordIdFromContextId, Option.bind_some, hfilter]

omit P in
theorem contextIdUnder_join {parents : List String} (h : ∀ p ∈ parents, p ≠ "" ∧ Lacks '/' p)
    (recordId : String) :
    contextIdUnder (some (join parents '/')) recordId = join (parents ++ [recordId]) '/' := by
  by_cases hparents : parents = []
  · subst hparents
    simp [contextIdUnder]
  · have hne : join parents '/' ≠ "" := by
      intro hempty
      have hsplit := split_join hparents fun p hp => (h p hp).2
      rw [hempty, show split "" '/' = [""] by decide] at hsplit
      exact (h "" (by simp [← hsplit])).1 rfl
    rw [contextIdUnder, if_neg hne, join_concat hparents]

omit P in
/-- The parent and the context that an update computes from the context of its source are
those of the source just when this context ends with parent and record. -/
theorem context_kept_iff {m : RecordsWriteMessage} (h : Records.isContextId m.contextId = true) :
    (getRecordIdFromContextId (some (Records.getParentContextFromOfContextId m.contextId)) =
        m.descriptor.parentId ∧
      contextIdUnder (some (Records.getParentContextFromOfContextId m.contextId)) m.recordId =
        m.contextId) ↔ Records.EndsWithRecord m := by
  obtain ⟨parents, segment, hsplit⟩ := Records.exists_segments m.contextId
  have hcontext : m.contextId = join (parents ++ [segment]) '/' := by
    rw [← hsplit, join_split]
  have hsegments : ∀ p ∈ parents ++ [segment], p ≠ "" ∧ Lacks '/' p :=
    fun p hp => Records.segment_of_isContextId h (hsplit ▸ hp)
  have hparents : ∀ p ∈ parents, p ≠ "" ∧ Lacks '/' p :=
    fun p hp => hsegments p (List.mem_append_left _ hp)
  have hlast : join (parents ++ [m.recordId]) '/' = join (parents ++ [segment]) '/' ↔
      m.recordId = segment := by
    by_cases hnil : parents = []
    · simp [hnil]
    · rw [join_concat hnil, join_concat hnil]
      exact String.append_right_inj _
  have hends : Records.EndsWithRecord m ↔
      parents.getLast? = m.descriptor.parentId ∧ m.recordId = segment := by
    constructor
    · intro hm
      have hrecord := hm.record
      have hparent := hm.parent
      rw [hsplit] at hrecord hparent
      exact ⟨by simpa using hparent, by simpa using hrecord.symm⟩
    · rintro ⟨hparent, hrecord⟩
      refine ⟨?_, ?_⟩
      · rw [hsplit, hrecord]
        simp
      · rw [hsplit]
        simpa using hparent
  rw [hends, hcontext, Records.getParentContextFromOfContextId_join (hsegments segment (by simp)).2,
    getRecordIdFromContextId_join hparents, contextIdUnder_join hparents, hlast]

/-! ## What an update is made of -/

theorem validating_parsed {deps : HandlerDependencies} {normalize : NormalizeModuleUrl}
    {m : RecordsWriteMessage} (h : parse (deps.validating normalize) m = .ok ()) :
    Records.isContextId m.contextId = true ∧ normalize m.descriptor.module =
      some m.descriptor.module ∧ ∀ url ∈ m.descriptor.schema, normalize url = some url := by
  obtain ⟨_, hstructure, h⟩ := bind_eq_ok h
  obtain ⟨_, -, hpayload⟩ := bind_eq_ok h
  obtain ⟨_, -, hcontext⟩ := bind_eq_ok hstructure
  obtain ⟨_, -, hurls⟩ := bind_eq_ok hpayload
  obtain ⟨_, hmodule, hschema⟩ := bind_eq_ok hurls
  refine ⟨?_, ?_, ?_⟩
  · by_contra hfalse
    simp [validateContextId, hfalse] at hcontext
  · by_contra hne
    simp [validateModuleUrlNormalized, hne] at hmodule
  · intro url hurl
    by_contra hne
    rw [Option.mem_def] at hurl
    simp [hurl, validateSchemaUrlNormalized, hne] at hschema

section Create
variable {Encryption EncryptionInput : Type} {A : Authoring Encryption EncryptionInput}
  {normalize : NormalizeModuleUrl} {currentTime : Timestamp}

/-- What a created descriptor takes from options whose URLs are normal. -/
theorem createDescriptor_immutable {o : RecordsWriteOptions Encryption EncryptionInput}
    (hmodule : normalize o.module = some o.module)
    (hschema : ∀ url ∈ o.schema, normalize url = some url) {d : RecordsWriteDescriptor}
    (h : createDescriptor normalize currentTime o = .ok d) :
    immutableProperties d = immutableProperties
      { module := o.module, modulePath := o.modulePath, recipient := o.recipient
        schema := o.schema, parentId := getRecordIdFromContextId o.parentContextId
        dateCreated := o.dateCreated.getD currentTime, squash := o.squash
        permissionGrantId := o.permissionGrantId
        dataCid := "", dataSize := 0, dataFormat := "", messageTimestamp := "" } := by
  obtain ⟨_, -, h⟩ := bind_eq_ok h
  obtain ⟨_, -, h⟩ := bind_eq_ok h
  obtain ⟨_, -, h⟩ := bind_eq_ok h
  obtain ⟨url, hurl, h⟩ := bind_eq_ok h
  obtain ⟨schema, hsch, h⟩ := bind_eq_ok h
  have hurl' : url = o.module := by
    simpa [normalizeUrl, hmodule] using hurl.symm
  have hschema' : schema = o.schema := by
    cases ho : o.schema with
    | none =>
      rw [ho] at hsch
      cases hsch
      rfl
    | some s =>
      simp only [normalizeSchema, ho, normalizeUrl, hschema s ho] at hsch
      cases hsch
      rfl
  subst hurl' hschema'
  cases h
  rfl

theorem create_message {o : RecordsWriteOptions Encryption EncryptionInput}
    {w : InternalRecordsWriteMessage Encryption} {built : RecordsWriteMessage} {recordId : String}
    (hrecord : o.recordId = some recordId) (h : create A normalize currentTime o = .ok w)
    (hmessage : w.message = .ok built) :
    createDescriptor normalize currentTime o = .ok built.descriptor ∧
      built.recordId = recordId ∧ built.contextId = contextIdUnder o.parentContextId recordId := by
  obtain ⟨_, -, h⟩ := bind_eq_ok h
  obtain ⟨d, hd, h⟩ := bind_eq_ok h
  obtain ⟨encryption, -, h⟩ := bind_eq_ok h
  cases hsigner : o.signer with
  | none =>
    rw [hsigner] at h
    cases h
    rw [InternalRecordsWriteMessage.message] at hmessage
    split at hmessage
    · next hauthorization => cases hauthorization
    · cases hmessage
  | some signer =>
    rw [hsigner] at h
    cases h
    rw [InternalRecordsWriteMessage.message] at hmessage
    cases hmessage
    refine ⟨hd, ?_, ?_⟩
    · simp [hrecord]
    · simp [hrecord]

/-- An update agrees with its source in what is immutable, apart from the parent, which it
computes from the context, and the grant and the squash, which it drops. -/
theorem createFrom_message {deps : HandlerDependencies} {creationTime : Timestamp}
    {o : CreateFromOptions Encryption EncryptionInput}
    {w : InternalRecordsWriteMessage Encryption} {built : RecordsWriteMessage}
    (h : createFrom (deps.validating normalize) A normalize currentTime creationTime o = .ok w)
    (hmessage : w.message = .ok built) :
    Records.isContextId o.recordsWriteMessage.contextId = true ∧
      immutableProperties built.descriptor =
        { immutableProperties o.recordsWriteMessage.descriptor with
          parentId := getRecordIdFromContextId
            (some (Records.getParentContextFromOfContextId o.recordsWriteMessage.contextId))
          squash := none
          permissionGrantId := none } ∧
      built.recordId = o.recordsWriteMessage.recordId ∧
      built.contextId = contextIdUnder
        (some (Records.getParentContextFromOfContextId o.recordsWriteMessage.contextId))
        o.recordsWriteMessage.recordId := by
  unfold createFrom at h
  obtain ⟨_, hparsed, hcreate⟩ := bind_eq_ok h
  obtain ⟨hcontext, hmodule, hschema⟩ := validating_parsed hparsed
  have hrecordId : (optionsFrom currentTime o).recordId = some o.recordsWriteMessage.recordId := rfl
  obtain ⟨hdescriptor, hrecord, hbuilt⟩ := create_message hrecordId hcreate hmessage
  refine ⟨hcontext, ?_, hrecord, hbuilt⟩
  have hmodule' : normalize (optionsFrom currentTime o).module =
      some (optionsFrom currentTime o).module := hmodule
  have hschema' : ∀ url ∈ (optionsFrom currentTime o).schema, normalize url = some url := hschema
  rw [createDescriptor_immutable hmodule' hschema' hdescriptor]
  simp only [optionsFrom, immutableProperties, Option.getD_some]

end Create

omit P in
/-- A descriptor whose parent is replaced, and whose grant and squash are dropped, is as
immutable as another just when nothing was replaced or dropped. -/
theorem immutable_replaced_iff {i d : RecordsWriteDescriptor}
    (h : immutableProperties i = immutableProperties d) (parentId : Option String) :
    immutableProperties i = { immutableProperties d with
        parentId, squash := none, permissionGrantId := none } ↔
      parentId = d.parentId ∧ i.squash = none ∧ i.permissionGrantId = none := by
  have hsquash : (immutableProperties i).squash = (immutableProperties d).squash := by rw [h]
  have hgrant : (immutableProperties i).permissionGrantId =
      (immutableProperties d).permissionGrantId := by rw [h]
  change i.squash = d.squash at hsquash
  change i.permissionGrantId = d.permissionGrantId at hgrant
  rw [h, hsquash, hgrant]
  constructor
  · intro heq
    exact ⟨(congrArg RecordsWriteDescriptor.parentId heq).symm,
      congrArg RecordsWriteDescriptor.squash heq,
      congrArg RecordsWriteDescriptor.permissionGrantId heq⟩
  · rintro ⟨rfl, hs, hp⟩
    rw [← hs, ← hp]
    rfl

end RecordsWrite

/-! ## The writes of a run -/

namespace WriteRequest
variable {deps : HandlerDependencies} {requests : List WriteRequest} {s : Stores}

omit deps requests s in
theorem isInitialWrite_of_getInitialWrite {existing : List StoredMessage}
    {i : RecordsWriteMessage} (h : RecordsWrite.getInitialWrite existing = .ok i) :
    RecordsWrite.isInitialWrite i = true := by
  unfold RecordsWrite.getInitialWrite at h
  cases hfind : existing.find? StoredMessage.isInitialWrite with
  | none => simp [hfind] at h
  | some x =>
    have hinit := List.find?_some hfind
    cases hx : x.asRecordsWrite with
    | none => simp [hfind, hx] at h
    | some v =>
      have heq : v = i := by simpa [hfind, hx] using h
      simpa [StoredMessage.isInitialWrite, hx, heq] using hinit

variable (known : GenericMessage → Prop)
    (hinj : ∀ a b, known a → known b → P.computeCid a = P.computeCid b → a = b)
    (hstart : NoRecords s)
    (horigin : ∀ tenant, ∀ r ∈ (s.messages tenant).rows, known r.message.message)
include hinj hstart horigin

/-- A write that a run stores was admitted at some point of the run. -/
theorem exists_admitted (hknown : ∀ r ∈ requests, known (.recordsWrite r.message)) {tenant : Did}
    {w : RecordsWriteMessage} (hw : EverStored deps requests s tenant w) :
    ∃ processed, processed <+: requests ∧
      RecordsWriteHandler.Admitted deps tenant w (processAll deps processed s) := by
  induction requests using List.reverseRecOn with
  | nil =>
    obtain ⟨r, hr, -⟩ := mem_of_everStored known hinj hstart horigin hknown hw
    cases hr
  | append_singleton requests r ih =>
    cases everStored_last known hinj horigin hstart.wf hknown hw with
    | inl hw =>
      obtain ⟨processed, hbefore, hadmitted⟩ :=
        ih (fun x hx => hknown x (List.mem_append_left _ hx)) hw
      exact ⟨processed, hbefore.trans (List.prefix_append _ _), hadmitted⟩
    | inr hlast =>
      obtain ⟨rfl, rfl, hadmitted⟩ := hlast
      exact ⟨requests, List.prefix_append _ _, hadmitted⟩

/-- Every write of a record agrees with the initial write in what is immutable. -/
theorem immutable_everStored (hknown : ∀ r ∈ requests, known (.recordsWrite r.message))
    (hentry : ∀ r ∈ requests, ∀ r' ∈ requests, RecordsWrite.getEntryId r.message =
      RecordsWrite.getEntryId r'.message → r.message.descriptor = r'.message.descriptor)
    {tenant : Did} {m i : RecordsWriteMessage} (hm : EverStored deps requests s tenant m)
    (hi : EverStored deps requests s tenant i) (hinit : RecordsWrite.isInitialWrite i = true)
    (hrecord : i.recordId = m.recordId) :
    RecordsWrite.immutableProperties i.descriptor =
      RecordsWrite.immutableProperties m.descriptor := by
  -- two initial writes of a record have one descriptor
  have hsame : ∀ v, EverStored deps requests s tenant v →
      RecordsWrite.isInitialWrite v = true → v.recordId = m.recordId →
      i.descriptor = v.descriptor := by
    intro v hv hvinit hvrecord
    obtain ⟨r, hr, rfl⟩ := mem_of_everStored known hinj hstart horigin hknown hi
    obtain ⟨r', hr', rfl⟩ := mem_of_everStored known hinj hstart horigin hknown hv
    apply hentry r hr r' hr'
    rw [RecordsWrite.isInitialWrite, beq_iff_eq] at hinit hvinit
    rw [hinit, hvinit, hrecord, hvrecord]
  cases hupdate : RecordsWrite.isInitialWrite m with
  | true => rw [hsame m hm hupdate rfl]
  | false =>
    obtain ⟨processed, hbefore, hadmitted⟩ :=
      exists_admitted known hinj hstart horigin hknown hm
    obtain ⟨v, hget, himmutable⟩ := hadmitted.exists_initialWrite hupdate
    have hvinit := isInitialWrite_of_getInitialWrite hget
    obtain ⟨x, hx, hmsg⟩ := mem_of_getInitialWrite hget
    have hholds : Holds known (EverStored deps processed s) (processAll deps processed s).messages :=
      holds_processAll known hinj horigin hstart.wf fun r hr => hknown r (hbefore.subset hr)
    obtain ⟨row, hrow, rfl⟩ := (mem_query_record (hholds.wf tenant)).mp hx
    obtain ⟨hrow, hbelongs⟩ := mem_recordRows.mp hrow
    rw [hsame v ⟨processed, hbefore, row, hrow, hmsg⟩ hvinit
      (by simpa [StoredMessage.belongsTo, hmsg] using hbelongs), himmutable]

end WriteRequest

namespace RecordsWrite
open WriteRequest

/-- The update made from a stored write is admitted as an update of its record, and keeps
record and context, just when the initial write invokes no grant, is no squash, and the
context of the source ends with parent and record. -/
theorem createFrom_admissible_iff {deps : HandlerDependencies} {requests : List WriteRequest}
    {s : Stores} {Encryption EncryptionInput : Type} (A : Authoring Encryption EncryptionInput)
    (normalize : NormalizeModuleUrl) (currentTime creationTime : Timestamp)
    (o : CreateFromOptions Encryption EncryptionInput) (hstart : NoRecords s)
    (hcid : ∀ a b, Involves requests s a → Involves requests s b →
      P.computeCid a = P.computeCid b → a = b)
    (hentry : ∀ r ∈ requests, ∀ r' ∈ requests, getEntryId r.message = getEntryId r'.message →
      r.message.descriptor = r'.message.descriptor)
    {tenant : Did} {i built : RecordsWriteMessage} {w : InternalRecordsWriteMessage Encryption}
    (hsource : EverStored (deps.validating normalize) requests s tenant o.recordsWriteMessage)
    (hinitial : EverStored (deps.validating normalize) requests s tenant i)
    (hinit : isInitialWrite i = true) (hrecord : i.recordId = o.recordsWriteMessage.recordId)
    (hcreate : createFrom (deps.validating normalize) A normalize currentTime creationTime o =
      .ok w)
    (hmessage : w.message = .ok built) :
    (verifyEqualityOfImmutableProperties i built = .ok () ∧
        built.recordId = o.recordsWriteMessage.recordId ∧
        built.contextId = o.recordsWriteMessage.contextId) ↔
      i.descriptor.permissionGrantId = none ∧ i.descriptor.squash = none ∧
        Records.EndsWithRecord o.recordsWriteMessage := by
  have himmutable := immutable_everStored (Involves requests s) hcid hstart
    (fun t r hr => Or.inl ⟨t, r, hr, rfl⟩) (fun r hr => Or.inr ⟨r, hr, rfl⟩) hentry hsource
    hinitial hinit hrecord
  obtain ⟨hcontext, hbuilt, hrecordId, hcontextId⟩ := createFrom_message hcreate hmessage
  have hverify : verifyEqualityOfImmutableProperties i built = .ok () ↔
      immutableProperties i.descriptor = immutableProperties built.descriptor := by
    unfold verifyEqualityOfImmutableProperties
    split
    · next heq => simp [heq]
    · next hne => simp [hne]
  rw [hverify, hbuilt, immutable_replaced_iff himmutable, hrecordId, hcontextId,
    ← context_kept_iff hcontext]
  constructor
  · rintro ⟨⟨hparent, hsquash, hgrant⟩, -, hkept⟩
    exact ⟨hgrant, hsquash, hparent, hkept⟩
  · rintro ⟨hgrant, hsquash, hparent, hkept⟩
    exact ⟨⟨hparent, hsquash, hgrant⟩, rfl, hkept⟩

end RecordsWrite

end EnboxDwn

namespace EnboxDwn.RecordsWrite
open WriteRequest
local instance textPlatform : Platform := Platform.ofText

def notebook : HandlerDependencies := HandlerDependencies.permissive.validating some

def pen : Authoring Unit Unit where
  buildEncryptionProperty _ := .ok ()
  computeDescriptorCid d := d.messageTimestamp
  computeAttestationCid a := a.descriptorCid
  computeEncryptionCid _ := "encryption"
  sign payload signer := payload.descriptorCid ++ signer.keyId

def note (permissionGrantId : Option String) : WriteRequest where
  tenant := "alice"
  message :=
    { recordId := "alice1", contextId := "alice1"
      descriptor := { module := "http://notes", modulePath := "note", dataCid := "x", dataSize := 1,
                      dataFormat := "text/plain", dateCreated := "1", messageTimestamp := "1",
                      permissionGrantId }
      authorization := { signature := "a", signer := "alice", permissionGrantId } }
  dataStream := some "x"

/-- The note is published, its data stays. -/
def publishing (permissionGrantId : Option String) : CreateFromOptions Unit Unit where
  recordsWriteMessage := (note permissionGrantId).message
  published := some true
  signer := some ⟨"alice#key"⟩

def published : InternalRecordsWriteMessage Unit where
  recordId := some "alice1"
  contextId := some "alice1"
  descriptor := { module := "http://notes", modulePath := "note", dataCid := "x", dataSize := 1,
                  dataFormat := "text/plain", dateCreated := "1", messageTimestamp := "2",
                  published := some true, datePublished := some "2" }
  attestation := none
  encryption := none
  authorization := some { signature := "2alice#key", signer := "alice" }

def publishedMessage : RecordsWriteMessage where
  recordId := "alice1"
  contextId := "alice1"
  descriptor := { module := "http://notes", modulePath := "note", dataCid := "x", dataSize := 1,
                  dataFormat := "text/plain", dateCreated := "1", messageTimestamp := "2",
                  published := some true, datePublished := some "2" }
  authorization := { signature := "2alice#key", signer := "alice" }

theorem createFrom_admissible_publishing :
    verifyEqualityOfImmutableProperties (note none).message publishedMessage = .ok () ∧
      publishedMessage.recordId = "alice1" ∧ publishedMessage.contextId = "alice1" := by
  have hstored : EverStored notebook [note none] {} "alice" (note none).message :=
    ⟨[note none], List.prefix_refl _, by decide⟩
  have hcreated : createFrom notebook pen some "2" "2" (publishing none) = .ok published := by
    decide
  refine (createFrom_admissible_iff pen some "2" "2" (publishing none)
    ⟨fun _ => Log.WellFormed.empty, by simp⟩ ?_ ?_ hstored hstored (by decide) rfl
    hcreated (by decide)).mpr (by decide)
  · rintro a b (⟨t, r, hr, -⟩ | ⟨r, hr, rfl⟩) hb hc
    · cases hr
    obtain ⟨t, r', hr', -⟩ | ⟨r', hr', rfl⟩ := hb
    · cases hr'
    rw [List.mem_singleton.mp hr, List.mem_singleton.mp hr']
  · intro r hr r' hr' _
    rw [List.mem_singleton.mp hr, List.mem_singleton.mp hr']

/-- A note was written by grant: an update made from it lacks the grant and is refused. -/
theorem createFrom_not_admissible_granted :
    ¬ ∀ (o : CreateFromOptions Unit Unit) (i built : RecordsWriteMessage)
      (w : InternalRecordsWriteMessage Unit),
      EverStored notebook [note (some "grant")] {} "alice" o.recordsWriteMessage →
      EverStored notebook [note (some "grant")] {} "alice" i → isInitialWrite i = true →
      i.recordId = o.recordsWriteMessage.recordId →
      createFrom notebook pen some "2" "2" o = .ok w → w.message = .ok built →
      verifyEqualityOfImmutableProperties i built = .ok () ∧
        built.recordId = o.recordsWriteMessage.recordId ∧
        built.contextId = o.recordsWriteMessage.contextId := by
  intro h
  have hstored : EverStored notebook [note (some "grant")] {} "alice"
      (note (some "grant")).message :=
    ⟨[note (some "grant")], List.prefix_refl _, by decide⟩
  have hcreated : createFrom notebook pen some "2" "2" (publishing (some "grant")) =
      .ok published := by
    decide
  have hrefused : verifyEqualityOfImmutableProperties (note (some "grant")).message
      publishedMessage ≠ .ok () := by
    decide
  exact hrefused (h _ _ _ _ hstored hstored (by decide) rfl hcreated
    (by decide)).1

end EnboxDwn.RecordsWrite
