import EnboxDwn.Reply

/-! The key values under which messages are indexed. -/
namespace EnboxDwn

namespace KeyValues

def get (kv : KeyValues) (name : String) : Option IndexValue := kv.lookup name

def text (s : String) : IndexValue := .single (.string s)
def flag (b : Bool) : IndexValue := .single (.boolean b)

/-- A property that is present only when the source object defines it. -/
def optional (name : String) (v : Option String) : KeyValues := v.toList.map fun s => (name, text s)

@[simp] theorem get_nil (name : String) : get [] name = none := rfl

@[simp] theorem get_cons (key name : String) (v : IndexValue) (kv : KeyValues) :
    get ((key, v) :: kv) name = if name = key then some v else get kv name := by
  by_cases h : name = key
  · simp [get, h]
  · simp [get, List.lookup_cons, h, beq_eq_false_iff_ne.mpr h]

@[simp] theorem get_append (a b : KeyValues) (name : String) :
    get (a ++ b) name = (get a name).or (get b name) := by
  induction a with
  | nil => rfl
  | cons x xs ih =>
    obtain ⟨key, v⟩ := x
    simp only [List.cons_append, get_cons, ih]
    split <;> rfl

@[simp] theorem get_optional (key name : String) (v : Option String) :
    get (optional key v) name = if name = key then v.map text else none := by
  cases v <;> simp [optional]

end KeyValues

open KeyValues

namespace Records

def isRecordsWrite : GenericMessage → Bool
  | .recordsWrite _ => true
  | _ => false

/-- Tags are indexed as `tag.<property>`, away from the first-class index keys. -/
def buildTagIndexes (tags : KeyValues) : KeyValues := tags.map fun (p, v) => ("tag." ++ p, v)

theorem tag_injective {p q : String} : "tag." ++ p = "tag." ++ q ↔ p = q := by
  constructor
  · intro h
    have := congrArg String.toList h
    simp only [String.toList_append, List.append_cancel_left_eq] at this
    exact String.toList_inj.mp this
  · rintro rfl
    rfl

@[simp] theorem get_buildTagIndexes_tag (tags : KeyValues) (p : String) :
    get (buildTagIndexes tags) ("tag." ++ p) = get tags p := by
  induction tags with
  | nil => rfl
  | cons x xs ih =>
    obtain ⟨q, v⟩ := x
    simp only [buildTagIndexes, List.map_cons, get_cons, tag_injective] at ih ⊢
    rw [ih]

theorem get_buildTagIndexes_of_not_tag (tags : KeyValues) {name : String}
    (h : startsWith name "tag." = false) : get (buildTagIndexes tags) name = none := by
  induction tags with
  | nil => rfl
  | cons x xs ih =>
    obtain ⟨q, v⟩ := x
    have hne : name ≠ "tag." ++ q := by
      rintro rfl
      simp [startsWith] at h
    simp only [buildTagIndexes, List.map_cons, get_cons, if_neg hne] at ih ⊢
    exact ih

theorem tag_ne {key : String} (h : startsWith key "tag." = false) (name : String) :
    "tag." ++ name ≠ key := by
  intro heq
  simp [← heq, startsWith] at h

/-- Only flattened tags answer to a tag key. -/
theorem get_tag_of_plain (kv : KeyValues) (h : kv.all (fun x => !startsWith x.1 "tag.") = true)
    (name : String) : get kv ("tag." ++ name) = none := by
  induction kv with
  | nil => rfl
  | cons x xs ih =>
    obtain ⟨key, v⟩ := x
    simp only [List.all_cons, Bool.and_eq_true, Bool.not_eq_true'] at h
    rw [get_cons, if_neg (tag_ne h.1 name), ih h.2]

theorem get_tag_optional {key : String} (h : startsWith key "tag." = false) (v : Option String)
    (name : String) : get (optional key v) ("tag." ++ name) = none := by
  rw [get_optional, if_neg (tag_ne h name)]

end Records

namespace RecordsDelete

def author (m : RecordsDeleteMessage) : Did := Message.getAuthor m.authorization

/-- Immutable facts come from the initial write, visibility facts from the newest
retained write, the rest from the delete itself. -/
def constructIndexes (m : RecordsDeleteMessage)
    (initialWrite visibilitySourceWrite : RecordsWriteMessage) : KeyValues :=
  let d := m.descriptor
  let i := initialWrite.descriptor
  let v := visibilitySourceWrite.descriptor
  [("isLatestBaseState", flag true), ("published", flag (v.published.getD false)),
    ("module", text i.module), ("modulePath", text i.modulePath),
    ("dateCreated", text i.dateCreated), ("contextId", text initialWrite.contextId),
    ("author", text (author m)),
    ("interface", text "Records"), ("method", text "Delete"),
    ("messageTimestamp", text d.messageTimestamp), ("recordId", text d.recordId),
    ("prune", flag d.prune)] ++
  optional "datePublished" v.datePublished ++ optional "recipient" i.recipient ++
  optional "schema" i.schema ++ optional "parentId" i.parentId ++
  optional "permissionGrantId" d.permissionGrantId ++
  Records.buildTagIndexes (v.tags.getD [])

section Lookup
attribute [local simp] constructIndexes
variable (m : RecordsDeleteMessage) (i v : RecordsWriteMessage)

@[simp] theorem get_interface : get (constructIndexes m i v) "interface" = some (text "Records") := by
  simp

@[simp] theorem get_module : get (constructIndexes m i v) "module" = some (text i.descriptor.module) := by
  simp

@[simp] theorem get_modulePath : get (constructIndexes m i v) "modulePath" = some (text i.descriptor.modulePath) := by
  simp

@[simp] theorem get_dateCreated : get (constructIndexes m i v) "dateCreated" = some (text i.descriptor.dateCreated) := by
  simp

@[simp] theorem get_messageTimestamp : get (constructIndexes m i v) "messageTimestamp" = some (text m.descriptor.messageTimestamp) := by
  simp

@[simp] theorem get_parentId : get (constructIndexes m i v) "parentId" = i.descriptor.parentId.map text := by
  have htag (tags : KeyValues) : get (Records.buildTagIndexes tags) "parentId" = none :=
    Records.get_buildTagIndexes_of_not_tag tags (by decide)
  simp [htag]

@[simp] theorem get_permissionGrantId : get (constructIndexes m i v) "permissionGrantId" = m.descriptor.permissionGrantId.map text := by
  have htag (tags : KeyValues) : get (Records.buildTagIndexes tags) "permissionGrantId" = none :=
    Records.get_buildTagIndexes_of_not_tag tags (by decide)
  simp [htag]

@[simp] theorem get_isLatestBaseState : get (constructIndexes m i v) "isLatestBaseState" = some (flag true) := by
  simp

@[simp] theorem get_recordId : get (constructIndexes m i v) "recordId" = some (text m.descriptor.recordId) := by
  simp

@[simp] theorem get_entryId : get (constructIndexes m i v) "entryId" = none := by
  have htag (tags : KeyValues) : get (Records.buildTagIndexes tags) "entryId" = none :=
    Records.get_buildTagIndexes_of_not_tag tags (by decide)
  simp [htag]

@[simp] theorem get_contextId : get (constructIndexes m i v) "contextId" = some (text i.contextId) := by
  simp

@[simp] theorem get_tag (name : String) : get (constructIndexes m i v) ("tag." ++ name) =
    get (v.descriptor.tags.getD []) name := by
  unfold constructIndexes
  simp only [get_append]
  rw [Records.get_tag_of_plain _ (by simp +decide), Records.get_tag_optional (by decide),
    Records.get_tag_optional (by decide), Records.get_tag_optional (by decide),
    Records.get_tag_optional (by decide), Records.get_tag_optional (by decide)]
  simp

end Lookup

end RecordsDelete

namespace ModulesConfigure

def constructIndexes (m : ModulesConfigureMessage) (isLatestBaseState : Bool) : KeyValues :=
  let d := m.descriptor
  [("interface", text "Modules"), ("method", text "Configure"),
    ("messageTimestamp", text d.messageTimestamp),
    ("author", text (Message.getAuthor m.authorization)),
    ("module", text d.definitionModule), ("published", flag d.definitionPublished),
    ("isLatestBaseState", flag isLatestBaseState)] ++
  optional "permissionGrantId" d.permissionGrantId

end ModulesConfigure

variable [P : Platform]

namespace RecordsWrite

def author (m : RecordsWriteMessage) : Did := Message.getAuthor m.authorization

def getEntryId (m : RecordsWriteMessage) : String := P.computeEntryId (author m) m.descriptor

/-- The recordId of an initial write is its own entry id. -/
def isInitialWrite (m : RecordsWriteMessage) : Bool := getEntryId m == m.recordId

def constructIndexes (m : RecordsWriteMessage) (isLatestBaseState : Bool) : KeyValues :=
  let d := m.descriptor
  [("interface", text "Records"), ("method", text "Write"),
    ("module", text d.module), ("modulePath", text d.modulePath),
    ("dataCid", text d.dataCid), ("dataSize", .single (.number d.dataSize)),
    ("dataFormat", text d.dataFormat), ("dateCreated", text d.dateCreated),
    ("messageTimestamp", text d.messageTimestamp)] ++
  optional "recipient" d.recipient ++ optional "schema" d.schema ++
  optional "parentId" d.parentId ++ optional "datePublished" d.datePublished ++
  optional "permissionGrantId" d.permissionGrantId ++
  [("isLatestBaseState", flag isLatestBaseState), ("published", flag (d.published.getD false)),
    ("squash", flag (d.squash.getD false)), ("author", text (author m)),
    ("recordId", text m.recordId), ("entryId", text (getEntryId m))] ++
  (if isLatestBaseState then Records.buildTagIndexes (d.tags.getD []) else []) ++
  optional "attester" m.attesters.head? ++
  [("contextId", text m.contextId)]

section Lookup
attribute [local simp] constructIndexes
variable (m : RecordsWriteMessage) (latest : Bool)

@[simp] theorem get_interface : get (constructIndexes m latest) "interface" = some (text "Records") := by
  simp

@[simp] theorem get_method : get (constructIndexes m latest) "method" = some (text "Write") := by
  simp

@[simp] theorem get_squash : get (constructIndexes m latest) "squash" = some (flag (m.descriptor.squash.getD false)) := by
  simp

@[simp] theorem get_module : get (constructIndexes m latest) "module" = some (text m.descriptor.module) := by
  simp

@[simp] theorem get_modulePath : get (constructIndexes m latest) "modulePath" = some (text m.descriptor.modulePath) := by
  simp

@[simp] theorem get_dateCreated : get (constructIndexes m latest) "dateCreated" = some (text m.descriptor.dateCreated) := by
  simp

@[simp] theorem get_messageTimestamp : get (constructIndexes m latest) "messageTimestamp" = some (text m.descriptor.messageTimestamp) := by
  simp

@[simp] theorem get_parentId : get (constructIndexes m latest) "parentId" = m.descriptor.parentId.map text := by
  have htag (tags : KeyValues) : get (Records.buildTagIndexes tags) "parentId" = none :=
    Records.get_buildTagIndexes_of_not_tag tags (by decide)
  cases latest <;> simp [htag]

@[simp] theorem get_permissionGrantId : get (constructIndexes m latest) "permissionGrantId" = m.descriptor.permissionGrantId.map text := by
  have htag (tags : KeyValues) : get (Records.buildTagIndexes tags) "permissionGrantId" = none :=
    Records.get_buildTagIndexes_of_not_tag tags (by decide)
  cases latest <;> simp [htag]

@[simp] theorem get_isLatestBaseState : get (constructIndexes m latest) "isLatestBaseState" = some (flag latest) := by
  simp

@[simp] theorem get_recordId : get (constructIndexes m latest) "recordId" = some (text m.recordId) := by
  simp

@[simp] theorem get_entryId : get (constructIndexes m latest) "entryId" = some (text (getEntryId m)) := by
  simp

@[simp] theorem get_contextId : get (constructIndexes m latest) "contextId" = some (text m.contextId) := by
  have htag (tags : KeyValues) : get (Records.buildTagIndexes tags) "contextId" = none :=
    Records.get_buildTagIndexes_of_not_tag tags (by decide)
  cases latest <;> simp [htag]

@[simp] theorem get_tag (name : String) : get (constructIndexes m latest) ("tag." ++ name) =
    if latest then get (m.descriptor.tags.getD []) name else none := by
  have htags : get (if latest then Records.buildTagIndexes (m.descriptor.tags.getD []) else [])
      ("tag." ++ name) = if latest then get (m.descriptor.tags.getD []) name else none := by
    cases latest <;> simp
  unfold constructIndexes
  simp only [get_append, htags]
  rw [Records.get_tag_of_plain _ (by simp +decide), Records.get_tag_optional (by decide),
    Records.get_tag_optional (by decide), Records.get_tag_optional (by decide),
    Records.get_tag_optional (by decide), Records.get_tag_optional (by decide),
    Records.get_tag_of_plain _ (by simp +decide), Records.get_tag_optional (by decide),
    Records.get_tag_of_plain _ (by simp +decide)]
  simp

end Lookup

end RecordsWrite

end EnboxDwn
