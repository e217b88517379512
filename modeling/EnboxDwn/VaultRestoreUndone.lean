import EnboxDwn.VaultRestore

/-! When a failed restore leaves the vault as it was: what a status becomes that is merged over
another one and back, and which steps of a restore can fail. -/
namespace EnboxDwn.Agent
namespace HdIdentityVault
open Utf16

namespace Value

theorem stringifyEntries_eq (entries : List (Utf16 × Value)) :
    stringifyEntries entries = entries.map fun e => (e.1, stringify e.2) := by
  induction entries with
  | nil => rfl
  | cons e rest ih => rw [stringifyEntries, ih, List.map_cons]

theorem parseEntries_eq (entries : List (Utf16 × Json)) :
    parseEntries entries = entries.map fun e => (e.1, parse e.2) := by
  induction entries with
  | nil => rfl
  | cons e rest ih => rw [parseEntries, ih, List.map_cons]

theorem stringifyAll_parseAll {ts : List Json} (h : ∀ t ∈ ts, stringify (parse t) = t) :
    stringifyAll (parseAll ts) = ts := by
  induction ts with
  | nil => rfl
  | cons t ts ih =>
    rw [parseAll, stringifyAll, h t (List.mem_cons_self ..),
      ih fun t' ht' => h t' (List.mem_cons_of_mem _ ht')]

theorem stringifyEntries_parseEntries {es : List (Utf16 × Json)}
    (h : ∀ e ∈ es, stringify (parse e.2) = e.2) : stringifyEntries (parseEntries es) = es := by
  induction es with
  | nil => rfl
  | cons e es ih =>
    rw [parseEntries, stringifyEntries, h e (List.mem_cons_self ..),
      ih fun e' he' => h e' (List.mem_cons_of_mem _ he')]

/-- What was read of a written text is written as that text. -/
theorem stringify_parse (t : Json) : stringify (parse t) = t := by
  induction t using Json.induction with
  | null => rfl
  | bool b => rfl
  | number x => rfl
  | string s => rfl
  | array elements ih => rw [parse, stringify, stringifyAll_parseAll ih]
  | object entries ih => rw [parse, stringify, stringifyEntries_parseEntries ih]

end Value

/-! ## Assignment -/

section Assign
variable {β γ : Type} {name other : Utf16} {value old : β} {es : List (Utf16 × β)}

theorem lookup_assign (name other : Utf16) (value : β) (es : List (Utf16 × β)) :
    (assign name value es).lookup other = if other = name then some value else es.lookup other := by
  induction es with
  | nil =>
    by_cases h : other = name
    · simp [assign, h]
    · simp [assign, List.lookup_cons, beq_eq_false_iff_ne.mpr h, h]
  | cons e rest ih =>
    rw [assign]
    by_cases he : e.1 = name
    · rw [if_pos he, List.lookup_cons, List.lookup_cons, he]
      by_cases h : other = name
      · simp [h]
      · simp [beq_eq_false_iff_ne.mpr h, h]
    · rw [if_neg he, List.lookup_cons, List.lookup_cons, ih]
      by_cases h : other = e.1
      · have hne : other ≠ name := fun heq => he (h.symm.trans heq)
        simp [h, h ▸ hne]
      · simp [beq_eq_false_iff_ne.mpr h]

theorem map_assign (f : β → γ) (name : Utf16) (value : β) (es : List (Utf16 × β)) :
    (assign name value es).map (fun e => (e.1, f e.2)) =
      assign name (f value) (es.map fun e => (e.1, f e.2)) := by
  induction es with
  | nil => rfl
  | cons e rest ih =>
    rw [assign, List.map_cons, assign]
    split
    · rfl
    · rw [List.map_cons, ih]

theorem lookup_map (f : β → γ) (name : Utf16) (es : List (Utf16 × β)) :
    (es.map fun e => (e.1, f e.2)).lookup name = (es.lookup name).map f := by
  induction es with
  | nil => rfl
  | cons e rest ih =>
    rw [List.map_cons, List.lookup_cons, List.lookup_cons, ih]
    cases name == e.1 <;> rfl

theorem assign_assign (name : Utf16) (value old : β) (es : List (Utf16 × β)) :
    assign name value (assign name old es) = assign name value es := by
  induction es with
  | nil => simp [assign]
  | cons e rest ih =>
    by_cases he : e.1 = name
    · simp [assign, he]
    · simp [assign, he, ih]

theorem assign_self (h : es.lookup name = some value) : assign name value es = es := by
  induction es with
  | nil => cases h
  | cons e rest ih =>
    rw [List.lookup_cons] at h
    by_cases he : e.1 = name
    · subst he
      simp only [BEq.rfl, Option.some.injEq] at h
      rw [assign, if_pos rfl, ← h]
    · have hne : (name == e.1) = false := beq_eq_false_iff_ne.mpr (Ne.symm he)
      rw [hne] at h
      rw [assign, if_neg he, ih h]

/-- A key that is there keeps its place, whatever is assigned before. -/
theorem assign_comm (hne : name ≠ other) (hthere : (es.lookup name).isSome) (value old : β) :
    assign name value (assign other old es) = assign other old (assign name value es) := by
  induction es with
  | nil => cases hthere
  | cons e rest ih =>
    rw [List.lookup_cons] at hthere
    by_cases hname : e.1 = name
    · have hother : e.1 ≠ other := fun h => hne (hname.symm.trans h)
      simp [assign, hname, hne]
    · have hfalse : (name == e.1) = false := beq_eq_false_iff_ne.mpr (Ne.symm hname)
      rw [hfalse] at hthere
      by_cases hother : e.1 = other
      · simp [assign, hother, Ne.symm hne]
      · simp [assign, hname, hother, ih hthere]

end Assign

theorem initialized_ne_lastBackup : initializedName ≠ lastBackupName := by decide
theorem initialized_ne_lastRestore : initializedName ≠ lastRestoreName := by decide
theorem lastBackup_ne_lastRestore : lastBackupName ≠ lastRestoreName := by decide

/-! ## Statuses -/

section Status
variable {β : Type}

def assignStatus (initialized lastBackup lastRestore : β) (es : List (Utf16 × β)) :
    List (Utf16 × β) :=
  assign lastRestoreName lastRestore
    (assign lastBackupName lastBackup (assign initializedName initialized es))

theorem lookup_initialized (i b r : β) (es : List (Utf16 × β)) :
    (assignStatus i b r es).lookup initializedName = some i := by
  simp [assignStatus, lookup_assign, initialized_ne_lastBackup, initialized_ne_lastRestore]

theorem lookup_lastBackup (i b r : β) (es : List (Utf16 × β)) :
    (assignStatus i b r es).lookup lastBackupName = some b := by
  simp [assignStatus, lookup_assign, lastBackup_ne_lastRestore]

theorem lookup_lastRestore (i b r : β) (es : List (Utf16 × β)) :
    (assignStatus i b r es).lookup lastRestoreName = some r := by
  simp [assignStatus, lookup_assign]

structure HasNames (es : List (Utf16 × β)) : Prop where
  initialized : (es.lookup initializedName).isSome
  lastBackup : (es.lookup lastBackupName).isSome
  lastRestore : (es.lookup lastRestoreName).isSome

theorem assignStatus_again {es : List (Utf16 × β)} (h : HasNames es) (i b r i' b' r' : β) :
    assignStatus i' b' r' (assignStatus i b r es) = assignStatus i' b' r' es := by
  have hi : ((assign lastBackupName b (assign initializedName i es)).lookup
      initializedName).isSome := by simp [lookup_assign, initialized_ne_lastBackup]
  have hi' : ((assign initializedName i es).lookup initializedName).isSome := by
    simp [lookup_assign]
  have hb : ((assign lastBackupName b (assign initializedName i' es)).lookup
      lastBackupName).isSome := by simp [lookup_assign]
  unfold assignStatus
  rw [assign_comm initialized_ne_lastRestore hi, assign_comm initialized_ne_lastBackup hi',
    assign_assign, assign_comm lastBackup_ne_lastRestore hb, assign_assign, assign_assign]

theorem assignStatus_eq {es : List (Utf16 × β)} {i b r : β} : assignStatus i b r es = es ↔
    es.lookup initializedName = some i ∧ es.lookup lastBackupName = some b ∧
      es.lookup lastRestoreName = some r := by
  constructor
  · intro h
    rw [← h]
    exact ⟨lookup_initialized i b r es, lookup_lastBackup i b r es, lookup_lastRestore i b r es⟩
  · rintro ⟨hi, hb, hr⟩
    rw [assignStatus, assign_self hi, assign_self hb, assign_self hr]

end Status

/-! ## The stored status -/

section Stored
variable {Key Portable Did : Type} {v w : Vault Key Portable} {es : List (Utf16 × Json)}

structure IsStatus (es : List (Utf16 × Json)) (initialized : Bool) : Prop where
  flag : es.lookup initializedName = some (.bool initialized)
  names : HasNames es

theorem lookup_parse (name : Utf16) :
    (Value.parseEntries es).lookup name = (es.lookup name).map Value.parse := by
  rw [Value.parseEntries_eq, lookup_map]

theorem isIdentityVaultStatus_iff {status : List (Utf16 × Value)} {initialized : Bool} :
    isIdentityVaultStatus (Value.parse (.object es)) = some (status, initialized) ↔
      status = Value.parseEntries es ∧ IsStatus es initialized := by
  simp only [Value.parse, isIdentityVaultStatus, lookup_parse]
  constructor
  · intro h
    cases hi : es.lookup initializedName with
    | none => simp [hi] at h
    | some flag =>
      cases hb : es.lookup lastBackupName with
      | none => simp [hi, hb] at h
      | some b =>
        cases hr : es.lookup lastRestoreName with
        | none => simp [hi, hb, hr] at h
        | some r =>
          cases flag with
          | bool flag =>
            simp only [hi, hb, hr, Option.map_some, Value.parse, Option.some.injEq,
              Prod.mk.injEq] at h
            obtain ⟨rfl, rfl⟩ := h
            exact ⟨rfl, hi, by simp [hi], by simp [hb], by simp [hr]⟩
          | null | number | string | array | object => simp [hi, hb, hr, Value.parse] at h
  · rintro ⟨rfl, hflag, -, hb, hr⟩
    obtain ⟨b, hb⟩ := Option.isSome_iff_exists.mp hb
    obtain ⟨r, hr⟩ := Option.isSome_iff_exists.mp hr
    simp [hflag, hb, hr, Value.parse]

theorem getStatus_eq {initialized : Bool} (hstored : v.vaultStatus = some (.object es))
    (hes : IsStatus es initialized) : getStatus v = (.ok (Value.parseEntries es, initialized),
      if initialized then { v with cachedInitialized := some (.bool true) } else v) := by
  have hstatus := isIdentityVaultStatus_iff.mpr ⟨rfl, hes⟩
  simp only [getStatus, hstored, hstatus]

/-- What is no status cannot be read. -/
theorem getStatus_error (hstored : v.vaultStatus = some (.object es))
    (hes : ∀ initialized, ¬ IsStatus es initialized) :
    getStatus v = (.error "HdIdentityVault: Invalid IdentityVaultStatus object in store", v) := by
  have hnone : isIdentityVaultStatus (Value.parse (.object es)) = none := by
    cases h : isIdentityVaultStatus (Value.parse (.object es)) with
    | none => rfl
    | some found => exact absurd (isIdentityVaultStatus_iff.mp h).2 (hes found.2)
  simp only [getStatus, hstored, hnone]

/-- The stored entries after an update. -/
def merge (update : StatusUpdate) (es : List (Utf16 × Json)) : List (Utf16 × Json) :=
  let field (name : Utf16) (value : Option Value) : Json :=
    (coalesce value (Value.parse ((es.lookup name).getD .null))).stringify
  assignStatus (field initializedName update.initialized) (field lastBackupName update.lastBackup)
    (field lastRestoreName update.lastRestore) es

theorem stringify_updated (update : StatusUpdate) (es : List (Utf16 × Json)) :
    Value.stringify (.object (updated update (Value.parseEntries es))) =
      .object (merge update es) := by
  have hcurrent (name : Utf16) : ((Value.parseEntries es).lookup name).getD .null =
      Value.parse ((es.lookup name).getD .null) := by
    rw [lookup_parse]
    cases es.lookup name <;> rfl
  have hback : (Value.parseEntries es).map (fun e => (e.1, e.2.stringify)) = es := by
    rw [← Value.stringifyEntries_eq]
    exact Value.stringifyEntries_parseEntries fun e _ => Value.stringify_parse e.2
  rw [Value.stringify, Value.stringifyEntries_eq, updated, map_assign, map_assign, map_assign, hback]
  simp only [hcurrent]
  rfl

theorem setStatus_eq {initialized : Bool} (hstored : v.vaultStatus = some (.object es))
    (hes : IsStatus es initialized) (update : StatusUpdate) :
    setStatus update v = (.ok (), { v with
      vaultStatus := some (.object (merge update es))
      cachedInitialized := some (coalesce update.initialized (.bool initialized)) }) := by
  have hflag : (updated update (Value.parseEntries es)).lookup initializedName =
      some (coalesce update.initialized (.bool initialized)) := by
    simp [updated, lookup_assign, initialized_ne_lastBackup, initialized_ne_lastRestore,
      lookup_parse, hes.flag, Value.parse]
  rw [setStatus, Action.andThen, getStatus_eq hstored hes]
  simp only [hflag, stringify_updated]
  cases initialized <;> rfl

theorem setStatus_error (hstored : v.vaultStatus = some (.object es))
    (hes : ∀ initialized, ¬ IsStatus es initialized) (update : StatusUpdate) :
    ∃ message, setStatus update v = (.error message, v) := by
  rw [setStatus, Action.andThen, getStatus_error hstored hes]
  exact ⟨_, rfl⟩

/-- An update whose flag is a flag, if it has one. -/
def StatusUpdate.IsValid (update : StatusUpdate) : Prop :=
  ∀ value, update.initialized = some value → value = .null ∨ ∃ b, value = .bool b

theorem coalesce_valid {update : StatusUpdate} (h : update.IsValid) :
    ∃ b, coalesce update.initialized (.bool true) = .bool b := by
  cases hi : update.initialized with
  | none => exact ⟨true, rfl⟩
  | some value =>
    cases h value hi with
    | inl hnull =>
      subst hnull
      exact ⟨true, rfl⟩
    | inr hbool =>
      obtain ⟨b, rfl⟩ := hbool
      exact ⟨b, rfl⟩

theorem valid_of_coalesce {update : StatusUpdate} {b : Bool}
    (h : (coalesce update.initialized (.bool true)).stringify = .bool b) : update.IsValid := by
  intro value hvalue
  rw [hvalue] at h
  cases value with
  | null => exact .inl rfl
  | bool b => exact .inr ⟨b, rfl⟩
  | number x => cases x <;> cases h
  | string s => cases h
  | array elements => cases h
  | object entries => cases h

theorem hasNames_merge (update : StatusUpdate) (es : List (Utf16 × Json)) :
    HasNames (merge update es) := by
  refine ⟨?_, ?_, ?_⟩
  · rw [merge, lookup_initialized]
    rfl
  · rw [merge, lookup_lastBackup]
    rfl
  · rw [merge, lookup_lastRestore]
    rfl

/-- The merged entries are a status when the update is valid. -/
theorem isStatus_merge (hes : IsStatus es true) {update : StatusUpdate} {b : Bool} :
    IsStatus (merge update es) b ↔ coalesce update.initialized (.bool true) = .bool b := by
  have hflag : (merge update es).lookup initializedName =
      some (coalesce update.initialized (.bool true)).stringify := by
    simp only [merge, lookup_initialized, hes.flag]
    rfl
  constructor
  · intro h
    have heq := h.flag
    rw [hflag, Option.some.injEq] at heq
    obtain ⟨b', hb'⟩ := coalesce_valid (valid_of_coalesce heq)
    rw [hb'] at heq ⊢
    cases heq
    rfl
  · intro h
    refine ⟨?_, hasNames_merge update es⟩
    rw [hflag, h]
    rfl

/-- A field of a backup's status that nothing is left of once it is written. -/
def Blank (value : Option Value) : Prop := (coalesce value .null).stringify = .null

/-- What becomes of a field that is merged over and then back: only an empty one takes the value of
the other status. -/
def mergedBack (old : Json) (value : Option Value) : Json :=
  match old with
  | .null => (coalesce value .null).stringify
  | old => old

theorem coalesce_back (old : Json) (value : Option Value) :
    (coalesce (some (Value.parse old))
      (Value.parse (coalesce value (Value.parse old)).stringify)).stringify = mergedBack old value := by
  cases old with
  | null => exact Value.stringify_parse _
  | bool | number | string => rfl
  | array elements => exact Value.stringify_parse (.array elements)
  | object entries => exact Value.stringify_parse (.object entries)

theorem mergedBack_eq {old : Json} {value : Option Value} :
    mergedBack old value = old ↔ (old = .null → Blank value) := by
  cases old <;> simp [mergedBack, Blank]

theorem merge_back {es : List (Utf16 × Json)} (hes : IsStatus es true) (update : StatusUpdate) :
    merge (allOf (Value.parseEntries es)) (merge update es) =
      assignStatus (.bool true)
        (mergedBack ((es.lookup lastBackupName).getD .null) update.lastBackup)
        (mergedBack ((es.lookup lastRestoreName).getD .null) update.lastRestore) es := by
  obtain ⟨b, hb⟩ := Option.isSome_iff_exists.mp hes.names.lastBackup
  obtain ⟨r, hr⟩ := Option.isSome_iff_exists.mp hes.names.lastRestore
  have hagain := assignStatus_again hes.names
  rw [merge]
  simp only [allOf, lookup_parse, hes.flag, hb, hr, Option.map_some]
  rw [← coalesce_back, ← coalesce_back]
  unfold merge
  simp only [lookup_initialized, lookup_lastBackup, lookup_lastRestore, hb, hr, Option.getD_some,
    hagain]
  rfl

/-- The status that was stored comes back if the backup fills none of its empty fields. -/
theorem merge_back_eq {es : List (Utf16 × Json)} (hes : IsStatus es true) (update : StatusUpdate) :
    merge (allOf (Value.parseEntries es)) (merge update es) = es ↔
      (es.lookup lastBackupName = some .null → Blank update.lastBackup) ∧
        (es.lookup lastRestoreName = some .null → Blank update.lastRestore) := by
  obtain ⟨b, hb⟩ := Option.isSome_iff_exists.mp hes.names.lastBackup
  obtain ⟨r, hr⟩ := Option.isSome_iff_exists.mp hes.names.lastRestore
  rw [merge_back hes, assignStatus_eq]
  simp only [hes.flag, hb, hr, Option.getD_some, Option.some.injEq, true_and]
  rw [@eq_comm _ b, @eq_comm _ r, mergedBack_eq, mergedBack_eq]

end Stored

/-! ## The steps of a restore -/

section Restore
variable {Key Portable Did : Type} (platform : Platform Key Portable Did)
  {v w : Vault Key Portable} {es : List (Utf16 × Json)}

/-- A value that the store has given back, and takes again. -/
def Platform.Keeps (value : Option Value) : Prop :=
  ∀ x, value = some x → platform.put (some x) = some (some x)

/-- An initialized vault. While it is locked no DID is cached. -/
structure Initialized (v : Vault Key Portable) (es : List (Utf16 × Json)) : Prop where
  stored : v.vaultStatus = some (.object es)
  status : IsStatus es true
  did : platform.Keeps v.did
  key : platform.Keeps v.contentEncryptionKeyJwe
  locked : v.contentEncryptionKey = none → v.cachedPortableDid = none

omit platform in
theorem isInitialized_eq {initialized : Bool} (hstored : v.vaultStatus = some (.object es))
    (hes : IsStatus es initialized)
    (hcached : ∀ b, v.cachedInitialized = some (.bool b) → b = true → initialized = true) :
    ∃ cached, isInitialized v = (.ok initialized, { v with cachedInitialized := cached }) ∧
      (initialized = true → cached = some (.bool true)) := by
  unfold isInitialized
  split
  next htrue =>
    have hflag := hcached true htrue rfl
    subst hflag
    exact ⟨_, by rw [← htrue], fun _ => rfl⟩
  next =>
    rw [Action.andThen, getStatus_eq hstored hes]
    cases initialized with
    | true => exact ⟨some (.bool true), rfl, fun _ => rfl⟩
    | false => exact ⟨v.cachedInitialized, rfl, fun h => by cases h⟩

/-- The vault before a new key is tried. -/
def cleared (cached : Option Value) (v : Vault Key Portable) : Vault Key Portable :=
  { v with cachedInitialized := cached, contentEncryptionKey := none, cachedPortableDid := none }

theorem unlock_eq (hstored : v.vaultStatus = some (.object es)) (hes : IsStatus es true)
    (hlocked : v.contentEncryptionKey = none → v.cachedPortableDid = none) (password : Utf16) :
    ∃ cached, unlock platform password v =
      match stored v.contentEncryptionKeyJwe missingKey with
      | .error message => (.error message, cleared cached v)
      | .ok jwe =>
        match platform.unwrap jwe password with
        | some key => (.ok (), { cleared cached v with contentEncryptionKey := some key })
        | none => (.error "HdIdentityVault: Unable to unlock the vault due to an incorrect password.",
            cleared cached v) := by
  obtain ⟨cached, hinit, hcached⟩ := isInitialized_eq hstored hes (fun _ _ _ => rfl)
  have htrue := hcached rfl
  subst htrue
  refine ⟨some (.bool true), ?_⟩
  have hclear : (if v.contentEncryptionKey.isSome then
      lock { v with cachedInitialized := some (.bool true) }
      else (.ok (), { v with cachedInitialized := some (.bool true) })) =
        (.ok (), cleared (some (.bool true)) v) := by
    split
    · rfl
    next hnone =>
      have hkey := Option.not_isSome_iff_eq_none.mp hnone
      have hdid := hlocked hkey
      cases v
      subst hkey hdid
      rfl
  rw [unlock, Action.andThen, hinit]
  dsimp only
  rw [if_pos rfl, Action.andThen, hclear]
  dsimp only [Action.andThen, getStoredContentEncryptionKey, cleared]
  cases stored v.contentEncryptionKeyJwe missingKey with
  | error message => rfl
  | ok jwe =>
    cases hunwrap : platform.unwrap jwe password with
    | none => simp only [hunwrap]
    | some key => simp only [hunwrap]

theorem unlock_uninitialized (hstored : v.vaultStatus = some (.object es))
    (hes : ¬ IsStatus es true) (hcached : v.cachedInitialized ≠ some (.bool true))
    (password : Utf16) : ∃ message, unlock platform password v = (.error message, v) := by
  have hinit : isInitialized v = getStatus.andThen (fun status v => (.ok status.2, v)) v := by
    unfold isInitialized
    split
    next htrue => exact absurd htrue hcached
    next => rfl
  rw [unlock, Action.andThen, hinit, Action.andThen]
  by_cases hfalse : IsStatus es false
  · rw [getStatus_eq hstored hfalse]
    exact ⟨_, rfl⟩
  · rw [getStatus_error hstored (by
      intro b
      cases b with
      | true => exact hes
      | false => exact hfalse)]
    exact ⟨_, rfl⟩

/-- The DID that the stored value yields under the key. -/
def didUnder (did : Option Value) (key : Key) : Option Did :=
  (stored did missingDid).toOption.bind fun did => (platform.openDid did key).bind platform.bearer

theorem getDid_eq {key : Key} (hkey : v.contentEncryptionKey = some key)
    (hcached : v.cachedPortableDid = none) :
    (getDid platform v).1.toOption = didUnder platform v.did key := by
  simp only [getDid, hkey, Action.andThen, hcached, getStoredDid, didUnder]
  cases stored v.did missingDid with
  | error message => rfl
  | ok did =>
    dsimp only [Except.toOption, Option.bind]
    cases platform.openDid did key with
    | none => rfl
    | some portable =>
      dsimp only
      cases platform.bearer portable <;> rfl

/-- What a password opens: it unlocks the vault, which then yields its DID. -/
def openedBy (password : Utf16) (v : Vault Key Portable) : Option Did :=
  match unlock platform password v with
  | (.ok _, v) => (getDid platform v).1.toOption
  | (.error _, _) => none

theorem openedBy_eq (hstored : v.vaultStatus = some (.object es)) (hes : IsStatus es true)
    (hlocked : v.contentEncryptionKey = none → v.cachedPortableDid = none) (password : Utf16) :
    openedBy platform password v = (stored v.contentEncryptionKeyJwe missingKey).toOption.bind
      fun jwe => (platform.unwrap jwe password).bind fun key => didUnder platform v.did key := by
  obtain ⟨cached, hunlock⟩ := unlock_eq platform hstored hes hlocked password
  rw [openedBy, hunlock]
  cases stored v.contentEncryptionKeyJwe missingKey with
  | error message => rfl
  | ok jwe =>
    dsimp only [Except.toOption, Option.bind]
    cases platform.unwrap jwe password with
    | none => rfl
    | some key => exact getDid_eq platform rfl rfl

/-- What a backup writes: the update of the status, the DID and the key. -/
def written (data : Utf16) : Option (StatusUpdate × Option Value × Option Value) :=
  match platform.decode data with
  | none | some .null => none
  | some backupData =>
    (platform.put (backupData.property didName)).bind fun did =>
      (platform.put (backupData.property contentEncryptionKeyName)).bind fun jwe =>
        (destructure (backupData.property statusName)).map fun update => (update, did, jwe)

/-- The vault with a backup written over it. -/
def overwritten (update : StatusUpdate) (did jwe : Option Value) (es : List (Utf16 × Json))
    (v : Vault Key Portable) : Vault Key Portable :=
  { v with
    did
    contentEncryptionKeyJwe := jwe
    vaultStatus := some (.object (merge update es))
    cachedInitialized := some (coalesce update.initialized (.bool true)) }

theorem contents_cases (data : Utf16) :
    (written platform data = none ∧ ∀ password (v : Vault Key Portable),
      restoreContents platform data password v = (.error "The backup data cannot be read", v)) ∨
    ∃ backupData : Value,
      written platform data = ((platform.put (backupData.property didName)).bind fun did =>
        (platform.put (backupData.property contentEncryptionKeyName)).bind fun jwe =>
          (destructure (backupData.property statusName)).map fun update => (update, did, jwe)) ∧
      ∀ password (v : Vault Key Portable), restoreContents platform data password v =
        (setDid platform (backupData.property didName)).andThen (fun _ =>
          (setContentEncryptionKey platform (backupData.property contentEncryptionKeyName)).andThen
            fun _ => fun v =>
              match destructure (backupData.property statusName) with
              | none => (.error "The status of the backup is missing", v)
              | some status => (setStatus status).andThen (fun _ => unlock platform password) v) v := by
  unfold written restoreContents
  cases platform.decode data with
  | none => exact Or.inl ⟨rfl, fun _ _ => rfl⟩
  | some backupData =>
    cases backupData with
    | null => exact Or.inl ⟨rfl, fun _ _ => rfl⟩
    | bool | number | string | array | object => exact Or.inr ⟨_, rfl, fun _ _ => rfl⟩

theorem restoreContents_written (hstored : v.vaultStatus = some (.object es))
    (hes : IsStatus es true) {data : Utf16} (password : Utf16) {update : StatusUpdate}
    {did jwe : Option Value} (h : written platform data = some (update, did, jwe)) :
    restoreContents platform data password v =
      unlock platform password (overwritten update did jwe es v) := by
  obtain ⟨hnone, -⟩ | ⟨backupData, hwritten, hcontents⟩ := contents_cases platform data
  · rw [hnone] at h
    cases h
  rw [hwritten] at h
  rw [hcontents]
  cases hdid : platform.put (backupData.property didName) with
  | none => simp [hdid] at h
  | some did' =>
    cases hjwe : platform.put (backupData.property contentEncryptionKeyName) with
    | none => simp [hdid, hjwe] at h
    | some jwe' =>
      cases hupdate : destructure (backupData.property statusName) with
      | none => simp [hdid, hjwe, hupdate] at h
      | some update' =>
        simp only [hdid, hjwe, hupdate, Option.bind_some, Option.map_some, Option.some.injEq,
          Prod.mk.injEq] at h
        obtain ⟨rfl, rfl, rfl⟩ := h
        have hset := setStatus_eq (v := { v with did := did', contentEncryptionKeyJwe := jwe' })
          hstored hes update'
        simp only [Action.andThen, setDid, hdid, setContentEncryptionKey, hjwe, hset]
        rfl

theorem restoreContents_unwritten {data : Utf16} (password : Utf16)
    (h : written platform data = none) :
    ∃ message did jwe, restoreContents platform data password v =
      (.error message, { v with did, contentEncryptionKeyJwe := jwe }) := by
  obtain ⟨-, hcontents⟩ | ⟨backupData, hwritten, hcontents⟩ := contents_cases platform data
  · exact ⟨_, v.did, v.contentEncryptionKeyJwe, hcontents password v⟩
  rw [hwritten] at h
  rw [hcontents]
  cases hdid : platform.put (backupData.property didName) with
  | none =>
    simp only [Action.andThen, setDid, hdid]
    exact ⟨_, v.did, v.contentEncryptionKeyJwe, rfl⟩
  | some did =>
    cases hjwe : platform.put (backupData.property contentEncryptionKeyName) with
    | none =>
      simp only [Action.andThen, setDid, hdid, setContentEncryptionKey, hjwe]
      exact ⟨_, did, v.contentEncryptionKeyJwe, rfl⟩
    | some jwe =>
      cases hupdate : destructure (backupData.property statusName) with
      | none =>
        simp only [Action.andThen, setDid, hdid, setContentEncryptionKey, hjwe]
        exact ⟨_, did, jwe, rfl⟩
      | some update => simp [hdid, hjwe, hupdate] at h

omit platform in
theorem merge_none (hes : IsStatus es true) : merge {} es = es := by
  obtain ⟨b, hb⟩ := Option.isSome_iff_exists.mp hes.names.lastBackup
  obtain ⟨r, hr⟩ := Option.isSome_iff_exists.mp hes.names.lastRestore
  unfold merge
  rw [assignStatus_eq]
  simp only [hes.flag, hb, hr, Option.getD_some]
  exact ⟨rfl, congrArg some (Value.stringify_parse b).symm,
    congrArg some (Value.stringify_parse r).symm⟩

theorem revert_eq (hes : IsStatus es true) {update : StatusUpdate}
    (hstored : w.vaultStatus = some (.object (merge update es))) {b : Bool}
    (hmerged : IsStatus (merge update es) b) {did jwe : Value} (hdid : platform.Keeps (some did))
    (hjwe : platform.Keeps (some jwe)) :
    revert platform did jwe (Value.parseEntries es) w = (.ok (), { w with
      did := some did
      contentEncryptionKeyJwe := some jwe
      vaultStatus := some (.object (merge (allOf (Value.parseEntries es)) (merge update es)))
      cachedInitialized := some (.bool true) }) := by
  have hflag : coalesce (allOf (Value.parseEntries es)).initialized (.bool b) = .bool true := by
    simp only [allOf, lookup_parse, hes.flag]
    rfl
  rw [revert, Action.andThen, setStatus_eq hstored hmerged, hflag]
  simp only [Action.andThen, setContentEncryptionKey, hjwe jwe rfl, setDid, hdid did rfl]

/-- What is stored is as before, and so is what each password opens. -/
structure Unchanged (v w : Vault Key Portable) : Prop where
  did : w.did = v.did
  key : w.contentEncryptionKeyJwe = v.contentEncryptionKeyJwe
  vaultStatus : w.vaultStatus = v.vaultStatus
  opened : ∀ password, openedBy platform password w = openedBy platform password v

theorem Initialized.unchanged (h : Initialized platform v es) (hdid : w.did = v.did)
    (hkey : w.contentEncryptionKeyJwe = v.contentEncryptionKeyJwe)
    (hstatus : w.vaultStatus = v.vaultStatus)
    (hlocked : w.contentEncryptionKey = none → w.cachedPortableDid = none) :
    Unchanged platform v w where
  did := hdid
  key := hkey
  vaultStatus := hstatus
  opened := by
    intro password
    rw [openedBy_eq platform h.stored h.status h.locked,
      openedBy_eq platform (hstatus.trans h.stored) h.status hlocked, hdid, hkey]

/-- The backup unlocks with the password. -/
def Unlocks (update : StatusUpdate) (jwe : Option Value) (password : Utf16) : Prop :=
  coalesce update.initialized (.bool true) = .bool true ∧
    ∃ stored key, HdIdentityVault.stored jwe missingKey = .ok stored ∧
      platform.unwrap stored password = some key

/-- A restore that fails can be undone: the flag of the backup's status is a flag, and a backup that
does not unlock fills no field that is empty in the stored status. -/
def Undoable (backup : Value) (password : Utf16) (v : Vault Key Portable)
    (es : List (Utf16 × Json)) : Prop :=
  ∀ data update did jwe, isIdentityVaultBackup backup = some data →
    written platform data = some (update, did, jwe) →
    (stored v.did missingDid).isOk = true → (stored v.contentEncryptionKeyJwe missingKey).isOk = true →
    update.IsValid ∧ (Unlocks platform update jwe password ∨
      (es.lookup lastBackupName = some .null → Blank update.lastBackup) ∧
        (es.lookup lastRestoreName = some .null → Blank update.lastRestore))

/-- The DID that is encrypted in the backup. -/
def sealedDid (backup : Value) (password : Utf16) : Option Did :=
  (isIdentityVaultBackup backup).bind fun data => (written platform data).bind fun contents =>
    (stored contents.2.2 missingKey).toOption.bind fun jwe =>
      (platform.unwrap jwe password).bind fun key => didUnder platform contents.2.1 key

omit platform in
theorem stored_ok {value : Option Value} {message : String} {x : Value}
    (h : stored value message = .ok x) : value = some x := by
  unfold stored at h
  split at h
  · split at h
    · cases h
      rfl
    · cases h
  · cases h

/-- The stored contents come back, and the status as far as it can be merged back. -/
theorem Initialized.undone (h : Initialized platform v es) {update : StatusUpdate} {b : Bool}
    (hstored : w.vaultStatus = some (.object (merge update es)))
    (hmerged : IsStatus (merge update es) b)
    (hlocked : w.contentEncryptionKey = none → w.cachedPortableDid = none) {did jwe : Value}
    (hdid : v.did = some did) (hjwe : v.contentEncryptionKeyJwe = some jwe) :
    ∃ w', revert platform did jwe (Value.parseEntries es) w = (.ok (), w') ∧
      (Unchanged platform v w' ↔ (es.lookup lastBackupName = some .null → Blank update.lastBackup) ∧
        (es.lookup lastRestoreName = some .null → Blank update.lastRestore)) := by
  refine ⟨_, revert_eq platform h.status hstored hmerged (hdid ▸ h.did) (hjwe ▸ h.key), ?_⟩
  rw [← merge_back_eq h.status]
  constructor
  · intro hsame
    have hstatus := hsame.vaultStatus
    rw [h.stored] at hstatus
    simpa using hstatus
  · intro hback
    refine h.unchanged platform ?_ ?_ ?_ hlocked
    · exact hdid.symm
    · exact hjwe.symm
    · dsimp only
      rw [hback, h.stored]

theorem restore_eq (h : Initialized platform v es) {backup : Value} (password : Utf16)
    {data : Utf16} (hbackup : isIdentityVaultBackup backup = some data) {did jwe : Value}
    (hdid : stored v.did missingDid = .ok did)
    (hjwe : stored v.contentEncryptionKeyJwe missingKey = .ok jwe) :
    restore platform backup password v =
      match restoreContents platform data password
        { v with cachedInitialized := some (.bool true) } with
      | (.ok _, w) => setStatus { lastRestore := some (.string platform.now) } w
      | (.error _, w) => ((revert platform did jwe (Value.parseEntries es)).andThen
          fun _ w => (.error restoreFailed, w)) w := by
  have hstatus := getStatus_eq h.stored h.status
  rw [if_pos rfl] at hstatus
  unfold restore
  simp only [hbackup, Action.andThen, getStoredDid, hdid, getStoredContentEncryptionKey, hjwe,
    hstatus] <;> rfl

theorem restore_missing {backup : Value} (password : Utf16) {data : Utf16}
    (hbackup : isIdentityVaultBackup backup = some data)
    (hmissing : ¬ ((stored v.did missingDid).isOk = true ∧
      (stored v.contentEncryptionKeyJwe missingKey).isOk = true)) :
    restore platform backup password v = (.error missingContents, v) := by
  simp only [restore, hbackup, Action.andThen, getStoredDid, getStoredContentEncryptionKey]
  cases hdid : stored v.did missingDid with
  | error message => rfl
  | ok did =>
    dsimp only
    cases hjwe : stored v.contentEncryptionKeyJwe missingKey with
    | error message => rfl
    | ok jwe => simp [hdid, hjwe, Except.isOk, Except.toBool] at hmissing

/-- What the claim of a restore is about: a failure changes nothing, and after a success the vault
yields the DID of the backup. -/
structure Restores (backup : Value) (password : Utf16) (v : Vault Key Portable) : Prop where
  failed : ∀ message w, restore platform backup password v = (.error message, w) →
    Unchanged platform v w
  succeeded : ∀ w, restore platform backup password v = (.ok (), w) →
    w.contentEncryptionKey.isSome ∧ (getDid platform w).1.toOption = sealedDid platform backup password

theorem Initialized.refl (h : Initialized platform v es) : Unchanged platform v v :=
  h.unchanged platform rfl rfl rfl h.locked

/-- A restore that ends with an error does what it should when it leaves all as it was. -/
theorem restores_of_error {backup : Value} {password : Utf16} {message : String}
    (h : restore platform backup password v = (.error message, w)) :
    Restores platform backup password v ↔ Unchanged platform v w := by
  constructor
  · intro hrestores
    exact hrestores.failed message w h
  · intro hsame
    constructor
    · intro message' w' h'
      rw [h] at h'
      cases h'
      exact hsame
    · intro w' h'
      rw [h] at h'
      cases h'

section Stored
variable (h : Initialized platform v es) {backup : Value} {password : Utf16}
    {data : Utf16} (hbackup : isIdentityVaultBackup backup = some data) {did jwe : Value}
    (hdid : stored v.did missingDid = .ok did)
    (hjwe : stored v.contentEncryptionKeyJwe missingKey = .ok jwe)
include h hbackup hdid hjwe

theorem restores_undone {message : String}
    (hcontents : restoreContents platform data password
      { v with cachedInitialized := some (.bool true) } = (.error message, w))
    {update : StatusUpdate} {b : Bool}
    (hstored : w.vaultStatus = some (.object (merge update es)))
    (hmerged : IsStatus (merge update es) b)
    (hlocked : w.contentEncryptionKey = none → w.cachedPortableDid = none) :
    Restores platform backup password v ↔
      (es.lookup lastBackupName = some .null → Blank update.lastBackup) ∧
        (es.lookup lastRestoreName = some .null → Blank update.lastRestore) := by
  obtain ⟨w', hrevert, hsame⟩ := h.undone platform hstored hmerged hlocked (stored_ok hdid)
    (stored_ok hjwe)
  have hrestore : restore platform backup password v = (.error restoreFailed, w') := by
    rw [restore_eq platform h password hbackup hdid hjwe, hcontents]
    simp only [Action.andThen, hrevert]
  rw [restores_of_error platform hrestore, hsame]

theorem restores_written {update : StatusUpdate}
    {did' jwe' : Option Value} (hwritten : written platform data = some (update, did', jwe')) :
    Restores platform backup password v ↔ update.IsValid ∧ (Unlocks platform update jwe' password ∨
      (es.lookup lastBackupName = some .null → Blank update.lastBackup) ∧
        (es.lookup lastRestoreName = some .null → Blank update.lastRestore)) := by
  let v₁ : Vault Key Portable := { v with cachedInitialized := some (.bool true) }
  let w : Vault Key Portable := overwritten update did' jwe' es v₁
  have hcontents : restoreContents platform data password v₁ = unlock platform password w :=
    restoreContents_written platform (v := v₁) h.stored h.status password hwritten
  by_cases htrue : coalesce update.initialized (.bool true) = .bool true
  · have hmerged := (isStatus_merge h.status).mpr htrue
    have hvalid : update.IsValid := valid_of_coalesce (b := true) (by rw [htrue]; rfl)
    obtain ⟨cached, hunlock⟩ := unlock_eq platform (v := w) rfl hmerged h.locked password
    have hfails (hnot : ¬ Unlocks platform update jwe' password) {message : String}
        (herror : unlock platform password w = (.error message, cleared cached w)) :
        Restores platform backup password v ↔ update.IsValid ∧
          (Unlocks platform update jwe' password ∨
            (es.lookup lastBackupName = some .null → Blank update.lastBackup) ∧
              (es.lookup lastRestoreName = some .null → Blank update.lastRestore)) := by
      rw [restores_undone platform h hbackup hdid hjwe (hcontents.trans herror) rfl hmerged
        fun _ => rfl]
      simp [hvalid, hnot]
    cases hkey : stored w.contentEncryptionKeyJwe missingKey with
    | error message =>
      rw [hkey] at hunlock
      apply hfails _ hunlock
      rintro ⟨-, x, key, hx, -⟩
      cases hkey.symm.trans hx
    | ok x =>
      rw [hkey] at hunlock
      dsimp only at hunlock
      cases hunwrap : platform.unwrap x password with
      | none =>
        rw [hunwrap] at hunlock
        apply hfails _ hunlock
        rintro ⟨-, y, key, hy, hkey'⟩
        cases hkey.symm.trans hy
        cases hunwrap.symm.trans hkey'
      | some key =>
        rw [hunwrap] at hunlock
        have hunlocks : Unlocks platform update jwe' password := ⟨htrue, x, key, hkey, hunwrap⟩
        let u : Vault Key Portable := { cleared cached w with contentEncryptionKey := some key }
        have hset := setStatus_eq (v := u) rfl hmerged { lastRestore := some (.string platform.now) }
        have hrestore := restore_eq platform h password hbackup hdid hjwe
        rw [hcontents.trans hunlock] at hrestore
        have hok := hrestore.trans hset
        constructor
        · intro _
          exact ⟨hvalid, .inl hunlocks⟩
        · intro _
          constructor
          · intro message w' h'
            cases hok.symm.trans h'
          · intro w' h'
            cases hok.symm.trans h'
            refine ⟨rfl, ?_⟩
            have hsealed : sealedDid platform backup password = didUnder platform did' key := by
              have hkey' : stored jwe' missingKey = .ok x := hkey
              simp [sealedDid, hbackup, hwritten, hkey', Except.toOption, hunwrap]
            rw [hsealed]
            exact getDid_eq platform rfl rfl
  · have hnot : ¬ IsStatus (merge update es) true := fun hstatus =>
      htrue ((isStatus_merge h.status).mp hstatus)
    have hcached : w.cachedInitialized ≠ some (.bool true) := fun heq =>
      htrue (Option.some.inj heq)
    obtain ⟨message, hunlock⟩ := unlock_uninitialized platform (v := w) rfl hnot hcached password
    have hlocks : ¬ Unlocks platform update jwe' password := fun hunlocks => htrue hunlocks.1
    by_cases hvalid : update.IsValid
    · obtain ⟨b, hb⟩ := coalesce_valid hvalid
      rw [restores_undone platform h hbackup hdid hjwe (hcontents.trans hunlock) rfl
        ((isStatus_merge h.status).mpr hb) h.locked]
      simp [hvalid, hlocks]
    · have hinvalid : ∀ b, ¬ IsStatus (merge update es) b := fun b hstatus =>
        hvalid (valid_of_coalesce (b := b) (by rw [(isStatus_merge h.status).mp hstatus]; rfl))
      obtain ⟨reason, hset⟩ := setStatus_error (v := w) rfl hinvalid (allOf (Value.parseEntries es))
      have hrestore := restore_eq platform h password hbackup hdid hjwe
      rw [hcontents.trans hunlock] at hrestore
      have herror : restore platform backup password v = (.error reason, w) := by
        rw [hrestore]
        simp only [revert, Action.andThen, hset]
      rw [restores_of_error platform herror]
      constructor
      · intro hsame
        have hstatus : some (Json.object (merge update es)) = v.vaultStatus := hsame.vaultStatus
        rw [h.stored, Option.some.injEq, Json.object.injEq] at hstatus
        rw [hstatus] at hnot
        exact absurd h.status hnot
      · rintro ⟨hvalid', -⟩
        exact absurd hvalid' hvalid

end Stored

/-- A restore does what it should if and only if it can be undone where it fails. -/
theorem restores_iff (h : Initialized platform v es) (backup : Value) (password : Utf16) :
    Restores platform backup password v ↔ Undoable platform backup password v es := by
  cases hbackup : isIdentityVaultBackup backup with
  | none =>
    have hrestore : restore platform backup password v = (.error invalidBackup, v) := by
      simp only [restore, hbackup]
    rw [restores_of_error platform hrestore]
    constructor
    · intro _ data update did jwe hdata
      rw [hbackup] at hdata
      cases hdata
    · intro _
      exact h.refl platform
  | some data =>
    by_cases hthere : (stored v.did missingDid).isOk = true ∧
        (stored v.contentEncryptionKeyJwe missingKey).isOk = true
    · cases hdid : stored v.did missingDid with
      | error message => simp [hdid, Except.isOk, Except.toBool] at hthere
      | ok did =>
        cases hjwe : stored v.contentEncryptionKeyJwe missingKey with
        | error message => simp [hjwe, Except.isOk, Except.toBool] at hthere
        | ok jwe =>
          cases hwritten : written platform data with
          | none =>
            obtain ⟨message, did', jwe', hcontents⟩ := restoreContents_unwritten platform
              (v := { v with cachedInitialized := some (.bool true) }) password hwritten
            have hstored : v.vaultStatus = some (.object (merge {} es)) := by
              rw [merge_none h.status]
              exact h.stored
            rw [restores_undone platform h hbackup hdid hjwe hcontents hstored
              (by rw [merge_none h.status]; exact h.status) h.locked]
            constructor
            · intro _ data' update did jwe hdata hwritten'
              cases hbackup.symm.trans hdata
              cases hwritten.symm.trans hwritten'
            · intro _
              exact ⟨fun _ => rfl, fun _ => rfl⟩
          | some contents =>
            obtain ⟨update, did', jwe'⟩ := contents
            rw [restores_written platform h hbackup hdid hjwe hwritten]
            constructor
            · intro hcase data' update' did'' jwe'' hdata hwritten' _ _
              cases hbackup.symm.trans hdata
              cases hwritten.symm.trans hwritten'
              exact hcase
            · intro hundoable
              exact hundoable data update did' jwe' hbackup hwritten hthere.1 hthere.2
    · rw [restores_of_error platform (restore_missing platform password hbackup hthere)]
      constructor
      · intro _ data' update did jwe _ _ hdid hjwe
        exact absurd ⟨hdid, hjwe⟩ hthere
      · intro _
        exact h.refl platform

end Restore

/-! ## A vault that has never been backed up -/

def freshStatus : List (Utf16 × Json) :=
  [(initializedName, .bool true), (lastBackupName, .null), (lastRestoreName, .null)]

def freshVault : Vault Unit Utf16 where
  did := some (.string (ascii "sealed-did"))
  contentEncryptionKeyJwe := some (.string (ascii "password"))
  vaultStatus := some (.object freshStatus)

/-- The backup of a vault that has been backed up before. -/
def otherContents : Value := .object [(didName, .string (ascii "other-did")),
  (contentEncryptionKeyName, .string (ascii "other-password")),
  (statusName, .object [(initializedName, .bool true),
    (lastBackupName, .string (ascii "2026-01-01T00:00:00.000Z")), (lastRestoreName, .null)])]

def otherBackup : Value := .object [(ascii "dateCreated", .string (ascii "2026-01-02T00:00:00.000Z")),
  (ascii "size", .number (.plain .zero)), (ascii "data", .string [])]

/-- A store in memory; a key is encrypted with the password that it reads. -/
def memory : Platform Unit Utf16 Utf16 where
  put := some
  decode := fun _ => some otherContents
  unwrap := fun jwe password =>
    match jwe with
    | .string text => if text = password then some () else none
    | _ => none
  openDid := fun did _ =>
    match did with
    | .string text => some text
    | _ => none
  bearer := some
  now := ascii "2026-01-03T00:00:00.000Z"

theorem freshVault_initialized : Initialized memory freshVault freshStatus where
  stored := rfl
  status := ⟨rfl, rfl, rfl, rfl⟩
  did := fun _ _ => rfl
  key := fun _ _ => rfl
  locked := fun _ => rfl

theorem restores_iff_fresh : Restores memory otherBackup (ascii "wrong") freshVault ↔
    Undoable memory otherBackup (ascii "wrong") freshVault freshStatus :=
  restores_iff memory freshVault_initialized otherBackup (ascii "wrong")

def hasLastBackup (v : Vault Unit Utf16) : Bool :=
  match v.vaultStatus with
  | some (.object es) =>
    match es.lookup lastBackupName with
    | some .null => false
    | _ => true
  | _ => false

/-- A wrong password: the vault keeps the time of the other vault's backup. -/
theorem failed_restore_keeps_backup_time :
    ¬ Restores memory otherBackup (ascii "wrong") freshVault := by
  intro h
  have herror : (restore memory otherBackup (ascii "wrong") freshVault).1 = .error restoreFailed := rfl
  have hsame := h.failed restoreFailed (restore memory otherBackup (ascii "wrong") freshVault).2
    (Prod.ext herror rfl)
  have hbefore : hasLastBackup freshVault = false := by decide
  have hafter : hasLastBackup (restore memory otherBackup (ascii "wrong") freshVault).2 = true := rfl
  rw [hasLastBackup, hsame.vaultStatus] at hafter
  rw [hasLastBackup] at hbefore
  rw [hbefore] at hafter
  cases hafter

end HdIdentityVault
end EnboxDwn.Agent
