import EnboxDwn.Lib.JsonText

/-! The vault of an identity and its restore from a backup: the contents of the backup are written
over the stored ones, they are tried with the password, and on a failure the stored ones are written
back. -/
namespace EnboxDwn.Agent
namespace HdIdentityVault
open Utf16

/-! ## Values -/

/-- A number as a parser reads it: zero may carry a sign, and one that is too large is infinite. -/
inductive ParsedNumber where
  | negativeZero
  | infinite (negative : Bool)
  | plain (x : Number)

inductive Value where
  | null
  | bool (b : Bool)
  | number (x : ParsedNumber)
  | string (s : Utf16)
  | array (elements : List Value)
  | object (entries : List (Utf16 × Value))

namespace Value

mutual

def stringify : Value → Json
  | .null => .null
  | .bool b => .bool b
  | .number .negativeZero => .number .zero
  | .number (.infinite _) => .null
  | .number (.plain x) => .number x
  | .string s => .string s
  | .array elements => .array (stringifyAll elements)
  | .object entries => .object (stringifyEntries entries)

def stringifyAll : List Value → List Json
  | [] => []
  | v :: vs => stringify v :: stringifyAll vs

def stringifyEntries : List (Utf16 × Value) → List (Utf16 × Json)
  | [] => []
  | (name, v) :: rest => (name, stringify v) :: stringifyEntries rest

end

mutual

def parse : Json → Value
  | .null => .null
  | .bool b => .bool b
  | .number x => .number (.plain x)
  | .string s => .string s
  | .array elements => .array (parseAll elements)
  | .object entries => .object (parseEntries entries)

def parseAll : List Json → List Value
  | [] => []
  | t :: ts => parse t :: parseAll ts

def parseEntries : List (Utf16 × Json) → List (Utf16 × Value)
  | [] => []
  | (name, t) :: rest => (name, parse t) :: parseEntries rest

end

def truthy : Value → Bool
  | .null => false
  | .bool b => b
  | .number .negativeZero => false
  | .number (.infinite _) => true
  | .number (.plain .zero) => false
  | .number (.plain _) => true
  | .string s => s ≠ []
  | _ => true

def property (v : Value) (name : Utf16) : Option Value :=
  match v with
  | .object entries => entries.lookup name
  | _ => none

end Value

/-- `??`, of which the left side may be undefined. -/
def coalesce (v : Option Value) (other : Value) : Value :=
  match v with
  | none | some .null => other
  | some v => v

/-- The key keeps its place when it has one. -/
def assign {β : Type} (name : Utf16) (value : β) : List (Utf16 × β) → List (Utf16 × β)
  | [] => [(name, value)]
  | e :: rest => if e.1 = name then (name, value) :: rest else e :: assign name value rest

def initializedName : Utf16 := ascii "initialized"
def lastBackupName : Utf16 := ascii "lastBackup"
def lastRestoreName : Utf16 := ascii "lastRestore"
def didName : Utf16 := ascii "did"
def contentEncryptionKeyName : Utf16 := ascii "contentEncryptionKey"
def statusName : Utf16 := ascii "status"

/-- The data of what is a backup. -/
def isIdentityVaultBackup (obj : Value) : Option Utf16 :=
  match obj.property (ascii "dateCreated"), obj.property (ascii "size"), obj.property (ascii "data") with
  | some (.string _), some (.number _), some (.string data) => some data
  | _, _, _ => none

/-- The entries of what is a status, with its flag. -/
def isIdentityVaultStatus (obj : Value) : Option (List (Utf16 × Value) × Bool) :=
  match obj with
  | .object entries =>
    match entries.lookup initializedName, entries.lookup lastBackupName,
      entries.lookup lastRestoreName with
    | some (.bool initialized), some _, some _ => some (entries, initialized)
    | _, _, _ => none
  | _ => none

/-! ## The vault -/

/-- The code around the vault. `put` tells what is read back of a value that the store takes, `unwrap`
decrypts the content encryption key with a password, `openDid` the DID with that key. -/
structure Platform (Key Portable Did : Type) where
  put : Option Value → Option (Option Value)
  decode : Utf16 → Option Value
  unwrap : Value → Utf16 → Option Key
  openDid : Value → Key → Option Portable
  bearer : Portable → Option Did
  now : Utf16

/-- What is stored, where the status stands for its text, and what is kept in memory. -/
structure Vault (Key Portable : Type) where
  did : Option Value
  contentEncryptionKeyJwe : Option Value
  vaultStatus : Option Json
  contentEncryptionKey : Option Key := none
  cachedInitialized : Option Value := none
  cachedPortableDid : Option Portable := none

variable {Key Portable Did : Type}

/-- An action ends well or throws; what it has changed stays changed. -/
abbrev Action (Key Portable α : Type) := Vault Key Portable → Except String α × Vault Key Portable

def Action.andThen {α β : Type} (x : Action Key Portable α) (next : α → Action Key Portable β) :
    Action Key Portable β := fun v =>
  match x v with
  | (.ok a, v) => next a v
  | (.error message, v) => (.error message, v)

structure StatusUpdate where
  initialized : Option Value := none
  lastBackup : Option Value := none
  lastRestore : Option Value := none

def missingDid : String :=
  "HdIdentityVault: Unable to retrieve the DID record from the vault. Please check the " ++
  "vault status and if the problem persists consider re-initializing the vault and " ++
  "restoring the contents from a previous backup."

def missingKey : String :=
  "HdIdentityVault: Unable to retrieve the Content Encryption Key record from the vault. " ++
  "Please check the vault status and if the problem persists consider re-initializing the " ++
  "vault and restoring the contents from a previous backup."

/-- A value that is there and not empty. -/
def stored (value : Option Value) (message : String) : Except String Value :=
  match value with
  | some value => if value.truthy then .ok value else .error message
  | none => .error message

def getStoredDid : Action Key Portable Value := fun v => (stored v.did missingDid, v)

def getStoredContentEncryptionKey : Action Key Portable Value := fun v =>
  (stored v.contentEncryptionKeyJwe missingKey, v)

/-- Only the flag that is set is cached. -/
def getStatus : Action Key Portable (List (Utf16 × Value) × Bool) := fun v =>
  match v.vaultStatus with
  | none =>
    (.ok ([(initializedName, .bool false), (lastBackupName, .null), (lastRestoreName, .null)], false),
      v)
  | some stored =>
    match isIdentityVaultStatus (Value.parse stored) with
    | none => (.error "HdIdentityVault: Invalid IdentityVaultStatus object in store", v)
    | some (status, initialized) =>
      (.ok (status, initialized),
        if initialized then { v with cachedInitialized := some (.bool true) } else v)

def updated (update : StatusUpdate) (status : List (Utf16 × Value)) : List (Utf16 × Value) :=
  let current name := (status.lookup name).getD .null
  assign lastRestoreName (coalesce update.lastRestore (current lastRestoreName))
    (assign lastBackupName (coalesce update.lastBackup (current lastBackupName))
      (assign initializedName (coalesce update.initialized (current initializedName)) status))

def setStatus (update : StatusUpdate) : Action Key Portable Unit :=
  getStatus.andThen fun status v =>
    let vaultStatus := updated update status.1
    (.ok (), { v with
      vaultStatus := some (Value.stringify (.object vaultStatus))
      cachedInitialized := vaultStatus.lookup initializedName })

/-- The properties of a status that is handed over; there are none of null or of an undefined one. -/
def destructure (status : Option Value) : Option StatusUpdate :=
  match status with
  | none | some .null => none
  | some status => some {
      initialized := status.property initializedName
      lastBackup := status.property lastBackupName
      lastRestore := status.property lastRestoreName }

def isInitialized : Action Key Portable Bool := fun v =>
  match v.cachedInitialized with
  | some (.bool true) => (.ok true, v)
  | _ => getStatus.andThen (fun status v => (.ok status.2, v)) v

def lock : Action Key Portable Unit :=
  isInitialized.andThen fun initialized v =>
    if initialized then (.ok (), { v with contentEncryptionKey := none, cachedPortableDid := none })
    else (.error "HdIdentityVault: Lock operation failed. Vault has not been initialized.", v)

variable (platform : Platform Key Portable Did)

def unlock (password : Utf16) : Action Key Portable Unit :=
  isInitialized.andThen fun initialized v =>
    if initialized then
      let locked : Action Key Portable Unit := fun v =>
        if v.contentEncryptionKey.isSome then lock v else (.ok (), v)
      (locked.andThen fun _ => getStoredContentEncryptionKey.andThen fun jwe v =>
        match platform.unwrap jwe password with
        | some key => (.ok (), { v with contentEncryptionKey := some key })
        | none => (.error "HdIdentityVault: Unable to unlock the vault due to an incorrect password.", v)) v
    else (.error "HdIdentityVault: Unable to unlock the vault. Vault has not been initialized.", v)

def getDid : Action Key Portable Did := fun v =>
  match v.contentEncryptionKey with
  | none => (.error "HdIdentityVault: Vault has not been initialized and unlocked.", v)
  | some key =>
    let cached : Action Key Portable Portable := fun v =>
      match v.cachedPortableDid with
      | some portable => (.ok portable, v)
      | none => getStoredDid.andThen (fun did v =>
          match platform.openDid did key with
          | some portable => (.ok portable, { v with cachedPortableDid := some portable })
          | none => (.error "HdIdentityVault: Unable to decode malformed DID in identity vault", v)) v
    (cached.andThen fun portable v =>
      match platform.bearer portable with
      | some did => (.ok did, v)
      | none => (.error "The DID cannot be imported", v)) v

/-! ## Restore -/

/-- The store takes a value, or its `set` throws. -/
def setDid (value : Option Value) : Action Key Portable Unit := fun v =>
  match platform.put value with
  | some did => (.ok (), { v with did })
  | none => (.error "The store does not take the value", v)

def setContentEncryptionKey (value : Option Value) : Action Key Portable Unit := fun v =>
  match platform.put value with
  | some contentEncryptionKeyJwe => (.ok (), { v with contentEncryptionKeyJwe })
  | none => (.error "The store does not take the value", v)

/-- The part of a restore whose failure is undone. -/
def restoreContents (data password : Utf16) : Action Key Portable Unit := fun v =>
  match platform.decode data with
  | none | some .null => (.error "The backup data cannot be read", v)
  | some backupData =>
    ((setDid platform (backupData.property didName)).andThen fun _ =>
      (setContentEncryptionKey platform (backupData.property contentEncryptionKeyName)).andThen
        fun _ => fun v =>
          match destructure (backupData.property statusName) with
          | none => (.error "The status of the backup is missing", v)
          | some status => (setStatus status).andThen (fun _ => unlock platform password) v) v

def invalidBackup : String :=
  "HdIdentityVault: Restore operation failed due to invalid backup object."

def missingContents : String :=
  "HdIdentityVault: The restore operation cannot proceed because the existing vault " ++
  "contents are missing or inaccessible. If the problem persists consider re-initializing " ++
  "the vault and retrying the restore."

def restoreFailed : String :=
  "HdIdentityVault: Restore operation failed due to invalid backup data or an incorrect " ++
  "password. Please verify the password is correct for the provided backup and try again."

/-- The properties of a status that the vault has read. -/
def allOf (status : List (Utf16 × Value)) : StatusUpdate where
  initialized := status.lookup initializedName
  lastBackup := status.lookup lastBackupName
  lastRestore := status.lookup lastRestoreName

/-- What is done after a failure: the status first, for which the stored one is read again. -/
def revert (did contentEncryptionKeyJwe : Value) (status : List (Utf16 × Value)) :
    Action Key Portable Unit :=
  (setStatus (allOf status)).andThen fun _ =>
    (setContentEncryptionKey platform (some contentEncryptionKeyJwe)).andThen fun _ =>
      setDid platform (some did)

def restore (backup : Value) (password : Utf16) : Action Key Portable Unit := fun v =>
  match isIdentityVaultBackup backup with
  | none => (.error invalidBackup, v)
  | some data =>
    let previous : Action Key Portable (Value × Value × List (Utf16 × Value)) :=
      getStoredDid.andThen fun did => getStoredContentEncryptionKey.andThen fun jwe =>
        getStatus.andThen fun status v => (.ok (did, jwe, status.1), v)
    match previous v with
    | (.error _, v) => (.error missingContents, v)
    | (.ok (did, jwe, status), v) =>
      match restoreContents platform data password v with
      | (.ok _, v) => setStatus { lastRestore := some (.string platform.now) } v
      | (.error _, v) =>
        ((revert platform did jwe status).andThen fun _ v => (.error restoreFailed, v)) v

end HdIdentityVault
end EnboxDwn.Agent
