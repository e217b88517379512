import EnboxDwn.ProgressLossless

/-! What the keys of the sync progress keep apart: links, receipts, and the rows that a scan of a
link or of a tenant reads. -/
namespace EnboxDwn.Agent
open Level

section Keys
variable [R : Runtime] {a b : SyncNextLinkIdentity} {key : String}

/-- Identities with the same tenant, normalized endpoint, projection and authorization. -/
def SyncNextLinkIdentity.Same (a b : SyncNextLinkIdentity) : Prop :=
  a.tenantDid = b.tenantDid ∧
    normalizeDwnEndpoint a.remoteEndpoint = normalizeDwnEndpoint b.remoteEndpoint ∧
    a.projectionId = b.projectionId ∧ a.authorizationEpoch = b.authorizationEpoch

theorem syncNextLinkKey_eq_iff (ha : syncNextLinkKey a = .ok key) :
    syncNextLinkKey b = .ok key ↔ b.Same a := by
  obtain ⟨endpoint, hendpoint, rfl⟩ := syncNextLinkKey_eq_ok ha
  constructor
  · intro hb
    obtain ⟨endpoint', hendpoint', heq⟩ := syncNextLinkKey_eq_ok hb
    have hparts := encodeParts_inj heq
    simp only [linkParts, List.cons.injEq, and_true] at hparts
    obtain ⟨htenant, rfl, hprojection, hepoch⟩ := hparts
    exact ⟨htenant.symm, hendpoint'.trans hendpoint.symm, hprojection.symm, hepoch.symm⟩
  · rintro ⟨htenant, hnormalized, hprojection, hepoch⟩
    unfold syncNextLinkKey linkParts
    rw [hnormalized, hendpoint, htenant, hprojection, hepoch]
    rfl

theorem syncNextReceiptKey_eq_iff (ha : syncNextLinkKey a = .ok key)
    {receipt receipt' : SyncNextSourceReceipt} :
    syncNextReceiptKey b receipt' = .ok (rowKey key receipt) ↔
      b.Same a ∧ receipt'.Same receipt := by
  constructor
  · intro hb
    obtain ⟨key', hkey', hrow⟩ := bind_eq_ok hb
    obtain ⟨rfl, hreceipt⟩ := rowKey_inj hkey' ha (Except.ok.inj hrow)
    exact ⟨(syncNextLinkKey_eq_iff ha).mp hkey', hreceipt⟩
  · rintro ⟨hsame, hreceipt⟩
    have hb : syncNextLinkKey b = .ok key := (syncNextLinkKey_eq_iff ha).mpr hsame
    rw [syncNextReceiptKey_eq hb, ← hreceipt.rowKey_eq key]
    rfl

theorem syncNextLinkRange_rowKey {range : String → Bool} (ha : syncNextLinkRange a = .ok range)
    (hb : syncNextLinkKey b = .ok key) (receipt : SyncNextSourceReceipt) :
    range (rowKey key receipt) = true ↔ b.Same a := by
  obtain ⟨key', hkey', hrange⟩ := bind_eq_ok ha
  cases hrange
  rw [keyRange_rowKey hkey' hb, ← syncNextLinkKey_eq_iff hkey', hb, Except.ok.injEq, eq_comm]

/-- Keys say what they are of, and no key of a link begins with the key of another one. -/
structure KeysApart : Prop where
  links : ∀ {a b key}, syncNextLinkKey a = .ok key → (syncNextLinkKey b = .ok key ↔ b.Same a)
  receipts : ∀ {a b receipt receipt' key}, syncNextReceiptKey a receipt = .ok key →
    (syncNextReceiptKey b receipt' = .ok key ↔ b.Same a ∧ receipt'.Same receipt)
  beginnings : ∀ {a b key key'}, syncNextLinkKey a = .ok key → syncNextLinkKey b = .ok key' →
    key.toList <+: key'.toList → key = key'

theorem keysApart : KeysApart where
  links ha := syncNextLinkKey_eq_iff ha
  receipts ha := by
    obtain ⟨linkKey, hlinkKey, hkey⟩ := bind_eq_ok ha
    cases hkey
    exact syncNextReceiptKey_eq_iff hlinkKey
  beginnings ha hb hbegins := by
    obtain ⟨endpoint, -, rfl⟩ := syncNextLinkKey_eq_ok ha
    obtain ⟨endpoint', -, rfl⟩ := syncNextLinkKey_eq_ok hb
    rw [(isPrefix_parts hbegins).eq_of_length rfl]

end Keys

namespace SyncNextProgressStore

/-- A scan reads the rows that belong to its range and no others, each once. -/
structure Scans {ν ρ : Type} (range : String → Bool) (rows : Sublevel String ν) (row : ρ → ν)
    (belongs : ρ → Prop) : Prop where
  exact : ∀ key e, (key, row e) ∈ entries (fun a b => a ≤ b) range rows ↔
    get rows key = some (row e) ∧ belongs e
  once : (entries (fun a b => a ≤ b) range rows).Pairwise fun x y => x.1 < y.1

theorem scans_of_stored {ν ρ : Type} {range : String → Bool} {rows : Sublevel String ν} {row : ρ → ν}
    {belongs : ρ → Prop}
    (h : ∀ key e, get rows key = some (row e) → (range key = true ↔ belongs e)) :
    Scans range rows row belongs where
  exact key e := by
    rw [mem_entries]
    exact and_congr_right (h key e)
  once := entries_ascending range rows

section Runs
variable [R : Runtime]

/-- Scans of a tenant and of a link read the rows of that tenant and of that link. -/
structure ScansApart (s : Progress) : Prop where
  linksOfTenant : ∀ tenantDid, Scans (syncNextTenantRange tenantDid) s.links id
    fun link => tenantDid = link.tenantDid
  deliveryOfTenant : ∀ tenantDid, Scans (syncNextTenantRange tenantDid) s.delivery id
    fun e => tenantDid = e.tenantDid
  quarantineOfTenant : ∀ tenantDid, Scans (syncNextTenantRange tenantDid) s.quarantine .entry
    fun e => tenantDid = e.tenantDid
  deliveryOfLink : ∀ {identity range}, syncNextLinkRange identity = .ok range →
    Scans range s.delivery id fun e => e.toSyncNextLinkIdentity.Same identity
  quarantineOfLink : ∀ {identity range}, syncNextLinkRange identity = .ok range →
    Scans range s.quarantine .entry fun e => e.toSyncNextLinkIdentity.Same identity

theorem Kept.scansApart {s : Progress} (h : Kept s) : ScansApart s where
  linksOfTenant tenantDid := scans_of_stored fun key link hstored =>
    tenantRange_linkKey (h.links key link hstored) tenantDid
  deliveryOfTenant tenantDid := by
    refine scans_of_stored fun key e hstored => ?_
    obtain ⟨linkKey, hlinkKey, rfl⟩ := h.delivery key e hstored
    exact tenantRange_rowKey hlinkKey tenantDid _
  quarantineOfTenant tenantDid := by
    refine scans_of_stored fun key e hstored => ?_
    obtain ⟨linkKey, hlinkKey, rfl⟩ := h.quarantine key _ hstored e rfl
    exact tenantRange_rowKey hlinkKey tenantDid _
  deliveryOfLink hrange := by
    refine scans_of_stored fun key e hstored => ?_
    obtain ⟨linkKey, hlinkKey, rfl⟩ := h.delivery key e hstored
    exact syncNextLinkRange_rowKey hrange hlinkKey _
  quarantineOfLink hrange := by
    refine scans_of_stored fun key e hstored => ?_
    obtain ⟨linkKey, hlinkKey, rfl⟩ := h.quarantine key _ hstored e rfl
    exact syncNextLinkRange_rowKey hrange hlinkKey _

/-- Whatever the store is called with, its keys and its scans keep links and tenants apart. -/
theorem progress_isolated (options : Options) (calls : List TimedCall) :
    KeysApart ∧ ScansApart (run options {} calls) :=
  ⟨keysApart, (Kept.empty.run options calls).scansApart⟩

end Runs

section Example

local instance oneEndpoint : Runtime := Runtime.ofEpoch

/-- An endpoint spelled in another way and another lifetime leave the key of a link the same. -/
theorem sameKey_respelled :
    let link := aliceLink none
    let respelled := { link with remoteEndpoint := "https://dwn.example.com/" }
    let recreated := { link with lifetimeId := "second" }
    link.remoteEndpoint ≠ respelled.remoteEndpoint ∧ link.lifetimeId ≠ recreated.lifetimeId ∧
      syncNextLinkKey link.toSyncNextLinkIdentity =
        syncNextLinkKey respelled.toSyncNextLinkIdentity ∧
      syncNextLinkKey link.toSyncNextLinkIdentity =
        syncNextLinkKey recreated.toSyncNextLinkIdentity := by
  refine ⟨by decide, by decide, ?_, rfl⟩
  have hnormalized : normalizeDwnEndpoint "https://dwn.example.com" =
      normalizeDwnEndpoint "https://dwn.example.com/" := rfl
  exact (syncNextLinkKey_eq_iff (a := aliceTarget.toSyncNextLinkIdentity) rfl).mpr
    ⟨rfl, hnormalized.symm, rfl, rfl⟩

end Example

end SyncNextProgressStore

end EnboxDwn.Agent
