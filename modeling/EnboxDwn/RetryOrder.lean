import Mathlib
import EnboxDwn.ProgressLossless
import EnboxDwn.Lib.CompareSort

/-! The order in which pending rows are retried, oldest attempt first, and the two places that
choose the row of the next attempt. -/
namespace EnboxDwn.Agent
open Level CompareSort

/-- The fields of a pending row that the retry order reads. -/
structure SyncNextPendingEntry extends SyncNextLinkIdentity, SyncNextSourceReceipt where
  lastAttemptAt : String
  deriving DecidableEq, Repr

def SyncNextDeliveryObligation.pending (e : SyncNextDeliveryObligation) : SyncNextPendingEntry where
  toSyncNextLinkIdentity := e.toSyncNextLinkIdentity
  toSyncNextSourceReceipt := e.toSyncNextSourceReceipt
  lastAttemptAt := e.lastAttemptAt

def SyncNextQuarantineEntry.pending (e : SyncNextQuarantineEntry) : SyncNextPendingEntry where
  toSyncNextLinkIdentity := e.toSyncNextLinkIdentity
  toSyncNextSourceReceipt := e.toSyncNextSourceReceipt
  lastAttemptAt := e.lastAttemptAt

section Order
variable [R : Runtime]

/-- The time of the last attempt; a text that is no date comes before every time. -/
def SyncNextPendingEntry.lastAttempt (row : SyncNextPendingEntry) : WithBot Int :=
  R.dateParse row.lastAttemptAt

def SyncNextPendingEntry.key (row : SyncNextPendingEntry) : Except Thrown String :=
  syncNextReceiptKey row.toSyncNextLinkIdentity row.toSyncNextSourceReceipt

instance decidableEarlier : DecidableLT (WithBot Int) :=
  @WithBot.decidableLT Int Int.instLTInt Int.decLt

/-- Oldest pending retry first, with a stable exact-receipt tie break. -/
def compareSyncNextRetryOrder (left right : SyncNextPendingEntry) : Except Thrown Int :=
  if left.lastAttempt ≠ right.lastAttempt then
    .ok (if left.lastAttempt < right.lastAttempt then -1 else 1)
  else do
    let leftKey ← left.key
    let rightKey ← right.key
    return if codeUnits leftKey < codeUnits rightKey then -1
      else if codeUnits rightKey < codeUnits leftKey then 1 else 0

/-- The left row is to be retried before the right one. -/
def RetriedBefore (left right : SyncNextPendingEntry) : Prop :=
  ∃ n < 0, compareSyncNextRetryOrder left right = .ok n

/-! ## The rank of a row -/

/-- The key of a row that has one. -/
def SyncNextPendingEntry.keyText (row : SyncNextPendingEntry) : String :=
  match row.key with
  | .ok key => key
  | .error _ => ""

def retryRank (row : SyncNextPendingEntry) : WithBot Int ×ₗ List Nat :=
  toLex (row.lastAttempt, codeUnits row.keyText)

theorem keyText_eq {row : SyncNextPendingEntry} {key : String} (h : row.key = .ok key) :
    row.keyText = key := by
  unfold SyncNextPendingEntry.keyText
  rw [h]

theorem compare_eq_ok {left right : SyncNextPendingEntry} {leftKey rightKey : String}
    (hleft : left.key = .ok leftKey) (hright : right.key = .ok rightKey) :
    ∃ n, compareSyncNextRetryOrder left right = .ok n ∧
      (n < 0 ↔ retryRank left < retryRank right) ∧ (n ≤ 0 ↔ retryRank left ≤ retryRank right) := by
  unfold compareSyncNextRetryOrder retryRank
  rw [Prod.Lex.toLex_lt_toLex, Prod.Lex.toLex_le_toLex, keyText_eq hleft, keyText_eq hright]
  by_cases htime : left.lastAttempt = right.lastAttempt
  · rw [if_neg (not_not.mpr htime), hleft, hright]
    refine ⟨_, rfl, ?_, ?_⟩
    · split
      · next hlt => simp [htime, hlt]
      · next hnot =>
        split
        · simp [htime, hnot]
        · simp [htime, hnot]
    · split
      · next hlt => simp [htime, le_of_lt hlt]
      · split
        · next hgt => simp [htime, hgt]
        · next hgt => simp [htime, le_of_not_gt hgt]
  · rw [if_pos htime]
    refine ⟨_, rfl, ?_, ?_⟩
    · split
      · next hlt => simp [hlt]
      · next hnot => simp [htime, hnot]
    · split
      · next hlt => simp [hlt]
      · next hnot => simp [htime, hnot]

theorem retriedBefore_iff {left right : SyncNextPendingEntry} {leftKey rightKey : String}
    (hleft : left.key = .ok leftKey) (hright : right.key = .ok rightKey) :
    RetriedBefore left right ↔ retryRank left < retryRank right := by
  obtain ⟨n, hn, hlt, -⟩ := compare_eq_ok hleft hright
  constructor
  · rintro ⟨m, hm, heq⟩
    rw [hn] at heq
    cases heq
    exact hlt.mp hm
  · intro h
    exact ⟨n, hlt.mpr h, hn⟩

/-! ## Texts and their code units -/

theorem utf16_inj {c d : Char} {r r' : List Nat}
    (h : (if c.toNat < 0x10000 then [c.toNat]
      else [0xd800 + (c.toNat - 0x10000) / 0x400, 0xdc00 + (c.toNat - 0x10000) % 0x400]) ++ r =
      (if d.toNat < 0x10000 then [d.toNat]
      else [0xd800 + (d.toNat - 0x10000) / 0x400, 0xdc00 + (d.toNat - 0x10000) % 0x400]) ++ r') :
    c = d ∧ r = r' := by
  have hc : c.toNat < 0xd800 ∨ 0xdfff < c.toNat ∧ c.toNat < 0x110000 := c.valid
  have hd : d.toNat < 0xd800 ∨ 0xdfff < d.toNat ∧ d.toNat < 0x110000 := d.valid
  have hsame : c.toNat = d.toNat ∧ r = r' := by
    split at h
    · split at h
      · simpa using h
      · simp only [List.cons_append, List.nil_append, List.cons.injEq] at h
        omega
    · split at h
      · simp only [List.cons_append, List.nil_append, List.cons.injEq] at h
        omega
      · simp only [List.cons_append, List.nil_append, List.cons.injEq] at h
        obtain ⟨hhigh, hlow, hrest⟩ := h
        exact ⟨by omega, hrest⟩
  exact ⟨Char.toNat_inj.mp hsame.1, hsame.2⟩

theorem codeUnits_injective : Function.Injective codeUnits := by
  intro a b h
  unfold codeUnits at h
  apply String.toList_inj.mp
  generalize a.toList = cs at h
  generalize b.toList = ds at h
  induction cs generalizing ds with
  | nil =>
    cases ds with
    | nil => rfl
    | cons d ds =>
      rw [List.flatMap_nil, List.flatMap_cons] at h
      split at h <;> cases h
  | cons c cs ih =>
    cases ds with
    | nil =>
      rw [List.flatMap_nil, List.flatMap_cons] at h
      split at h <;> cases h
    | cons d ds =>
      rw [List.flatMap_cons, List.flatMap_cons] at h
      obtain ⟨rfl, hrest⟩ := utf16_inj h
      rw [ih ds hrest]

/-- Rows under different keys have different ranks. -/
theorem retryRank_ne {a b : SyncNextPendingEntry} {aKey bKey : String} (ha : a.key = .ok aKey)
    (hb : b.key = .ok bKey) (hne : aKey ≠ bKey) : retryRank a ≠ retryRank b := by
  intro heq
  unfold retryRank at heq
  rw [keyText_eq ha, keyText_eq hb, EmbeddingLike.apply_eq_iff_eq, Prod.mk.injEq] at heq
  exact hne (codeUnits_injective heq.2)

end Order

end EnboxDwn.Agent
