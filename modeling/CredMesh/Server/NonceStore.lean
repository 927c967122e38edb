import CredMesh.Foundation.AccountMap
import CredMesh.Foundation.ByteString
import CredMesh.Foundation.EcmaScript

/-!
# The nonce store of the server

Sign-in nonces wait in a map under their text, each with the address it was issued to. Times are
readings of `Date.now()`, in milliseconds. A nonce leaves the map when it is consumed, when it is
found too old by a call for its address, or when a later issue collects it.
-/

namespace CredMesh.Server

open EcmaScript

def nonceTtlMs : ℤ := 5 * 60 * 1000

structure NonceEntry where
  issuedAt : ℤ
  address : JsString
  deriving DecidableEq

abbrev NonceStore := AccountMap JsString NonceEntry

def randomNonce (random : Bytes 16) : JsString := hexText random.toList

namespace NonceStore

variable {store : NonceStore} {nonce other address : JsString} {entry : NonceEntry}

def gc (store : NonceStore) (now : ℤ) : NonceStore :=
  AccountMap.filter (fun _ entry ↦ ¬ now - entry.issuedAt > nonceTtlMs) store

/-- The clock is read once for the collection and once for the new entry. -/
def issue (store : NonceStore) (gcNow now : ℤ) (nonce address : JsString) : NonceStore :=
  (store.gc gcNow).insert nonce ⟨now, address⟩

/-- Only a call for the right address removes an entry, even if it comes too late. -/
def consume (store : NonceStore) (now : ℤ) (nonce expectedAddress : JsString) :
    Bool × NonceStore :=
  match store.lookup nonce with
  | none => (false, store)
  | some entry =>
      if entry.address ≠ expectedAddress then (false, store)
      else if now - entry.issuedAt > nonceTtlMs then (false, store.erase nonce)
      else (true, store.erase nonce)

theorem lookup_gc_eq_some (now : ℤ) :
    (store.gc now).lookup nonce = some entry ↔
      store.lookup nonce = some entry ∧ now - entry.issuedAt ≤ nonceTtlMs := by
  rw [gc, AccountMap.lookup_filter, Option.filter_eq_some_iff, decide_eq_true_eq, not_lt]

theorem lookup_issue (gcNow now : ℤ) :
    (store.issue gcNow now nonce address).lookup nonce = some ⟨now, address⟩ :=
  Finmap.lookup_insert _

theorem lookup_issue_other (gcNow now : ℤ) (h : other ≠ nonce) :
    (store.issue gcNow now nonce address).lookup other = (store.gc gcNow).lookup other :=
  Finmap.lookup_insert_of_ne _ h

/-- A nonce is good for its address during its lifetime. -/
theorem consume_eq_true_iff {now : ℤ} :
    (store.consume now nonce address).1 = true ↔
      ∃ issuedAt, store.lookup nonce = some ⟨issuedAt, address⟩ ∧
        now - issuedAt ≤ nonceTtlMs := by
  unfold consume
  cases hentry : store.lookup nonce with
  | none => simp
  | some entry =>
      obtain ⟨issuedAt, owner⟩ := entry
      simp only [Option.some.injEq, NonceEntry.mk.injEq, and_assoc, exists_eq_left']
      split_ifs with howner hlate
      · exact ⟨fun h ↦ h.elim, fun h ↦ absurd h.1 howner⟩
      · exact ⟨fun h ↦ h.elim, fun h ↦ absurd hlate (not_lt.mpr h.2)⟩
      · exact ⟨fun _ ↦ ⟨not_not.mp howner, not_lt.mp hlate⟩, fun _ ↦ rfl⟩

theorem lookup_consume_other (now : ℤ) (h : other ≠ nonce) :
    (store.consume now nonce address).2.lookup other = store.lookup other := by
  unfold consume
  split
  · rfl
  · split_ifs
    · rfl
    · exact Finmap.lookup_erase_ne h
    · exact Finmap.lookup_erase_ne h

/-- A call for another address leaves the nonce to its owner. -/
theorem consume_wrong_address (now : ℤ) (hentry : store.lookup nonce = some entry)
    (h : entry.address ≠ address) : (store.consume now nonce address).2 = store := by
  simp only [consume, hentry, if_pos h]

/-- Consuming adds nothing to the store. -/
theorem lookup_of_lookup_consume {now : ℤ}
    (h : (store.consume now nonce address).2.lookup other = some entry) :
    store.lookup other = some entry := by
  obtain rfl | hother := eq_or_ne other nonce
  · unfold consume at h
    split at h
    · exact h
    · split_ifs at h
      · exact h
      · rw [Finmap.lookup_erase] at h
        cases h
      · rw [Finmap.lookup_erase] at h
        cases h
  · rwa [lookup_consume_other now hother] at h

theorem lookup_of_consume {now : ℤ} (h : (store.consume now nonce address).1 = true) :
    (store.consume now nonce address).2.lookup nonce = none := by
  obtain ⟨issuedAt, hentry, hfresh⟩ := consume_eq_true_iff.mp h
  simp only [consume, hentry, ne_eq, not_true, if_false, if_neg (not_lt.mpr hfresh)]
  exact Finmap.lookup_erase _ _

end NonceStore

end CredMesh.Server
