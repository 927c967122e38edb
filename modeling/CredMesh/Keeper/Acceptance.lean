import CredMesh.Keeper.Tick
import CredMesh.Safety.Exposure
import CredMesh.Safety.TimeGates

/-!
# What the chain asks of a liquidation

The handler of `liquidate` runs after Anchor has checked the accounts, and starts with the time
gate. What is left, the bookkeeping, is no matter of the accounts or of the time. Over a reachable
state the accounts that pass are those derived from a stored advance of the pool they name.
-/

namespace CredMesh

open Outcome Escrow Keeper

namespace Escrow.Liquidate

/-- The accounts of an instruction in the order of `Liquidate`. The cranker has to sign, and what is
written has to be writable. -/
def ofAccounts : List (Address × AccountRole) → Option Liquidate
  | [(.key cranker, crankerRole), (.advance advance, advanceRole), (.consumed consumed, _),
      (.issuanceLedger issuanceLedger, ledgerRole), (.tombstone tombstone, tombstoneRole),
      (.key pool, poolRole), (.key system, _)] =>
      if crankerRole.isSigner ∧ crankerRole.isWritable ∧ advanceRole.isWritable ∧
          ledgerRole.isWritable ∧ tombstoneRole.isWritable ∧ poolRole.isWritable ∧
          system = systemProgram
      then some ⟨cranker, advance, consumed, issuanceLedger, tombstone, pool⟩
      else none
  | _ => none

end Escrow.Liquidate

namespace Chain

/-- The accounts pass their constraints, and the gate is open. -/
def AcceptsLiquidate (rt : Runtime) (s : Chain) (now : Int64) (accounts : Liquidate) : Prop :=
  ∃ ps advance consumed ledger, s.loadPool rt accounts.pool = .ok ps ∧
    accounts.tryAccounts rt ps = .ok (advance, consumed, ledger) ∧
    liquidationWindow advance now = .ok ()

/-- An instruction that names the escrow's `liquidate`, with accounts that it accepts. -/
def AcceptsIx (rt : Runtime) (s : Chain) (now : Int64) (ix : LiquidateIx) : Prop :=
  ix.programAddress = ProgramIds.escrow ∧ ix.data = EscrowMethod.liquidate.sighash.toList ∧
    ∃ accounts, Liquidate.ofAccounts ix.accounts = some accounts ∧
      s.AcceptsLiquidate rt now accounts

variable {rt : Runtime} {trace : List Input} {s s' : Chain} {accounts : Liquidate}

/-- The accounts that pass are those of a stored advance past its grace period. -/
theorem acceptsLiquidate_iff (hrun : run rt trace = .ok s) {now : Int64} :
    s.AcceptsLiquidate rt now accounts ↔
      ∃ ps advance, s.pools.lookup accounts.pool = some ps ∧
        ps.advances.lookup accounts.advance.key = some advance ∧
        Overdue now accounts advance := by
  simp only [AcceptsLiquidate, loadPool_eq_ok, Liquidate.tryAccounts_eq_ok, liquidationWindow_eq_ok]
  constructor
  · rintro ⟨ps, advance, consumed, ledger, ⟨hp, -⟩, ⟨hadvance, hconsumed, hledger, htombstone,
      hlive, -⟩, -, hwindow⟩
    refine ⟨ps, advance, hp, ?_, hadvance, hconsumed, hledger, htombstone, hwindow⟩
    rw [hadvance]
    exact hlive.found
  · rintro ⟨ps, advance, hp, hstored, hoverdue⟩
    have hexposure := run_exposure hrun hp
    have hseeds := ((run_custodial hrun).custody _ ps hp).seeds
    obtain ⟨consumed, ledger, hlive⟩ := hexposure.exists_live hstored
    have hunburied : ps.tombstones.lookup accounts.tombstone.key = none := by
      by_contra hburied
      rw [hoverdue.tombstoneNamed] at hburied
      have habsent := (hexposure.buried _ hburied).1
      exact Option.some_ne_none _ (hlive.found.symm.trans habsent)
    exact ⟨ps, advance, consumed, ledger, ⟨hp, hseeds⟩, ⟨hoverdue.named, hoverdue.consumedNamed,
      hoverdue.ledgerNamed, hoverdue.tombstoneNamed, hlive, hunburied⟩,
      hoverdue.window.trans_lt now.toInt_lt, hoverdue.window⟩

/-! ## The accounts of the escrow -/

/-- The state holds an account at its address. -/
def Stores (s : Chain) : ProgramAccount → Prop
  | .pool address contents => ∃ ps, s.pools.lookup address = some ps ∧ ps.pool = contents
  | .advance seeds contents => ∃ ps, s.pools.lookup seeds.pool = some ps ∧
      ps.advances.lookup seeds.key = some contents
  | .consumed seeds contents => ∃ ps, s.pools.lookup seeds.pool = some ps ∧
      ps.consumed.lookup seeds.key = some contents
  | .issuanceLedger seeds contents => ∃ ps, s.pools.lookup seeds.pool = some ps ∧
      ps.ledgers.lookup seeds.agent = some contents
  | .tombstone seeds contents => ∃ ps, s.pools.lookup seeds.pool = some ps ∧
      ps.tombstones.lookup seeds.key = some contents

/-- The answer of `getProgramAccounts` with a `memcmp` filter at offset 0: the stored accounts whose
data begins with the bytes of the filter. An account may be larger than its contents. -/
structure ProgramAccounts (s : Chain) (memcmp : List UInt8) (result : List KeyedAccount) :
    Prop where
  sound : ∀ acc ∈ result, ∃ account rest, s.Stores account ∧ memcmp <+: account.data ++ rest ∧
    acc.pubkey = account.address ∧ acc.data = Base64.encode (account.data ++ rest)
  complete : ∀ account, s.Stores account → memcmp <+: account.data →
    ∃ acc ∈ result, acc.pubkey = account.address

end Chain

end CredMesh
