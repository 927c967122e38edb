import CredMesh.Keeper.Acceptance
import CredMesh.Safety.AdvanceDecoding
import CredMesh.Safety.Coverage

/-!
# What the keeper targets

The keeper selects every issued advance whose grace period is over, whichever pool it belongs to.
The instructions it builds name the one pool of its configuration, so the chain accepts them for the
advances of this pool. All that the chain would accept is selected.
-/

namespace CredMesh

open Outcome Escrow Keeper

section Answer

variable {s : Chain} {result : List KeyedAccount}

/-- The discriminators tell the types apart. -/
theorem exists_advance_of_isPrefix {account : ProgramAccount} {rest : List UInt8}
    (h : advanceDiscriminator <+: account.data ++ rest) :
    ∃ seeds advance, account = .advance seeds advance := by
  have htype : advanceDiscriminator = account.discriminator := by
    have hprefix := List.prefix_of_prefix_length_le h
      (account.discriminator_isPrefix.trans (List.prefix_append _ rest))
      (by rw [account.length_discriminator]; rfl)
    exact hprefix.eq_of_length (by rw [account.length_discriminator]; rfl)
  cases account with
  | advance seeds advance => exact ⟨seeds, advance, rfl⟩
  | _ =>
      have hkind := AccountKind.discriminator_injective (List.Vector.toList_injective htype)
      cases hkind

/-- The keeper decodes the advances of the escrow, and nothing else. -/
theorem mem_decoded_iff (h : s.ProgramAccounts advanceDiscriminator result)
    {decoded : DecodedAdvance} :
    decoded ∈ result.filterMap KeyedAccount.decoded ↔
      ∃ seeds advance, s.Stores (.advance seeds advance) ∧
        decoded = .of (.advance seeds) advance := by
  have hlisted : ∀ acc ∈ result, ∃ seeds advance, s.Stores (.advance seeds advance) ∧
      acc.pubkey = .advance seeds ∧ acc.decoded = some (.of (.advance seeds) advance) := by
    intro acc hacc
    obtain ⟨account, rest, hstored, hmemcmp, hpubkey, hdata⟩ := h.sound acc hacc
    obtain ⟨seeds, advance, rfl⟩ := exists_advance_of_isPrefix hmemcmp
    refine ⟨seeds, advance, hstored, hpubkey, ?_⟩
    rw [KeyedAccount.decoded, hdata, Base64.decode_encode, decodeAdvance_data, hpubkey]
    rfl
  rw [List.mem_filterMap]
  constructor
  · rintro ⟨acc, hacc, hdecoded⟩
    obtain ⟨seeds, advance, hstored, -, hfound⟩ := hlisted acc hacc
    exact ⟨seeds, advance, hstored, Option.some.inj (hdecoded.symm.trans hfound)⟩
  · rintro ⟨seeds, advance, hstored, rfl⟩
    have hmemcmp : advanceDiscriminator <+: (ProgramAccount.advance seeds advance).data :=
      List.prefix_append _ _
    obtain ⟨acc, hacc, hpubkey⟩ := h.complete _ hstored hmemcmp
    obtain ⟨seeds', advance', hstored', hpubkey', hfound⟩ := hlisted acc hacc
    obtain rfl : seeds = seeds' := Address.advance.inj (hpubkey.symm.trans hpubkey')
    obtain ⟨ps, hp, hlookup⟩ := hstored
    obtain ⟨ps', hp', hlookup'⟩ := hstored'
    obtain rfl : ps = ps' := Option.some.inj (hp.symm.trans hp')
    obtain rfl : advance = advance' := Option.some.inj (hlookup.symm.trans hlookup')
    exact ⟨acc, hacc, hfound⟩

/-- Every state has an answer. -/
theorem Chain.exists_programAccounts (s : Chain) :
    ∃ result, s.ProgramAccounts advanceDiscriminator result := by
  let accounts : List ProgramAccount := s.pools.entries.toList.flatMap fun pool ↦
    pool.2.advances.entries.toList.map fun entry ↦
      .advance ⟨pool.1, entry.1.1, entry.1.2⟩ entry.2
  have hmem (account : ProgramAccount) : account ∈ accounts ↔
      ∃ seeds advance, account = .advance seeds advance ∧ s.Stores account := by
    simp only [accounts, List.mem_flatMap, List.mem_map, Multiset.mem_toList, Sigma.exists]
    constructor
    · rintro ⟨p, ps, hp, key, advance, hadvance, rfl⟩
      exact ⟨_, _, rfl, ps, Finmap.mem_lookup_iff.mpr hp, Finmap.mem_lookup_iff.mpr hadvance⟩
    · rintro ⟨seeds, advance, rfl, ps, hp, hadvance⟩
      exact ⟨seeds.pool, ps, Finmap.mem_lookup_iff.mp hp, seeds.key, advance,
        Finmap.mem_lookup_iff.mp hadvance, rfl⟩
  refine ⟨accounts.map fun account ↦ ⟨account.address, Base64.encode account.data⟩, ?_, ?_⟩
  · intro acc hacc
    obtain ⟨account, haccount, rfl⟩ := List.mem_map.mp hacc
    obtain ⟨seeds, advance, rfl, hstored⟩ := (hmem account).mp haccount
    refine ⟨.advance seeds advance, [], hstored, ?_, rfl, by rw [List.append_nil]⟩
    rw [List.append_nil]
    exact List.prefix_append _ _
  · intro account hstored hmemcmp
    rw [← List.append_nil account.data] at hmemcmp
    obtain ⟨seeds, advance, rfl⟩ := exists_advance_of_isPrefix hmemcmp
    exact ⟨_, List.mem_map_of_mem ((hmem _).mpr ⟨seeds, advance, rfl, hstored⟩), rfl⟩

end Answer

theorem seedsOf_toList (pool agent : Pubkey) (receivableId : Bytes 32) :
    seedsOf pool agent.toList receivableId.toList = ⟨pool, agent, receivableId⟩ := by
  have harray (bytes : Bytes 32) : ByteString.arrayAt 32 bytes.toList 0 = bytes := by
    apply List.Vector.toList_injective
    rw [ByteString.arrayAt_toList (by rw [List.Vector.toList_length]),
      ByteString.slice_zero_length _ bytes.toList_length]
  rw [seedsOf, harray, harray]

section Run

variable {rt : Runtime} {trace : List Input} {s : Chain} {now : Int64}

/-- The instruction built for an advance is accepted exactly if the advance belongs to the pool and
its grace period is over. -/
theorem acceptsIx_iff (hrun : Chain.run rt trace = .ok s) {seeds : AdvanceSeeds} {advance : Advance}
    (hstored : s.Stores (.advance seeds advance)) (pool signer : Pubkey) :
    s.AcceptsIx rt now (liquidateIx pool signer (.of (.advance seeds) advance)) ↔
      seeds.pool = pool ∧
        advance.expiresAt.toInt + liquidationGraceSeconds.toInt ≤ now.toInt := by
  obtain ⟨ps, hp, hlookup⟩ := hstored
  have hread :
      Liquidate.ofAccounts (liquidateIx pool signer (.of (.advance seeds) advance)).accounts
      = some ⟨signer, seeds, seedsOf pool advance.agent.toList advance.receivableId.toList,
          ⟨pool, (seedsOf pool advance.agent.toList advance.receivableId.toList).agent⟩,
          seedsOf pool advance.agent.toList advance.receivableId.toList, pool⟩ := rfl
  rw [seedsOf_toList] at hread
  simp only [Chain.AcceptsIx, hread, Option.some.injEq, exists_eq_left',
    Chain.acceptsLiquidate_iff hrun]
  constructor
  · rintro ⟨-, -, ps', advance', hp', hlookup', hoverdue⟩
    have hpool : seeds.pool = pool := congrArg AdvanceSeeds.pool hoverdue.named
    rw [hpool] at hp
    obtain rfl : ps = ps' := Option.some.inj (hp.symm.trans hp')
    obtain rfl : advance = advance' := Option.some.inj (hlookup.symm.trans hlookup')
    exact ⟨hpool, hoverdue.window⟩
  · rintro ⟨rfl, hwindow⟩
    have hkeyed := ((Chain.run_exposure hrun hp).recorded _ advance hlookup).keyed
    obtain ⟨hagent, hreceivable⟩ := Prod.mk.inj hkeyed
    refine ⟨rfl, rfl, ps, advance, hp, hlookup, ?_, rfl, rfl, rfl, hwindow⟩
    rw [← hagent, ← hreceivable]

/-- The advance is issued and past its grace period. -/
structure IsOverdue (advance : Advance) (now : Int64) : Prop where
  issued : advance.state = .issued
  window : advance.expiresAt.toInt + liquidationGraceSeconds.toInt ≤ now.toInt

/-- What a tick at the cluster's time selects is what the chain accepts. -/
structure Targets (rt : Runtime) (s : Chain) (mint signer : Pubkey) (now : Int64)
    (result : List KeyedAccount) (selected : List DecodedAdvance) : Prop where
  selects : select defaultGraceSeconds now.toInt result = .ok selected
  sends : tick rt ⟨mint, signer, defaultGraceSeconds⟩ now.toInt result =
    .ok (selected.map (liquidateIx (rt.poolPda mint).1 signer))
  exact_iff : ∀ decoded, decoded ∈ selected ↔
    ∃ seeds advance, s.Stores (.advance seeds advance) ∧ decoded = .of (.advance seeds) advance ∧
      s.AcceptsIx rt now (liquidateIx (rt.poolPda mint).1 signer decoded)

theorem isLiquidatable_of (pubkey : Address) (advance : Advance) :
    isLiquidatable defaultGraceSeconds now.toInt (.of pubkey advance) = true ↔
      IsOverdue advance now := by
  have hgrace : liquidationGraceSeconds.toInt = defaultGraceSeconds := rfl
  simp only [isLiquidatable, DecodedAdvance.of, decide_eq_true_eq, variant_eq_issued]
  rw [← hgrace]
  exact ⟨fun h ↦ ⟨h.1, h.2⟩, fun h ↦ ⟨h.issued, h.window⟩⟩

/-- The tick selects the advances that are overdue, of all pools. -/
theorem exists_select {result : List KeyedAccount}
    (hresult : s.ProgramAccounts advanceDiscriminator result) (now : Int64) :
    ∃ selected, select defaultGraceSeconds now.toInt result = .ok selected ∧
      ∀ decoded, decoded ∈ selected ↔ ∃ seeds advance, s.Stores (.advance seeds advance) ∧
        decoded = .of (.advance seeds) advance ∧ IsOverdue advance now := by
  refine ⟨_, select_eq _ _ _, fun decoded ↦ ?_⟩
  rw [List.mem_filter, mem_decoded_iff hresult]
  constructor
  · rintro ⟨⟨seeds, advance, hstored, rfl⟩, hliquidatable⟩
    exact ⟨seeds, advance, hstored, rfl, (isLiquidatable_of _ _).mp hliquidatable⟩
  · rintro ⟨seeds, advance, hstored, rfl, hoverdue⟩
    exact ⟨⟨seeds, advance, hstored, rfl⟩, (isLiquidatable_of _ _).mpr hoverdue⟩

/-- A stored advance is issued, so what is accepted is overdue. -/
theorem isOverdue_of_acceptsIx (hrun : Chain.run rt trace = .ok s) {seeds : AdvanceSeeds}
    {advance : Advance} (hstored : s.Stores (.advance seeds advance)) {pool signer : Pubkey}
    (h : s.AcceptsIx rt now (liquidateIx pool signer (.of (.advance seeds) advance))) :
    IsOverdue advance now := by
  have hwindow := ((acceptsIx_iff hrun hstored pool signer).mp h).2
  obtain ⟨ps, hp, hlookup⟩ := hstored
  exact ⟨((Chain.run_exposure hrun hp).recorded _ advance hlookup).issued, hwindow⟩

theorem exists_targets_iff (hrun : Chain.run rt trace = .ok s) (mint signer : Pubkey)
    (now : Int64) {result : List KeyedAccount}
    (hresult : s.ProgramAccounts advanceDiscriminator result) :
    (∃ selected, Targets rt s mint signer now result selected) ↔
      ∀ seeds advance, s.Stores (.advance seeds advance) → IsOverdue advance now →
        seeds.pool = (rt.poolPda mint).1 := by
  obtain ⟨selected, hselected, hmem⟩ := exists_select hresult now
  constructor
  · rintro ⟨selected', htargets⟩ seeds advance hstored hoverdue
    obtain rfl := Except.ok.inj (hselected.symm.trans htargets.selects)
    obtain ⟨seeds', advance', hstored', hsame, haccepted⟩ :=
      (htargets.exact_iff (.of (.advance seeds) advance)).mp
        ((hmem _).mpr ⟨seeds, advance, hstored, rfl, hoverdue⟩)
    exact ((acceptsIx_iff hrun hstored _ _).mp haccepted).1
  · intro hown
    refine ⟨selected, hselected, ?_, fun decoded ↦ ?_⟩
    · rw [tick, hselected]
      rfl
    · rw [hmem]
      constructor
      · rintro ⟨seeds, advance, hstored, rfl, hoverdue⟩
        refine ⟨seeds, advance, hstored, rfl, ?_⟩
        exact (acceptsIx_iff hrun hstored _ _).mpr ⟨hown seeds advance hstored hoverdue,
          hoverdue.window⟩
      · rintro ⟨seeds, advance, hstored, rfl, haccepted⟩
        exact ⟨seeds, advance, hstored, rfl, isOverdue_of_acceptsIx hrun hstored haccepted⟩

/-- At any time, the advances that a tick selects are those for which the chain accepts the
instruction that it builds, exactly if every overdue advance belongs to the pool of the configured
mint. No advance for which the instruction would be accepted is ever left out. -/
theorem keeper_targets_iff (hrun : Chain.run rt trace = .ok s) (mint signer : Pubkey)
    (now : Int64) {result : List KeyedAccount}
    (hresult : s.ProgramAccounts advanceDiscriminator result) :
    ((∃ selected, Targets rt s mint signer now result selected) ↔
      ∀ seeds advance, s.Stores (.advance seeds advance) → IsOverdue advance now →
        seeds.pool = (rt.poolPda mint).1) ∧
    ∃ selected, select defaultGraceSeconds now.toInt result = .ok selected ∧
      ∀ seeds advance, s.Stores (.advance seeds advance) →
        s.AcceptsIx rt now (liquidateIx (rt.poolPda mint).1 signer
          (.of (.advance seeds) advance)) →
        DecodedAdvance.of (.advance seeds) advance ∈ selected := by
  refine ⟨exists_targets_iff hrun mint signer now hresult, ?_⟩
  obtain ⟨selected, hselected, hmem⟩ := exists_select hresult now
  refine ⟨selected, hselected, fun seeds advance hstored haccepted ↦ ?_⟩
  exact (hmem _).mpr ⟨seeds, advance, hstored, rfl, isOverdue_of_acceptsIx hrun hstored haccepted⟩

end Run

/-- On localnet there is one pool, and its keeper targets exactly what the chain accepts. -/
theorem keeper_targets_iff_localnet : ∃ s result,
    Chain.run Localnet.runtime Localnet.oneAdvance = .ok s ∧
    s.ProgramAccounts advanceDiscriminator result ∧
    ∃ selected, Targets Localnet.runtime s Localnet.usdcMint Localnet.cranker
      Localnet.graceEnd.now result selected := by
  obtain ⟨s, ps, hrun, hp, htest⟩ := Localnet.reaches_iff.mp
    (show Localnet.reaches Localnet.oneAdvance
      (fun s _ ↦ s.pools.keys = {Localnet.pool}) = true by decide +kernel)
  obtain ⟨result, hresult⟩ := s.exists_programAccounts
  refine ⟨s, result, hrun, hresult, ?_⟩
  refine (keeper_targets_iff hrun Localnet.usdcMint Localnet.cranker Localnet.graceEnd.now
    hresult).1.mpr ?_
  rintro seeds advance ⟨found, hfound, -⟩ -
  have hkey : seeds.pool ∈ s.pools.keys :=
    Finmap.mem_keys.mpr (Finmap.mem_of_lookup_eq_some hfound)
  rw [of_decide_eq_true htest, Finset.mem_singleton] at hkey
  rw [hkey]
  decide +kernel

namespace Localnet

def eurcMint : Pubkey := keyOf 23

/-- The pool of `eurcMint`. -/
def eurcPool : Pubkey :=
  ⟨[31, 155, 128, 97, 25, 107, 167, 4, 54, 127, 186, 21, 35, 19, 125, 26, 100, 39, 58, 238, 121,
    180, 153, 222, 43, 228, 25, 96, 242, 243, 77, 120], rfl⟩

/-- The derivation with the address of a second pool. -/
def twoPoolRuntime : Runtime where
  findProgramAddress seeds program :=
    if (seeds, program) = ([Seeds.poolSeed, eurcMint.toList], ProgramIds.escrow)
    then (eurcPool, 255) else runtime.findProgramAddress seeds program
  bump_ne_zero seeds program := by
    split
    · decide
    · exact runtime.bump_ne_zero seeds program

/-- An advance of the first pool, and then a second pool. -/
def twoPools : List Input := oneAdvance ++ [
  plain (t₀ + 50) (.token (.createMint eurcMint faucet none 6)),
  plain (t₀ + 50) (.initPool ⟨deployer, eurcPool, eurcMint, keyOf 25, keyOf 26⟩ params)]

end Localnet

/-- The keeper of the second pool selects the overdue advance of the first one and builds an
instruction that the chain refuses. -/
theorem foreign_advance_targeted : ∃ s result selected advance,
    Chain.run Localnet.twoPoolRuntime Localnet.twoPools = .ok s ∧
    s.ProgramAccounts advanceDiscriminator result ∧
    s.Stores (.advance ⟨Localnet.pool, Localnet.agent, Localnet.keyOf 1⟩ advance) ∧
    select defaultGraceSeconds Localnet.graceEnd.now.toInt result = .ok selected ∧
    DecodedAdvance.of (.advance ⟨Localnet.pool, Localnet.agent, Localnet.keyOf 1⟩) advance ∈
      selected ∧
    ¬ s.AcceptsIx Localnet.twoPoolRuntime Localnet.graceEnd.now
      (liquidateIx Localnet.eurcPool Localnet.cranker
        (.of (.advance ⟨Localnet.pool, Localnet.agent, Localnet.keyOf 1⟩) advance)) ∧
    ¬ ∃ selected, Targets Localnet.twoPoolRuntime s Localnet.eurcMint Localnet.cranker
      Localnet.graceEnd.now result selected := by
  obtain ⟨s, hrun, htest⟩ := Localnet.returns_iff.mp
    (show Localnet.returns (Chain.run Localnet.twoPoolRuntime Localnet.twoPools) (fun s ↦
      (s.pools.lookup Localnet.pool).any fun ps ↦
        (ps.advances.lookup (Localnet.agent, Localnet.keyOf 1)).any fun advance ↦
          advance.state = .issued ∧ advance.expiresAt.toInt + liquidationGraceSeconds.toInt ≤
            Localnet.graceEnd.now.toInt) = true by decide +kernel)
  obtain ⟨ps, hp, hadvance⟩ := (Option.any_eq_true _ _).mp htest
  obtain ⟨advance, hlookup, hdue⟩ := (Option.any_eq_true _ _).mp hadvance
  obtain ⟨hissued, hwindow⟩ := of_decide_eq_true hdue
  obtain ⟨result, hresult⟩ := s.exists_programAccounts
  obtain ⟨selected, hselected, hmem⟩ := exists_select hresult Localnet.graceEnd.now
  have hstored : s.Stores
      (.advance ⟨Localnet.pool, Localnet.agent, Localnet.keyOf 1⟩ advance) := ⟨ps, hp, hlookup⟩
  have hforeign : Localnet.pool ≠ Localnet.eurcPool := by decide +kernel
  have hpda : (Localnet.twoPoolRuntime.poolPda Localnet.eurcMint).1 = Localnet.eurcPool := by
    decide +kernel
  refine ⟨s, result, selected, advance, hrun, hresult, hstored, hselected,
    (hmem _).mpr ⟨_, advance, hstored, rfl, hissued, hwindow⟩, ?_, ?_⟩
  · intro haccepted
    exact hforeign ((acceptsIx_iff hrun hstored _ _).mp haccepted).1
  · intro htargets
    have hown := (exists_targets_iff hrun _ _ _ hresult).mp htargets
    exact hforeign ((hown _ advance hstored ⟨hissued, hwindow⟩).trans hpda)

end CredMesh
