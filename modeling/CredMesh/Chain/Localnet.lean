import CredMesh.Bridge.Attestation
import CredMesh.Chain.System

/-!
# Transactions that clients send

The instructions a client puts beside an escrow instruction so that the escrow can read them: an
ed25519 verification, a memo, a Squads execution. Each of them passes the check it is meant for.
The last part fixes keys, derived addresses and a first history on a local network, on which the
later results are exercised.
-/

namespace CredMesh.Client

open ByteString IxIntrospection Outcome Bridge

/-- An ed25519 verification with one entry, whose offsets all point into the instruction itself:
the key at 16, the signature at 48, the message at 112. -/
def ed25519Instruction (index : UInt16) (key : Pubkey) (signature : Bytes 64)
    (message : List UInt8) : Instruction where
  programId := ProgramIds.ed25519
  accounts := []
  data := [1, 0] ++ leBytes 2 48 ++ leBytes 2 index.toNat ++ leBytes 2 16 ++
    leBytes 2 index.toNat ++ leBytes 2 112 ++ leBytes 2 message.length ++
    leBytes 2 index.toNat ++ key.toList ++ signature.toList ++ message

def memoInstruction (memo : List UInt8) : Instruction where
  programId := ProgramIds.memo
  accounts := []
  data := memo

/-- The Anchor discriminator of Squads' `vault_transaction_execute`. -/
def vaultTransactionExecute : List UInt8 := [194, 8, 161, 87, 153, 164, 25, 171]

/-- A Squads instruction that names one vault as writable. -/
def squadsInstruction (discriminator : List UInt8) (vault : Pubkey) : Instruction where
  programId := ProgramIds.squadsV4
  accounts := [{ pubkey := vault, isSigner := false, isWritable := true }]
  data := discriminator

/-- The escrow's own entry in the instruction list; no check reads its accounts or data. -/
def escrowInstruction : Instruction where
  programId := ProgramIds.escrow
  accounts := []
  data := []

/-- A transaction of one companion instruction followed by an escrow instruction. -/
def companioned (companion : Instruction) : InstructionsSysvar where
  instructions := [companion, escrowInstruction]
  currentIndex := 1

theorem parseOffsets_ed25519Instruction (index : UInt16) (key : Pubkey) (signature : Bytes 64)
    (message : List UInt8) (hmessage : message.length < 2 ^ 16) :
    parseOffsets (ed25519Instruction index key signature message).data = some {
      signatureOffset := 48
      signatureInstructionIndex := index
      publicKeyOffset := 16
      publicKeyInstructionIndex := index
      messageDataOffset := 112
      messageDataSize := UInt16.ofNat message.length
      messageInstructionIndex := index } := by
  have hindex : UInt16.ofNat (readLE (leBytes 2 index.toNat)) = index := by
    rw [readLE_leBytes (by have := index.toNat_lt; omega), UInt16.ofNat_toNat]
  have hsize : readLE (leBytes 2 message.length) = message.length := readLE_leBytes (by omega)
  simp only [leBytes] at hindex hsize
  simp [parseOffsets, ed25519Instruction, ed25519OffsetsHeader, ed25519OffsetsLen, u16Le, slice,
    leBytes, hindex, hsize]
  decide

/-- A verification placed right before the escrow instruction is read back as it was built. -/
theorem verifyPrevEd25519_companioned (key : Pubkey) (signature : Bytes 64)
    (message : List UInt8) (hmessage : message.length < 2 ^ 16) :
    verifyPrevEd25519 (companioned (ed25519Instruction 0 key signature message)) =
      .ok (key, message) := by
  have hsize : (UInt16.ofNat message.length).toNat = message.length :=
    UInt16.toNat_ofNat_of_lt' hmessage
  have hlength : (ed25519Instruction 0 key signature message).data.length =
      112 + message.length := by
    simp [ed25519Instruction]
    omega
  have hcurrent : (1 : UInt16) ≠ 0 := by decide
  have hload : (companioned (ed25519Instruction 0 key signature message)).instructions[
      ((1 : UInt16) - 1).toNat]? = some (ed25519Instruction 0 key signature message) := by
    simp [companioned]
  have hprevious : (0 : UInt16) = 1 - 1 := by decide
  refine verifyPrevEd25519_eq_ok.mpr ⟨hcurrent, _, _, hload, rfl, rfl,
    parseOffsets_ed25519Instruction 0 key signature message hmessage,
    ⟨hprevious, hprevious, hprevious⟩, ?_, ?_, ?_, ?_⟩
  · change 16 + 32 ≤ _
    omega
  · rw [hlength, hsize]
    rfl
  · apply List.Vector.toList_injective
    change _ = (arrayAt 32 _ 16).toList
    rw [arrayAt_toList (by omega)]
    simp [ed25519Instruction, slice, leBytes]
  · rw [hsize]
    change message = slice _ 112 _
    have hkey : key.toList.drop 96 = [] := List.drop_eq_nil_of_le (by simp)
    simp [ed25519Instruction, slice, leBytes, List.drop_append, hkey]

end CredMesh.Client

namespace CredMesh.Localnet

open Outcome Escrow Bridge Client

/-- A key of 32 equal bytes. -/
def keyOf (byte : UInt8) : Pubkey := List.Vector.replicate 32 byte

def faucet : Pubkey := keyOf 3
def usdcMint : Pubkey := keyOf 6
def lp : Pubkey := keyOf 9
def agent : Pubkey := keyOf 10
def deployer : Pubkey := keyOf 11
def shareMint : Pubkey := keyOf 12
def usdcVault : Pubkey := keyOf 16
def lpUsdc : Pubkey := keyOf 17
def lpShare : Pubkey := keyOf 19
def treasury : Pubkey := keyOf 22
def cranker : Pubkey := keyOf 29

/-- The Squads vault that governs the pool and the registry. -/
def governance : Pubkey := keyOf 2

/-- The bridge's ed25519 key. -/
def bridge : Pubkey :=
  ⟨[68, 189, 16, 61, 82, 211, 232, 215, 45, 185, 199, 113, 21, 40, 174, 16, 148, 55, 13, 143,
    206, 122, 121, 141, 100, 63, 113, 134, 43, 224, 149, 225], rfl⟩

/-- The pool of `usdcMint`. -/
def pool : Pubkey :=
  ⟨[98, 83, 2, 131, 218, 50, 51, 182, 135, 193, 184, 171, 248, 19, 184, 231, 177, 48, 241, 190,
    17, 125, 10, 228, 243, 247, 112, 12, 70, 30, 242, 226], rfl⟩

/-- The agent's associated token account. -/
def agentUsdc : Pubkey :=
  ⟨[191, 111, 200, 62, 134, 128, 81, 234, 94, 49, 89, 63, 13, 108, 147, 135, 179, 24, 5, 141,
    144, 45, 175, 177, 92, 232, 128, 206, 36, 15, 196, 251], rfl⟩

/-- The addresses derived from the seeds that occur on localnet. -/
def addresses : List ((List (List UInt8) × Pubkey) × (Pubkey × UInt8)) := [
  (([Seeds.poolSeed, usdcMint.toList], ProgramIds.escrow), (pool, 254)),
  (([agent.toList, ProgramIds.token.toList, usdcMint.toList], ProgramIds.associatedToken),
    (agentUsdc, 255)),
  (([Seeds.attestorConfigSeed], ProgramIds.attestorRegistry),
    (⟨[178, 104, 79, 51, 206, 147, 39, 128, 117, 39, 22, 212, 98, 45, 33, 165, 208, 108, 126,
        19, 198, 81, 236, 87, 116, 204, 144, 55, 27, 84, 75, 234], rfl⟩, 255)),
  (([Seeds.allowedSignerSeed, bridge.toList], ProgramIds.attestorRegistry),
    (⟨[169, 186, 235, 35, 70, 161, 24, 121, 111, 198, 124, 159, 122, 150, 236, 147, 245, 52,
        100, 172, 85, 238, 91, 129, 174, 218, 201, 225, 11, 208, 73, 18], rfl⟩, 253)),
  (([Seeds.issuanceLedgerSeed, pool.toList, agent.toList], ProgramIds.escrow),
    (⟨[179, 243, 115, 179, 103, 27, 182, 47, 118, 30, 116, 122, 14, 178, 160, 1, 30, 61, 53, 37,
        106, 206, 252, 81, 6, 148, 107, 138, 81, 198, 1, 0], rfl⟩, 255)),
  (([Seeds.advanceSeed, pool.toList, agent.toList, (keyOf 1).toList], ProgramIds.escrow),
    (⟨[215, 4, 77, 157, 134, 84, 32, 254, 176, 250, 189, 125, 138, 97, 253, 28, 76, 221, 173,
        77, 93, 26, 207, 212, 192, 17, 136, 54, 69, 54, 217, 32], rfl⟩, 255)),
  (([Seeds.consumedSeed, pool.toList, agent.toList, (keyOf 1).toList], ProgramIds.escrow),
    (⟨[84, 33, 194, 69, 153, 42, 122, 127, 111, 142, 209, 85, 77, 225, 57, 97, 182, 251, 189,
        223, 166, 5, 137, 152, 155, 76, 249, 40, 201, 106, 218, 52], rfl⟩, 253)),
  (([Seeds.advanceSeed, pool.toList, agent.toList, (keyOf 2).toList], ProgramIds.escrow),
    (⟨[55, 12, 178, 117, 250, 151, 65, 151, 196, 43, 178, 130, 118, 162, 137, 28, 49, 92, 3, 24,
        177, 219, 34, 167, 92, 249, 219, 251, 134, 62, 170, 166], rfl⟩, 251)),
  (([Seeds.consumedSeed, pool.toList, agent.toList, (keyOf 2).toList], ProgramIds.escrow),
    (⟨[196, 34, 65, 168, 165, 177, 27, 43, 1, 201, 16, 51, 35, 81, 146, 98, 109, 224, 210, 189,
        187, 206, 45, 226, 176, 228, 212, 143, 158, 249, 168, 126], rfl⟩, 255)),
  (([Seeds.advanceSeed, pool.toList, agent.toList, (keyOf 3).toList], ProgramIds.escrow),
    (⟨[86, 231, 181, 218, 188, 239, 22, 186, 32, 70, 68, 82, 30, 32, 113, 79, 224, 152, 227,
        117, 148, 84, 5, 254, 36, 5, 177, 215, 147, 107, 225, 209], rfl⟩, 254)),
  (([Seeds.consumedSeed, pool.toList, agent.toList, (keyOf 3).toList], ProgramIds.escrow),
    (⟨[20, 153, 68, 131, 47, 251, 191, 125, 195, 105, 86, 132, 73, 6, 49, 239, 200, 175, 211,
        61, 20, 142, 180, 59, 153, 84, 149, 60, 9, 13, 59, 105], rfl⟩, 251)),
  (([Seeds.liquidationTombstoneSeed, pool.toList, agent.toList, (keyOf 1).toList],
      ProgramIds.escrow),
    (⟨[232, 170, 199, 153, 73, 164, 89, 33, 10, 71, 196, 192, 1, 106, 53, 208, 73, 58, 252, 200,
        185, 232, 113, 42, 37, 34, 210, 145, 237, 63, 93, 214], rfl⟩, 252))]

/-- The derivation of localnet's addresses. -/
def runtime : Runtime where
  findProgramAddress seeds program :=
    (addresses.lookup (seeds, program)).getD (defaultPubkey, 255)
  bump_ne_zero seeds program := by
    cases hfound : addresses.lookup (seeds, program) with
    | none => simp
    | some found =>
        have hall : ∀ entry ∈ addresses, entry.2.2 ≠ 0 := by decide +kernel
        obtain ⟨before, after, hsplit, -⟩ := List.lookup_eq_some_iff.mp hfound
        exact hall ((seeds, program), found) (by simp [hsplit])

/-- The ASCII text `credmesh-nonce-1`. -/
def textNonce : Bytes 16 :=
  ⟨[99, 114, 101, 100, 109, 101, 115, 104, 45, 110, 111, 110, 99, 101, 45, 49], rfl⟩

/-- A nonce that is not text. -/
def binaryNonce : Bytes 16 := List.Vector.replicate 16 255

def t₀ : Int64 := 1700000000

/-- The bridge's signatures over the attestations of a limit of 500 USDC: made at `t₀`, one second
before the end of the first day, and at `t₀` for the binary nonce. -/
def signatureFirst : Bytes 64 :=
  ⟨[57, 93, 156, 222, 2, 14, 133, 46, 62, 80, 232, 136, 95, 196, 90, 172, 201, 61, 81, 199, 133,
    90, 210, 104, 208, 222, 49, 81, 90, 42, 12, 59, 55, 196, 101, 137, 154, 203, 85, 207, 132,
    108, 207, 225, 126, 249, 93, 216, 160, 88, 210, 174, 197, 196, 125, 240, 150, 214, 57, 233,
    165, 182, 2, 7], rfl⟩

def signatureSecond : Bytes 64 :=
  ⟨[106, 122, 193, 44, 60, 169, 50, 170, 186, 174, 228, 147, 93, 22, 100, 86, 117, 70, 119, 175,
    167, 44, 41, 1, 215, 125, 40, 18, 26, 4, 238, 120, 1, 75, 212, 237, 115, 98, 173, 110, 13,
    193, 122, 131, 188, 231, 76, 176, 110, 233, 181, 11, 172, 99, 38, 212, 158, 63, 117, 156,
    141, 14, 163, 8], rfl⟩

def signatureBinary : Bytes 64 :=
  ⟨[162, 62, 249, 122, 133, 187, 137, 40, 93, 131, 139, 150, 244, 128, 85, 176, 197, 240, 233,
    93, 180, 9, 86, 234, 229, 136, 90, 154, 214, 150, 101, 28, 107, 230, 69, 236, 128, 175, 210,
    50, 142, 248, 131, 248, 127, 239, 116, 103, 80, 90, 172, 23, 226, 130, 41, 155, 175, 132, 72,
    204, 205, 121, 61, 13], rfl⟩

def attestationBytes (expiresAt attestedAt : Int64) (nonce : Bytes 16) : List UInt8 :=
  (encodeAttestation (attestationInput agent pool 500000000 0 expiresAt attestedAt nonce
    2)).toOption.getD []

/-- An instruction that does not look at its transaction. -/
def plain (now : Int64) (action : Action) : Input := ⟨⟨now, ⟨[], 0⟩⟩, action⟩

def feeCurve : FeeCurve where
  utilizationKinkBps := 8000
  baseRateBps := 200
  kinkRateBps := 800
  maxRateBps := 5000
  durationPerDayBps := 50
  riskPremiumBps := 100
  poolLossSurchargeBps := 0

def params : InitPoolParams where
  feeCurve
  maxAdvancePctBps := 3000
  maxAdvanceAbs := 200000000
  timelockSeconds := 86400
  governance
  treasuryAta := treasury
  chainId := 2
  agentWindowCap := 150000000

def liquidityAccounts : Deposit := ⟨lp, pool, usdcVault, lpUsdc, shareMint, lpShare, usdcMint⟩

/-- A funded provider, a pool with 1000 USDC in it, and the bridge on the whitelist. -/
def opening : List Input := [
  plain t₀ (.token (.createMint usdcMint faucet none 6)),
  plain t₀ (.token (.createAccount lpUsdc usdcMint lp)),
  plain t₀ (.token (.createAccount treasury usdcMint cranker)),
  plain t₀ (.token (.mintTo usdcMint lpUsdc faucet 2000000000)),
  plain t₀ (.initPool ⟨deployer, pool, usdcMint, shareMint, usdcVault⟩ params),
  plain t₀ (.token (.createAccount lpShare shareMint lp)),
  plain t₀ (.registry (.initRegistry deployer governance)),
  ⟨⟨t₀, companioned (squadsInstruction vaultTransactionExecute governance)⟩,
    .registry (.addAllowedSigner cranker bridge 0)⟩,
  plain t₀ (.pool (.deposit liquidityAccounts 1000000000))]

/-- An advance on the receivable `keyOf id`, underwritten by a signed attestation. -/
def request (id : UInt8) (amount : UInt64) (now expiresAt attestedAt : Int64) (nonce : Bytes 16)
    (signature : Bytes 64) : Input where
  env := ⟨now, companioned (ed25519Instruction 0 bridge signature
    (attestationBytes expiresAt attestedAt nonce))⟩
  action := .pool (.requestAdvance {
    agent, allowedSigner := bridge, pool
    advance := ⟨pool, agent, keyOf id⟩
    consumed := ⟨pool, agent, keyOf id⟩
    issuanceLedger := ⟨pool, agent⟩
    poolUsdcVault := usdcVault, agentUsdcAta := agentUsdc, usdcMint } (keyOf id) amount nonce)

/-- The first advance, made at `t₀` for a day. -/
def firstRequest (amount : UInt64) : Input :=
  request 1 amount t₀ (t₀ + 86400) t₀ textNonce signatureFirst

def settle (id : UInt8) (payment : UInt64) (now : Int64) (memo : List UInt8) : Input where
  env := ⟨now, companioned (memoInstruction memo)⟩
  action := .pool (.claimAndSettle {
    agent
    advance := ⟨pool, agent, keyOf id⟩
    consumed := ⟨pool, agent, keyOf id⟩
    issuanceLedger := ⟨pool, agent⟩
    pool, poolUsdcVault := usdcVault, agentUsdcAta := agentUsdc
    protocolTreasuryAta := treasury, usdcMint } payment)

def liquidation (id : UInt8) (now : Int64) : Input :=
  plain now (.pool (.liquidate {
    cranker
    advance := ⟨pool, agent, keyOf id⟩
    consumed := ⟨pool, agent, keyOf id⟩
    issuanceLedger := ⟨pool, agent⟩
    tombstone := ⟨pool, agent, keyOf id⟩
    pool }))

def skim (amount : UInt64) (now : Int64) : Input where
  env := ⟨now, companioned (squadsInstruction vaultTransactionExecute governance)⟩
  action := .pool (.skimProtocolFees
    ⟨cranker, governance, pool, usdcVault, treasury, usdcMint⟩ amount)

def withdrawal (shares : UInt64) (now : Int64) : Input :=
  plain now (.pool (.withdraw liquidityAccounts shares))

/-- The first advance, of 100 USDC, written off as soon as its grace period is over. -/
def defaulted : List Input := opening ++ [
  firstRequest 100000000,
  liquidation 1 (t₀ + 86400 + liquidationGraceSeconds)]

/-- The trace is accepted, and the pool it leaves passes a test. -/
def reaches (trace : List Input) (test : Chain → PoolState → Bool) : Bool :=
  match Chain.run runtime trace with
  | .ok s => (s.pools.lookup pool).any (test s)
  | .error _ => false

theorem reaches_iff {trace : List Input} {test : Chain → PoolState → Bool} :
    reaches trace test = true ↔
      ∃ s ps, Chain.run runtime trace = .ok s ∧ s.pools.lookup pool = some ps ∧
        test s ps = true := by
  unfold reaches
  cases Chain.run runtime trace with
  | error error => simp
  | ok s => simp [Option.any_eq_true]

/-- A test of the agent's first advance. -/
theorem reaches_advance {trace : List Input} {test : Chain → PoolState → Advance → Bool}
    (h : reaches trace (fun s ps ↦ (ps.advances.lookup (agent, keyOf 1)).any (test s ps)) = true) :
    ∃ s ps advance, Chain.run runtime trace = .ok s ∧ s.pools.lookup pool = some ps ∧
      ps.advances.lookup (agent, keyOf 1) = some advance ∧ test s ps advance = true := by
  obtain ⟨s, ps, hrun, hp, hfound⟩ := reaches_iff.mp h
  obtain ⟨advance, hadvance, htest⟩ := (Option.any_eq_true _ _).mp hfound
  exact ⟨s, ps, advance, hrun, hp, hadvance, htest⟩

theorem reaches_run {trace : List Input} {test : Chain → PoolState → Bool} {s : Chain}
    (hrun : Chain.run runtime trace = .ok s) (h : reaches trace test = true) :
    ∃ ps, s.pools.lookup pool = some ps ∧ test s ps = true := by
  obtain ⟨found, ps, hfound, hp, htest⟩ := reaches_iff.mp h
  obtain rfl : s = found := Except.ok.inj (hrun.symm.trans hfound)
  exact ⟨ps, hp, htest⟩

/-- Every pool state along the trace passes a test. -/
def everyState (trace : List Input) (test : PoolState → Bool) : Bool :=
  (List.range (trace.length + 1)).all fun n ↦
    match Chain.run runtime (trace.take n) with
    | .ok s => (s.pools.lookup pool).all test
    | .error _ => true

theorem everyState_spec {trace part : List Input} {test : PoolState → Bool} {s : Chain}
    {ps : PoolState} (h : everyState trace test = true) (hpart : part <+: trace)
    (hrun : Chain.run runtime part = .ok s) (hp : s.pools.lookup pool = some ps) :
    test ps = true := by
  have hn := List.all_eq_true.mp h part.length
    (List.mem_range.mpr (Nat.lt_succ_of_le hpart.length_le))
  rw [← List.prefix_iff_eq_take.mp hpart, hrun] at hn
  simpa [hp] using hn

/-- Every step of the trace passes a test, given the inputs before it and the state it meets. -/
def everyStep (trace : List Input) (test : List Input → Input → Chain → Bool) : Bool :=
  (List.range trace.length).all fun n ↦
    match Chain.run runtime (trace.take n), (trace.drop n).head? with
    | .ok s, some input => test (trace.take n) input s
    | _, _ => true

theorem everyStep_spec {trace part : List Input} {input : Input}
    {test : List Input → Input → Chain → Bool} {s : Chain} (h : everyStep trace test = true)
    (hpart : part ++ [input] <+: trace) (hrun : Chain.run runtime part = .ok s) :
    test part input s = true := by
  obtain ⟨rest, rfl⟩ := hpart
  have hn := List.all_eq_true.mp h part.length (List.mem_range.mpr (by simp))
  have htake : (part ++ [input] ++ rest).take part.length = part := by simp
  have hhead : ((part ++ [input] ++ rest).drop part.length).head? = some input := by simp
  rw [htake, hhead, hrun] at hn
  exact hn

/-- A call succeeds with a result that passes a test. -/
def returns {ε α : Type} (call : Except ε α) (test : α → Bool) : Bool :=
  match call with
  | .ok result => test result
  | .error _ => false

theorem returns_iff {ε α : Type} {call : Except ε α} {test : α → Bool} :
    returns call test = true ↔ ∃ result, call = .ok result ∧ test result = true := by
  unfold returns
  cases call <;> simp

/-- An instruction fails with the given error. -/
def rejects (s : Chain) (input : Input) (error : Error) : Bool :=
  match Chain.step runtime input s with
  | .ok _ => false
  | .error found => found = error

theorem rejects_iff {s : Chain} {input : Input} {error : Error} :
    rejects s input error = true ↔ Chain.step runtime input s = .error error := by
  unfold rejects
  cases Chain.step runtime input s <;> simp

end CredMesh.Localnet
