import Mathlib.Algebra.Group.Pi.Lemmas
import CredMesh.Chain.Localnet
import CredMesh.Chain.Shift

/-!
# Direct transfers into a vault

Tokens sent directly to the vault of a pool change no price. A run into which such transfers are
inserted accepts everything that the run without them accepted, with the same events and the same
accounts of the escrow after every step. Only balances differ: the vault holds more by what it was
sent, and each sender less. A sender that draws on the account later has to be able to spare what it
sent, and nobody else is affected.
-/

namespace CredMesh

open Escrow Spl

/-- A direct transfer into a vault. -/
structure Donation where
  env : Env
  source : Pubkey
  mint : Pubkey
  authority : Pubkey
  amount : UInt64
  decimals : UInt8

def Donation.input (vault : Pubkey) (donation : Donation) : Input where
  env := donation.env
  action := .token (.transfer donation.source donation.mint vault donation.authority
    donation.amount donation.decimals)

/-- An input of a run, or a transfer that is inserted into it. -/
inductive Entry
  | original (input : Input)
  | inserted (donation : Donation)

namespace Entry

def input (vault : Pubkey) : Entry → Input
  | original input => input
  | inserted donation => donation.input vault

def asOriginal : Entry → Option Input
  | original input => some input
  | inserted _ => none

/-- What an account sends with an entry that is inserted. -/
def sentBy (account : Pubkey) : Entry → ℕ
  | original _ => 0
  | inserted donation => if account = donation.source then donation.amount.toNat else 0

def donated : Entry → ℕ
  | original _ => 0
  | inserted donation => donation.amount.toNat

end Entry

/-- The run without the insertions, and the one with them. -/
def originals (script : List Entry) : List Input := script.filterMap Entry.asOriginal

def modified (vault : Pubkey) (script : List Entry) : List Input := script.map (Entry.input vault)

/-- What an account has sent to the vault so far. -/
def sentBy (script : List Entry) (account : Pubkey) : ℕ := (script.map (Entry.sentBy account)).sum

/-- A transfer from the account has been inserted so far. -/
def HasSent (script : List Entry) (account : Pubkey) : Prop :=
  ∃ donation, .inserted donation ∈ script ∧ account = donation.source

/-- What the vault has been sent so far. -/
def donated (script : List Entry) : ℕ := (script.map Entry.donated).sum

/-- Each inserted transfer goes into the vault of the pool and is accepted where it is inserted. An
account that something was sent from can spare it when an original instruction draws on it: in the
run without the transfers it holds both, and in the run with them the signer may draw on it. -/
structure Insertion (rt : Runtime) (p vault : Pubkey) (script : List Entry) : Prop where
  into : ∀ part donation s, part ++ [.inserted donation] <+: script →
    Chain.run rt (originals part) = .ok s →
    ∃ ps, s.pools.lookup p = some ps ∧ ps.pool.usdcVault = vault
  accepted : ∀ part donation t, part ++ [.inserted donation] <+: script →
    Chain.run rt (modified vault part) = .ok t →
    ∃ t', Chain.step rt (donation.input vault) t = .ok t'
  spared : ∀ part input s t, part ++ [.original input] <+: script →
    Chain.run rt (originals part) = .ok s → Chain.run rt (modified vault part) = .ok t →
    ∀ account authority amount, s.drawn input account = some (authority, amount) →
      HasSent part account →
        amount + sentBy part account ≤ s.tokens.balance account ∧
        t.tokens.Allows account authority amount

section Script

variable (part : List Entry) (input : Input) (donation : Donation) (vault : Pubkey)

theorem originals_snoc_original :
    originals (part ++ [.original input]) = originals part ++ [input] := by
  simp [originals, Entry.asOriginal]

theorem originals_snoc_inserted :
    originals (part ++ [.inserted donation]) = originals part := by
  simp [originals, Entry.asOriginal]

theorem modified_snoc (entry : Entry) :
    modified vault (part ++ [entry]) = modified vault part ++ [entry.input vault] := by
  simp [modified]

theorem sentBy_snoc_original : sentBy (part ++ [.original input]) = sentBy part := by
  funext account
  simp [sentBy, Entry.sentBy]

theorem sentBy_snoc_inserted :
    sentBy (part ++ [.inserted donation]) =
      sentBy part + Pi.single donation.source donation.amount.toNat := by
  funext account
  simp [sentBy, Entry.sentBy, Pi.single_apply]

theorem hasSent_snoc_original : HasSent (part ++ [.original input]) = HasSent part := by
  funext account
  simp [HasSent]

theorem hasSent_snoc_inserted : HasSent (part ++ [.inserted donation]) =
    fun account ↦ HasSent part account ∨ account = donation.source := by
  funext account
  simp [HasSent, or_and_right, exists_or]

theorem donated_snoc_original : donated (part ++ [.original input]) = donated part := by
  simp [donated, Entry.donated]

theorem donated_snoc_inserted :
    donated (part ++ [.inserted donation]) = donated part + donation.amount.toNat := by
  simp [donated, Entry.donated]

end Script

/-! ## Two runs -/

section Runs

variable {rt : Runtime} {p vault : Pubkey} {script : List Entry} {final : Chain}

/-- An inserted transfer that the second chain accepts takes from an account that is not a vault. -/
theorem Parallel.donate {touched : Pubkey → Prop} {sent received : Pubkey → ℕ} {s t t' : Chain}
    {donation : Donation} (h : Parallel touched sent received s t)
    (hcustodial : Chain.Custodial rt t)
    (hstep : Chain.step rt (donation.input vault) t = .ok t') :
    (∀ p ps, s.pools.lookup p = some ps → ps.pool.usdcVault ≠ donation.source) ∧
    Parallel (fun account ↦ touched account ∨ account = donation.source)
      (sent + Pi.single donation.source donation.amount.toNat)
      (received + Pi.single vault donation.amount.toNat) s t' := by
  simp only [Chain.step, Donation.input, Outcome.bind_eq_ok, Chain.requireSigner_eq_ok,
    Outcome.mapError_eq_ok, Outcome.pure_eq_ok, TokenInstruction.signer] at hstep
  obtain ⟨-, hsigner, tokens, heffect, rfl⟩ := hstep
  refine ⟨fun q ps hq ↦ ?_, h.pools, h.registry, h.events, h.tokens.donate heffect⟩
  rw [← h.pools] at hq
  refine ((hcustodial.custody q ps hq).heldAlone.ne_of_drawReady
    (transferChecked_ready heffect).toDrawReady ?_).symm
  rintro rfl
  rw [hq] at hsigner
  cases hsigner

/-- The two runs at a point of the script. No vault has sent anything, and as soon as the vault has
been sent something it is that of the pool. -/
structure Alongside (rt : Runtime) (p vault : Pubkey) (part : List Entry) (s t : Chain) :
    Prop where
  original : Chain.run rt (originals part) = .ok s
  modified : Chain.run rt (modified vault part) = .ok t
  parallel : Parallel (HasSent part) (sentBy part) (Pi.single vault (donated part)) s t
  vaults : ∀ q ps, s.pools.lookup q = some ps → sentBy part ps.pool.usdcVault = 0
  unsent : sentBy part vault = 0
  into : donated part ≠ 0 → ∃ ps, s.pools.lookup p = some ps ∧ ps.pool.usdcVault = vault

theorem Alongside.start : Alongside rt p vault [] genesis genesis where
  original := rfl
  modified := rfl
  parallel := by
    refine ⟨rfl, rfl, rfl, rfl, fun _ ↦ .none, by simp [sentBy, donated], by simp [sentBy], ?_⟩
    exact (Chain.custodial_genesis : Chain.Custodial rt genesis).balanced
  vaults := fun _ _ _ ↦ rfl
  unsent := rfl
  into := fun h ↦ absurd rfl h

/-- An account that is not there has sent nothing. -/
theorem Alongside.sentBy_eq_zero {part : List Entry} {s t : Chain} {account : Pubkey}
    (h : Alongside rt p vault part s t) (hnone : s.tokens.accounts.lookup account = none) :
    sentBy part account = 0 := by
  by_cases hvault : account = vault
  · rw [hvault]
    exact h.unsent
  · have hbalance := h.parallel.tokens.balance account
    rw [Pi.single_eq_of_ne hvault, TokenLedger.balance, TokenLedger.balance, hnone] at hbalance
    simp only [Option.map_none, Option.getD_none] at hbalance
    omega

/-- The vault that has been sent something is not closed. -/
theorem Alongside.received_eq_zero {part : List Entry} {s t s' : Chain} {input : Input}
    (h : Alongside rt p vault part s t) (hstep : Chain.step rt input s = .ok s')
    (account : Pubkey) (hclosed : input.action.closes account = true) :
    (Pi.single vault (donated part) : Pubkey → ℕ) account = 0 := by
  by_cases hvault : account = vault
  · subst hvault
    rw [Pi.single_eq_same]
    by_contra hdonated
    obtain ⟨ps, hp, rfl⟩ := h.into hdonated
    obtain ⟨_, -, hbooks⟩ := Chain.step_books (Chain.run_custodial h.original) hstep hp
    rw [show input.action.closes ps.pool.usdcVault = false from hbooks.closes_eq_false] at hclosed
    cases hclosed
  · exact Pi.single_eq_of_ne hvault _

/-- An original input that the first run accepts is accepted by the second. -/
theorem Alongside.proceed {part : List Entry} {input : Input} {s t s' : Chain}
    (h : Alongside rt p vault part s t) (hstep : Chain.step rt input s = .ok s')
    (hspared : ∀ account authority amount, s.drawn input account = some (authority, amount) →
      HasSent part account →
        amount + sentBy part account ≤ s.tokens.balance account ∧
        t.tokens.Allows account authority amount) :
    ∃ t', Alongside rt p vault (part ++ [.original input]) s' t' := by
  have hcustodial := Chain.run_custodial h.original
  obtain ⟨t', hstep', hparallel⟩ := Chain.step_parallel h.parallel hstep
    (Chain.run_custodial h.modified) h.vaults (h.received_eq_zero hstep)
    fun account authority amount hdrawn hsent ↦ by
      obtain ⟨hfunds, hallowed⟩ := hspared account authority amount hdrawn hsent
      have hbalance := h.parallel.tokens.balance account
      exact ⟨by omega, hallowed⟩
  refine ⟨t', ?_⟩
  constructor
  case original =>
    rw [originals_snoc_original]
    exact Execution.run_snoc.mpr ⟨s, h.original, hstep⟩
  case modified =>
    rw [modified_snoc]
    exact Execution.run_snoc.mpr ⟨t, h.modified, hstep'⟩
  case parallel => rwa [hasSent_snoc_original, sentBy_snoc_original, donated_snoc_original]
  case vaults =>
    intro q ps' hq'
    rw [sentBy_snoc_original]
    cases hq : s.pools.lookup q with
    | none =>
        -- the vault of a new pool was not there before
        obtain ⟨accounts, _, -, -, rfl, hfresh, -⟩ :=
          Chain.step_create hcustodial.minted hstep hq hq'
        exact h.sentBy_eq_zero hfresh
    | some ps =>
        obtain ⟨found, hfound, hbooks⟩ := Chain.step_books hcustodial hstep hq
        obtain rfl := Option.some.inj (hfound.symm.trans hq')
        obtain ⟨-, hvault, -⟩ := hbooks.identity
        exact (congrArg (sentBy part) hvault).trans (h.vaults q ps hq)
  case unsent =>
    rw [sentBy_snoc_original]
    exact h.unsent
  case into =>
    rw [donated_snoc_original]
    intro hdonated
    obtain ⟨ps, hp, hvault⟩ := h.into hdonated
    obtain ⟨ps', hp', hbooks⟩ := Chain.step_books hcustodial hstep hp
    obtain ⟨-, hkept, -⟩ := hbooks.identity
    exact ⟨ps', hp', hkept.trans hvault⟩

/-- An inserted transfer does not touch the first run. -/
theorem Alongside.insert {part : List Entry} {donation : Donation} {s t t' : Chain}
    {ps : PoolState} (h : Alongside rt p vault part s t) (hp : s.pools.lookup p = some ps)
    (hvault : ps.pool.usdcVault = vault)
    (hstep : Chain.step rt (donation.input vault) t = .ok t') :
    Alongside rt p vault (part ++ [.inserted donation]) s t' := by
  obtain ⟨hsource, hparallel⟩ := h.parallel.donate (Chain.run_custodial h.modified) hstep
  have hvaults (q : Pubkey) (other : PoolState) (hq : s.pools.lookup q = some other) :
      sentBy (part ++ [.inserted donation]) other.pool.usdcVault = 0 := by
    rw [sentBy_snoc_inserted, Pi.add_apply, Pi.single_eq_of_ne (hsource q other hq), add_zero]
    exact h.vaults q other hq
  constructor
  case original =>
    rw [originals_snoc_inserted]
    exact h.original
  case modified =>
    rw [modified_snoc]
    exact Execution.run_snoc.mpr ⟨t, h.modified, hstep⟩
  case parallel =>
    rwa [hasSent_snoc_inserted, sentBy_snoc_inserted, donated_snoc_inserted, Pi.single_add]
  case vaults => exact hvaults
  case unsent =>
    rw [← hvault]
    exact hvaults p ps hp
  case into => exact fun _ ↦ ⟨ps, hp, hvault⟩

/-- The two runs go on side by side to the end of the script. -/
theorem alongside_of_insertion (hrun : Chain.run rt (originals script) = .ok final)
    (h : Insertion rt p vault script) (part : List Entry) (hpart : part <+: script) :
    ∃ s t, Alongside rt p vault part s t := by
  induction part using List.reverseRecOn with
  | nil => exact ⟨genesis, genesis, Alongside.start⟩
  | append_singleton part entry ih =>
      obtain ⟨s, t, halong⟩ := ih ((List.prefix_append part [entry]).trans hpart)
      cases entry with
      | original input =>
          have horiginals : originals part ++ [input] <+: originals script := by
            rw [← originals_snoc_original]
            exact hpart.filterMap Entry.asOriginal
          obtain ⟨s', -, hstep⟩ := Execution.step_of_isPrefix horiginals hrun halong.original
          obtain ⟨t', hnext⟩ := halong.proceed hstep (h.spared part input s t hpart
            halong.original halong.modified)
          exact ⟨s', t', hnext⟩
      | inserted donation =>
          obtain ⟨ps, hp, hvault⟩ := h.into part donation s hpart halong.original
          obtain ⟨t', hstep⟩ := h.accepted part donation t hpart halong.modified
          exact ⟨s, t', halong.insert hp hvault hstep⟩

/-- With direct transfers into the vault inserted anywhere, every input of the run is accepted as
before. After every entry the escrow's accounts, its events and the registry are the same, the vault
holds more by exactly what it was sent, and every other account less by what it sent. -/
theorem donations_do_not_price (hrun : Chain.run rt (originals script) = .ok final)
    (hinsertion : Insertion rt p vault script) :
    ∀ part, part <+: script →
      ∃ s t, Chain.run rt (originals part) = .ok s ∧ Chain.run rt (modified vault part) = .ok t ∧
        t.pools = s.pools ∧ t.events = s.events ∧ t.registry = s.registry ∧
        t.tokens.mints = s.tokens.mints ∧
        t.tokens.balance vault = s.tokens.balance vault + donated part ∧
        ∀ account, account ≠ vault →
          t.tokens.balance account + sentBy part account = s.tokens.balance account := by
  intro part hpart
  obtain ⟨s, t, halong⟩ := alongside_of_insertion hrun hinsertion part hpart
  have hparallel := halong.parallel
  refine ⟨s, t, halong.original, halong.modified, hparallel.pools, hparallel.events,
    hparallel.registry, hparallel.tokens.mints, ?_, ?_⟩
  · have hbalance := hparallel.tokens.balance vault
    rwa [halong.unsent, Pi.single_eq_same, add_zero] at hbalance
  · intro account hne
    have hbalance := hparallel.tokens.balance account
    rwa [Pi.single_eq_of_ne hne, add_zero] at hbalance

end Runs

theorem sentBy_originals (inputs : List Input) (account : Pubkey) :
    sentBy (inputs.map .original) account = 0 := by
  simp [sentBy, Entry.sentBy, Function.comp_def]

theorem not_hasSent_originals (inputs : List Input) (account : Pubkey) :
    ¬ HasSent (inputs.map .original) account := by
  simp [HasSent]

namespace Localnet

def firstDeposit : Input := plain t₀ (.pool (.deposit liquidityAccounts 1000000000))

/-- The provider sends some of its 2000 USDC to the vault of the empty pool. -/
def gift (amount : UInt64) : Donation := ⟨⟨t₀, ⟨[], 0⟩⟩, lpUsdc, usdcMint, lp, amount, 6⟩

/-- It sends 5 USDC before it deposits 1000. -/
def giving : List Entry :=
  opening.dropLast.map .original ++ [.inserted (gift 5000000)] ++ [.original firstDeposit]

theorem giving_entry {part : List Entry} {entry : Entry} (h : part ++ [entry] <+: giving) :
    (part = opening.dropLast.map .original ++ [.inserted (gift 5000000)] ∧
      entry = .original firstDeposit) ∨
    (part = opening.dropLast.map .original ∧ entry = .inserted (gift 5000000)) ∨
    ∃ (before : List Input) (input : Input),
      part = before.map .original ∧ entry = .original input := by
  rw [giving, List.prefix_concat_iff, List.prefix_concat_iff, List.prefix_map_iff] at h
  obtain hlast | hgift | ⟨inputs, -, hinputs⟩ := h
  · obtain ⟨rfl, hentry⟩ := List.append_inj' hlast rfl
    exact .inl ⟨rfl, List.singleton_injective hentry⟩
  · obtain ⟨rfl, hentry⟩ := List.append_inj' hgift rfl
    exact .inr (.inl ⟨rfl, List.singleton_injective hentry⟩)
  · obtain ⟨before, rest, -, hbefore, hrest⟩ := List.map_eq_append_iff.mp hinputs.symm
    obtain ⟨input, _, -, hentry, -⟩ := List.map_eq_cons_iff.mp hrest
    exact .inr (.inr ⟨before, input, hbefore.symm, hentry.symm⟩)

theorem giving_insertion : Insertion runtime pool usdcVault giving := by
  obtain ⟨s, ps, hrun, hp, htest⟩ := reaches_iff.mp
    (show reaches opening.dropLast (fun s ps ↦
      ps.pool.usdcVault = usdcVault ∧
      (Chain.step runtime ((gift 5000000).input usdcVault) s).isOk ∧
      1000000000 + 5000000 ≤ s.tokens.balance lpUsdc) = true by
      decide +kernel)
  obtain ⟨hvault, haccepted, hfunds⟩ := of_decide_eq_true htest
  obtain ⟨t, _, hgiven, -, hallowed⟩ := reaches_iff.mp
    (show reaches (opening.dropLast ++ [(gift 5000000).input usdcVault]) (fun t _ ↦
      t.tokens.Allows lpUsdc lp 1000000000) = true by
      decide +kernel)
  have horiginals : originals (opening.dropLast.map .original) = opening.dropLast := rfl
  have hmodified : modified usdcVault (opening.dropLast.map .original) = opening.dropLast := rfl
  constructor
  case into =>
    intro part donation s' hpart hs'
    obtain hlast | ⟨rfl, -⟩ | ⟨_, _, -, hentry⟩ := giving_entry hpart
    · cases hlast.2
    · rw [horiginals, hrun] at hs'
      obtain rfl := Except.ok.inj hs'
      exact ⟨ps, hp, hvault⟩
    · cases hentry
  case accepted =>
    intro part donation t hpart ht
    obtain hlast | ⟨rfl, hentry⟩ | ⟨_, _, -, hentry⟩ := giving_entry hpart
    · cases hlast.2
    · rw [hmodified, hrun] at ht
      obtain rfl := Except.ok.inj ht
      obtain rfl : donation = gift 5000000 := by simpa using hentry
      cases hstep : Chain.step runtime ((gift 5000000).input usdcVault) s with
      | ok t' => exact ⟨t', rfl⟩
      | error _ =>
          rw [hstep] at haccepted
          cases haccepted
    · cases hentry
  case spared =>
    intro part input s' t' hpart hs' ht' account authority amount hdrawn hsent
    obtain ⟨rfl, hentry⟩ | ⟨-, hentry⟩ | ⟨before, _, rfl, -⟩ := giving_entry hpart
    · rw [originals_snoc_inserted, horiginals, hrun] at hs'
      obtain rfl := Except.ok.inj hs'
      rw [modified_snoc, hmodified] at ht'
      obtain rfl := Except.ok.inj (hgiven.symm.trans ht')
      obtain rfl : input = firstDeposit := by simpa using hentry
      simp only [Chain.drawn, firstDeposit, plain, PoolInstruction.pool, PoolInstruction.drawn,
        liquidityAccounts, hp, Option.bind_eq_bind, Option.bind_some,
        Option.bind_eq_some_iff, Option.ite_none_right_eq_some, Option.some_inj,
        Prod.mk.injEq] at hdrawn
      obtain ⟨_, ⟨rfl, rfl⟩, rfl, rfl⟩ := hdrawn
      refine ⟨?_, of_decide_eq_true hallowed⟩
      rw [sentBy_snoc_inserted, Pi.add_apply, sentBy_originals, zero_add]
      exact hfunds
    · cases hentry
    · exact absurd hsent (not_hasSent_originals before account)

end Localnet

/-- The provider's deposit buys as many shares as without the gift. -/
theorem donations_do_not_price_localnet : ∃ s t,
    Chain.run Localnet.runtime Localnet.opening = .ok s ∧
    Chain.run Localnet.runtime (modified Localnet.usdcVault Localnet.giving) = .ok t ∧
    t.pools = s.pools ∧ t.events = s.events ∧
    t.tokens.balance Localnet.usdcVault = s.tokens.balance Localnet.usdcVault + 5000000 ∧
    t.tokens.balance Localnet.lpUsdc + 5000000 = s.tokens.balance Localnet.lpUsdc := by
  obtain ⟨final, -, hrun, -⟩ := Localnet.reaches_iff.mp
    (show Localnet.reaches Localnet.opening (fun _ _ ↦ true) = true by decide +kernel)
  have hopening : Chain.run Localnet.runtime (originals Localnet.giving) = .ok final := hrun
  obtain ⟨s, t, horiginal, hmodified, hpools, hevents, -, -, hvault, hothers⟩ :=
    donations_do_not_price hopening Localnet.giving_insertion Localnet.giving (List.prefix_refl _)
  exact ⟨s, t, horiginal, hmodified, hpools, hevents, hvault,
    hothers Localnet.lpUsdc (by decide)⟩

/-- A provider that sent most of its funds to the vault cannot make the deposit that it makes in the
run without the transfer. -/
theorem donor_cannot_deposit : ∃ s s' t,
    Chain.run Localnet.runtime Localnet.opening.dropLast = .ok s ∧
    Chain.step Localnet.runtime Localnet.firstDeposit s = .ok s' ∧
    Chain.step Localnet.runtime ((Localnet.gift 1500000000).input Localnet.usdcVault) s = .ok t ∧
    Chain.step Localnet.runtime Localnet.firstDeposit t =
      .error (.token .insufficientFunds) := by
  obtain ⟨t, _, hgiven, -, htest⟩ := Localnet.reaches_iff.mp
    (show Localnet.reaches
      (Localnet.opening.dropLast ++ [(Localnet.gift 1500000000).input Localnet.usdcVault])
      (fun t _ ↦ Localnet.rejects t Localnet.firstDeposit (.token .insufficientFunds)) = true by
      decide +kernel)
  obtain ⟨s', _, hopened, -⟩ := Localnet.reaches_iff.mp
    (show Localnet.reaches (Localnet.opening.dropLast ++ [Localnet.firstDeposit])
      (fun _ _ ↦ true) = true by decide +kernel)
  obtain ⟨s, hrun, hgift⟩ := Execution.run_snoc.mp hgiven
  obtain ⟨before, hbefore, hdeposit⟩ := Execution.run_snoc.mp hopened
  obtain rfl : s = before := Except.ok.inj (hrun.symm.trans hbefore)
  exact ⟨s, s', t, hrun, hdeposit, hgift, Localnet.rejects_iff.mp htest⟩

end CredMesh
