import CredMesh.Spl.TokenFlow

/-!
# Rights to accounts and mints

An account that nobody but its owner has rights to, and a mint that nobody but its authority has
rights to, stay so whatever instructions others send. Delegations, transfers of authority, closed
and frozen accounts move no tokens.
-/

namespace CredMesh.Spl

open Outcome AccountMap

namespace TokenLedger

/-- An account that its owner alone can draw on, hand over or close. -/
def HeldAlone (t : TokenLedger) (address mint owner : Pubkey) : Prop :=
  ∃ account, t.accounts.lookup address = some account ∧ account.mint = mint ∧
    account.owner = owner ∧ account.delegate = none ∧ account.closeAuthority = none

/-- An account without a delegate. -/
def Undelegated (t : TokenLedger) (address mint owner : Pubkey) : Prop :=
  ∃ account, t.accounts.lookup address = some account ∧ account.mint = mint ∧
    account.owner = owner ∧ account.delegate = none

/-- A mint of which the authority alone can make tokens and freeze accounts, and has frozen none. -/
structure IssuedAlone (t : TokenLedger) (mint authority : Pubkey) : Prop where
  found : ∃ mintState, t.mints.lookup mint = some mintState ∧
    mintState.authority = some authority ∧ mintState.freezeAuthority = some authority
  thawed : ∀ address account, t.accounts.lookup address = some account → account.mint = mint →
    account.isFrozen = false

variable {t : TokenLedger} {address mint owner authority : Pubkey}

theorem Undelegated.isAccount (h : t.Undelegated address mint owner) :
    t.IsAccount address mint owner := by
  obtain ⟨account, hfound, hmint, howner, -⟩ := h
  exact ⟨account, hfound, hmint, howner⟩

/-- The owner may take any amount. -/
theorem Undelegated.allows (h : t.Undelegated address mint owner) (amount : ℕ) :
    t.Allows address owner amount := by
  obtain ⟨account, hfound, -, howner, hdelegate⟩ := h
  refine ⟨account, hfound, ?_⟩
  rw [TokenAccount.Allows, hdelegate, if_neg (Option.some_ne_none owner).symm]
  exact howner

theorem HeldAlone.undelegated (h : t.HeldAlone address mint owner) :
    t.Undelegated address mint owner := by
  obtain ⟨account, hfound, hmint, howner, hdelegate, -⟩ := h
  exact ⟨account, hfound, hmint, howner, hdelegate⟩

theorem HeldAlone.isAccount (h : t.HeldAlone address mint owner) :
    t.IsAccount address mint owner :=
  h.undelegated.isAccount

theorem HeldAlone.allows (h : t.HeldAlone address mint owner) (amount : ℕ) :
    t.Allows address owner amount :=
  h.undelegated.allows amount

/-- Nobody else takes anything from it. -/
theorem HeldAlone.ne_of_drawReady {source other : Pubkey} {amount : UInt64}
    (h : t.HeldAlone address mint owner) (hready : DrawReady t source other authority amount)
    (hne : authority ≠ owner) : source ≠ address := by
  rintro rfl
  obtain ⟨account, hfound, -, howner, hdelegate, -⟩ := h
  obtain hsame | hdelegated := ((allows_iff hfound).mp hready.allowed).owner_or_delegate
  · exact hne (hsame.symm.trans howner)
  · rw [hdelegate] at hdelegated
    cases hdelegated

theorem IssuedAlone.isMint (h : t.IssuedAlone mint authority) : t.IsMint mint authority := by
  obtain ⟨mintState, hfound, hauthority, -⟩ := h.found
  exact ⟨mintState, hfound, hauthority⟩

theorem IssuedAlone.not_isFrozen (h : t.IssuedAlone mint authority)
    (haccount : t.IsAccount address mint owner) : ¬ t.IsFrozen address := by
  obtain ⟨account, hfound, hmint, -⟩ := haccount
  rw [not_isFrozen_iff hfound]
  exact h.thawed address account hfound hmint

end TokenLedger

theorem Persists.undelegated {t t' : TokenLedger} {address mint owner : Pubkey}
    (h : Persists t t') (hundelegated : t.Undelegated address mint owner) :
    t'.Undelegated address mint owner := by
  obtain ⟨account, hfound, rfl, rfl, hdelegate⟩ := hundelegated
  obtain ⟨account', hfound', hkeeps⟩ := h.kept address account hfound
  exact ⟨account', hfound', hkeeps.mint, hkeeps.owner, hkeeps.undelegated hdelegate⟩

theorem Persists.heldAlone {t t' : TokenLedger} {address mint owner : Pubkey} (h : Persists t t')
    (hheld : t.HeldAlone address mint owner) : t'.HeldAlone address mint owner := by
  obtain ⟨account, hfound, hmint, howner, hdelegate, hclose⟩ := hheld
  obtain ⟨account', hfound', hkeeps⟩ := h.kept address account hfound
  exact ⟨account', hfound', hkeeps.mint.trans hmint, hkeeps.owner.trans howner,
    hkeeps.undelegated hdelegate, hkeeps.closeAuthority.trans hclose⟩

theorem Persists.issuedAlone {t t' : TokenLedger} {mint authority : Pubkey} (h : Persists t t')
    (hissued : t.IssuedAlone mint authority) : t'.IssuedAlone mint authority := by
  constructor
  case found =>
    obtain ⟨mintState, hfound, hauthority, hfreeze⟩ := hissued.found
    obtain ⟨supply, hfound'⟩ := h.supplied mint mintState hfound
    exact ⟨{ mintState with supply }, hfound', hauthority, hfreeze⟩
  case thawed =>
    intro address account' hfound' hmint'
    cases hfound : t.accounts.lookup address with
    | none => exact (h.opened address account' hfound hfound').1
    | some account =>
        obtain ⟨_, hsame, hkeeps⟩ := h.kept address account hfound
        obtain rfl := Option.some.inj (hfound'.symm.trans hsame)
        rw [hkeeps.isFrozen]
        exact hissued.thawed address account hfound (hkeeps.mint.symm.trans hmint')

/-- What a key holds alone stays as it is, whoever else acts. -/
structure Respects (key : Pubkey) (t t' : TokenLedger) : Prop where
  heldAlone : ∀ address mint, t.HeldAlone address mint key → t'.HeldAlone address mint key
  issuedAlone : ∀ mint, t.IssuedAlone mint key → t'.IssuedAlone mint key

theorem Persists.respects {t t' : TokenLedger} (h : Persists t t') (key : Pubkey) :
    Respects key t t' :=
  ⟨fun _ _ ↦ h.heldAlone, fun _ ↦ h.issuedAlone⟩

section Rights

variable {t t' : TokenLedger} {address mint owner authority key : Pubkey}
  {account account' : TokenAccount}

/-- A change of rights that an authority signs for. It moves nothing and respects every other key.
Accounts survive but for the one that is closed. -/
structure Regrants (authority : Pubkey) (closed : Option Pubkey) (t t' : TokenLedger) : Prop where
  moves : Moves t t' 0 0 0 0
  minted : Minted t → Minted t'
  respects : ∀ key, authority ≠ key → Respects key t t'
  accounts : ∀ address, t'.accounts.lookup address = none →
    t.accounts.lookup address = none ∨ closed = some address
  mints : ∀ mint, t'.mints.lookup mint = none → t.mints.lookup mint = none

theorem regrants_setAccount (hfound : t.accounts.lookup address = some account)
    (hmint : account'.mint = account.mint) (hamount : account'.amount = account.amount)
    (hheld : ∀ key, authority ≠ key → account.owner = key → account.delegate = none →
      account.closeAuthority = none →
      account'.owner = key ∧ account'.delegate = none ∧ account'.closeAuthority = none)
    (hthawed : ∀ key, authority ≠ key → t.IssuedAlone account.mint key →
      account'.isFrozen = false) :
    Regrants authority none t (t.setAccount address account') := by
  constructor
  case moves =>
    refine ⟨fun other ↦ ?_, fun _ ↦ rfl, fun m ↦ ?_⟩
    · rw [TokenLedger.balance_setAccount]
      split
      case isTrue heq => rw [heq, hamount, TokenLedger.balance_of_lookup hfound]
      case isFalse => rfl
    · have hholdings := TokenLedger.holdings_setAccount hfound hmint m
      rw [hamount] at hholdings
      simp only [Pi.zero_apply]
      omega
  case minted =>
    intro hminted other found hlookup
    rw [TokenLedger.setAccount, lookup_insert_eq] at hlookup
    split at hlookup
    · obtain rfl := Option.some.inj hlookup
      rw [hmint]
      exact hminted address account hfound
    · exact hminted other found hlookup
  case respects =>
    intro key hne
    constructor
    · rintro other mint ⟨held, hlookup, rfl, howner, hdelegate, hclose⟩
      by_cases heq : other = address
      · subst heq
        obtain rfl := Option.some.inj (hfound.symm.trans hlookup)
        exact ⟨account', Finmap.lookup_insert _, hmint, hheld key hne howner hdelegate hclose⟩
      · exact ⟨held, by simp [TokenLedger.setAccount, heq, hlookup], rfl, howner, hdelegate,
          hclose⟩
    · intro mint hissued
      refine ⟨hissued.found, fun other found hlookup hmint' ↦ ?_⟩
      rw [TokenLedger.setAccount, lookup_insert_eq] at hlookup
      split at hlookup
      · obtain rfl := Option.some.inj hlookup
        rw [hmint] at hmint'
        exact hthawed key hne (hmint' ▸ hissued)
      · exact hissued.thawed other found hlookup hmint'
  case accounts =>
    intro other hnone
    rw [TokenLedger.setAccount, lookup_insert_eq] at hnone
    split at hnone
    · cases hnone
    · exact .inl hnone
  case mints => exact fun _ ↦ id

theorem asOwner_regrants {change : TokenAccount → TokenAccount}
    (h : asOwner address owner change t = .ok t')
    (hmint : ∀ account, (change account).mint = account.mint)
    (hamount : ∀ account, (change account).amount = account.amount)
    (hfrozen : ∀ account, (change account).isFrozen = account.isFrozen) :
    Regrants owner none t t' := by
  simp only [asOwner, TokenLedger.account, bind_eq_ok, okOr_eq_ok, require_eq_ok, pure_eq_ok] at h
  obtain ⟨account, hfound, -, hthawed, -, howner, rfl⟩ := h
  refine regrants_setAccount hfound (hmint account) (hamount account) (fun key hne hkey ↦ ?_)
    fun _ _ _ ↦ ?_
  · exact absurd (howner.symm.trans hkey) hne
  · rw [hfrozen, hthawed]

theorem approve_regrants {delegate : Pubkey} {amount : UInt64}
    (h : approve address delegate owner amount t = .ok t') : Regrants owner none t t' :=
  asOwner_regrants h (fun _ ↦ rfl) (fun _ ↦ rfl) fun _ ↦ rfl

theorem revoke_regrants (h : revoke address owner t = .ok t') : Regrants owner none t t' :=
  asOwner_regrants h (fun _ ↦ rfl) (fun _ ↦ rfl) fun _ ↦ rfl

/-- The owner can take back a delegation, which moves nothing. -/
theorem exists_revoke (haccount : t.IsAccount address mint owner) (hthawed : ¬ t.IsFrozen address) :
    ∃ t', revoke address owner t = .ok t' ∧ t'.Undelegated address mint owner ∧
      Flow t t' 0 0 0 0 ∧ t'.mints = t.mints := by
  obtain ⟨account, hfound, hmint, howner⟩ := haccount
  let account' : TokenAccount := { account with delegate := none, delegatedAmount := 0 }
  have hrevoke : revoke address owner t = .ok (t.setAccount address account') := by
    simp only [revoke, asOwner, TokenLedger.account, bind_eq_ok, okOr_eq_ok, require_eq_ok,
      pure_eq_ok]
    exact ⟨account, hfound, (), (not_isFrozen_iff hfound).mp hthawed, (), howner, rfl⟩
  have hpersists : Persists t (t.setAccount address account') :=
    TokenLedger.persists_setAccount hfound ⟨rfl, rfl, rfl, rfl, fun _ ↦ rfl⟩
  exact ⟨_, hrevoke, ⟨account', Finmap.lookup_insert _, hmint, howner, rfl⟩,
    ⟨(revoke_regrants hrevoke).moves, hpersists⟩, rfl⟩

theorem setAccountAuthority_regrants {authorityType : AuthorityType} {newAuthority : Option Pubkey}
    (hfound : t.accounts.lookup address = some account)
    (h : setAccountAuthority authorityType authority newAuthority account = .ok account') :
    Regrants authority none t (t.setAccount address account') := by
  simp only [setAccountAuthority, bind_eq_ok, require_eq_ok] at h
  obtain ⟨-, hthawed, h⟩ := h
  cases authorityType with
  | accountOwner =>
      simp only [bind_eq_ok, require_eq_ok, pure_eq_ok] at h
      obtain ⟨-, howner, _, -, rfl⟩ := h
      exact regrants_setAccount hfound rfl rfl
        (fun key hne hkey ↦ absurd (howner.symm.trans hkey) hne) fun _ _ _ ↦ hthawed
  | closeAccount =>
      simp only [bind_eq_ok, require_eq_ok, pure_eq_ok] at h
      obtain ⟨-, hclose, rfl⟩ := h
      refine regrants_setAccount hfound rfl rfl (fun key hne hkey _ hnone ↦ ?_) fun _ _ _ ↦ hthawed
      rw [hnone, Option.getD_none] at hclose
      exact absurd (hclose.symm.trans hkey) hne
  | mintTokens => cases h
  | freezeAccount => cases h

theorem setMintAuthority_regrants {authorityType : AuthorityType} {newAuthority : Option Pubkey}
    {mintState mintState' : Mint} (hfound : t.mints.lookup mint = some mintState)
    (h : setMintAuthority authorityType authority newAuthority mintState = .ok mintState') :
    Regrants authority none t (t.setMint mint mintState') := by
  obtain ⟨hsupply, hrights⟩ : mintState'.supply = mintState.supply ∧
      (mintState.authority = some authority ∨ mintState.freezeAuthority = some authority) := by
    cases authorityType with
    | mintTokens =>
        simp only [setMintAuthority, bind_eq_ok, okOr_eq_ok, require_eq_ok, pure_eq_ok] at h
        obtain ⟨_, hauthority, -, rfl, rfl⟩ := h
        exact ⟨rfl, .inl hauthority⟩
    | freezeAccount =>
        simp only [setMintAuthority, bind_eq_ok, okOr_eq_ok, require_eq_ok, pure_eq_ok] at h
        obtain ⟨_, hfreeze, -, rfl, rfl⟩ := h
        exact ⟨rfl, .inr hfreeze⟩
    | accountOwner => cases h
    | closeAccount => cases h
  constructor
  case moves =>
    refine ⟨fun _ ↦ rfl, fun other ↦ ?_, fun _ ↦ rfl⟩
    by_cases heq : other = mint
    · subst heq
      simp [TokenLedger.supply, TokenLedger.setMint, hfound, hsupply]
    · simp [TokenLedger.supply, TokenLedger.setMint, heq]
  case minted =>
    intro hminted address account haccount
    obtain ⟨found, hlookup⟩ := hminted address account haccount
    rw [TokenLedger.setMint, lookup_insert_eq]
    split
    · exact ⟨mintState', rfl⟩
    · exact ⟨found, hlookup⟩
  case respects =>
    intro key hne
    refine ⟨fun _ _ hheld ↦ hheld, fun other hissued ↦ ⟨?_, hissued.thawed⟩⟩
    obtain ⟨found, hlookup, hauthority, hfreeze⟩ := hissued.found
    have hother : other ≠ mint := by
      rintro rfl
      obtain rfl := Option.some.inj (hfound.symm.trans hlookup)
      obtain hsame | hsame := hrights
      · exact hne (Option.some.inj (hsame.symm.trans hauthority))
      · exact hne (Option.some.inj (hsame.symm.trans hfreeze))
    exact ⟨found, by rw [TokenLedger.setMint, lookup_insert_eq, if_neg hother, hlookup],
      hauthority, hfreeze⟩
  case accounts => exact fun _ hnone ↦ .inl hnone
  case mints =>
    intro other hnone
    rw [TokenLedger.setMint, lookup_insert_eq] at hnone
    split at hnone
    · cases hnone
    · exact hnone

theorem setAuthority_regrants {authorityType : AuthorityType} {newAuthority : Option Pubkey}
    (h : setAuthority address authorityType authority newAuthority t = .ok t') :
    Regrants authority none t t' := by
  unfold setAuthority at h
  split at h
  case h_1 account hfound =>
    simp only [bind_eq_ok, pure_eq_ok] at h
    obtain ⟨account', hset, rfl⟩ := h
    exact setAccountAuthority_regrants hfound hset
  case h_2 =>
    simp only [TokenLedger.mint, bind_eq_ok, okOr_eq_ok, pure_eq_ok] at h
    obtain ⟨mintState, hfound, mintState', hset, rfl⟩ := h
    exact setMintAuthority_regrants hfound hset

/-- Only an empty account is closed. -/
theorem closeAccount_regrants (h : closeAccount address authority t = .ok t') :
    t'.accounts = t.accounts.erase address ∧ Regrants authority (some address) t t' := by
  simp only [closeAccount, TokenLedger.account, bind_eq_ok, okOr_eq_ok, require_eq_ok,
    pure_eq_ok] at h
  obtain ⟨account, hfound, -, hempty, -, hclose, rfl⟩ := h
  refine ⟨rfl, ?_⟩
  constructor
  case moves =>
    refine ⟨fun other ↦ ?_, fun _ ↦ rfl, fun m ↦ ?_⟩
    · simp only [Pi.zero_apply, add_zero]
      by_cases heq : other = address
      · subst heq
        rw [TokenLedger.balance_of_lookup hfound, hempty]
        simp [TokenLedger.balance]
      · simp [TokenLedger.balance, heq]
    · have htotal := total_erase
        (fun _ (account : TokenAccount) ↦ if account.mint = m then account.amount.toNat else 0)
        hfound
      simp only [hempty, UInt64.toNat_zero, ite_self, add_zero] at htotal
      simp only [Pi.zero_apply, add_zero]
      exact htotal
  case minted =>
    intro hminted other found hlookup
    rw [lookup_erase_eq] at hlookup
    split at hlookup
    · cases hlookup
    · exact hminted other found hlookup
  case respects =>
    intro key hne
    constructor
    · rintro other mint ⟨held, hlookup, rfl, howner, hdelegate, hnone⟩
      have hother : other ≠ address := by
        rintro rfl
        obtain rfl := Option.some.inj (hfound.symm.trans hlookup)
        rw [hnone, Option.getD_none] at hclose
        exact hne (hclose.symm.trans howner)
      exact ⟨held, by rw [lookup_erase_eq, if_neg hother, hlookup], rfl, howner, hdelegate, hnone⟩
    · intro mint hissued
      refine ⟨hissued.found, fun other found hlookup hmint ↦ ?_⟩
      rw [lookup_erase_eq] at hlookup
      split at hlookup
      · cases hlookup
      · exact hissued.thawed other found hlookup hmint
  case accounts =>
    intro other hnone
    rw [lookup_erase_eq] at hnone
    split at hnone
    case isTrue heq => exact .inr (congrArg some heq.symm)
    case isFalse => exact .inl hnone
  case mints => exact fun _ ↦ id

theorem toggleFreezeAccount_regrants {freeze : Bool}
    (h : toggleFreezeAccount freeze address mint authority t = .ok t') :
    Regrants authority none t t' := by
  simp only [toggleFreezeAccount, TokenLedger.account, TokenLedger.mint, bind_eq_ok, okOr_eq_ok,
    require_eq_ok, pure_eq_ok] at h
  obtain ⟨account, hfound, -, -, -, rfl, mintState, hmint, _, hfreeze, -, rfl, rfl⟩ := h
  refine regrants_setAccount hfound rfl rfl
    (fun _ _ howner hdelegate hclose ↦ ⟨howner, hdelegate, hclose⟩) fun key hne hissued ↦ ?_
  obtain ⟨_, hsame, -, hkey⟩ := hissued.found
  obtain rfl := Option.some.inj (hmint.symm.trans hsame)
  exact absurd (Option.some.inj (hfreeze.symm.trans hkey)) hne

end Rights

end CredMesh.Spl
