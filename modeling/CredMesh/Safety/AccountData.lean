import CredMesh.Chain.Localnet
import CredMesh.Chain.Memory

/-!
# What is read from an account

A buffer is read as the account of at most one type, and every account fits into the room it was
created with. So the memory of the two programs always holds the accounts of the model, and a read
across programs that checks the owner, the address and the type yields a key of the whitelist or
nothing.
-/

namespace CredMesh

open Outcome Escrow Registry

/-- A buffer has one type and one reading. -/
theorem AccountKind.data_unique {buf : List UInt8} {kind kind' : AccountKind}
    {contents : kind.Contents} {contents' : kind'.Contents}
    (h : kind.type.data contents <+: buf) (h' : kind'.type.data contents' <+: buf) :
    (⟨kind, contents⟩ : Σ kind : AccountKind, kind.Contents) = ⟨kind', contents'⟩ := by
  obtain ⟨rest, hrest⟩ := h
  obtain ⟨rest', hrest'⟩ := h'
  have hsame := hrest.trans hrest'.symm
  simp only [AccountType.data, List.append_assoc] at hsame
  obtain ⟨htag, hfields⟩ := List.append_inj hsame (by simp)
  obtain rfl := discriminator_injective (List.Vector.toList_injective htag)
  rw [(kind.type.codec.encode_append_inj.mp hfields).1]

/-- For the seven types of accounts of the two programs: a buffer is read as an account exactly if
it begins with the bytes of this account, as one of at most one type, and the bytes of every account
fit into the space that accounts of its type are created with. -/
theorem account_data_exact :
    (∀ (kind : AccountKind) contents buf, kind.type.tryDeserialize buf = .ok contents ↔
      kind.type.data contents <+: buf) ∧
    (∀ (kind kind' : AccountKind) contents contents' buf,
      kind.type.tryDeserialize buf = .ok contents →
      kind'.type.tryDeserialize buf = .ok contents' →
      (⟨kind, contents⟩ : Σ kind : AccountKind, kind.Contents) = ⟨kind', contents'⟩) ∧
    ∀ (kind : AccountKind) contents, (kind.type.data contents).length ≤ kind.space := by
  refine ⟨fun kind contents buf ↦ kind.type.tryDeserialize_eq_ok, ?_, ?_⟩
  · intro kind kind' contents contents' buf h h'
    exact AccountKind.data_unique (kind.type.tryDeserialize_eq_ok.mp h)
      (kind'.type.tryDeserialize_eq_ok.mp h')
  · intro kind contents
    rw [← kind.type_space]
    exact kind.type.length_data_le contents

section Run

variable {rt : Runtime} {trace : List Input} {s : Chain} {mem : Memory}

/-- No run ever fails to write an account. Whatever was overwritten before, the accounts of the
model are what is read from the buffers; a buffer keeps the size it was created with, is never read
as an account of another type, and its bytes stay as they are while its account does. -/
theorem memory_represents_run (hrun : Chain.run rt trace = .ok s) :
    (∃ mem, Memory.Run rt trace mem) ∧
    ∀ mem, Memory.Run rt trace mem → mem.Represents s ∧
      (∀ location buf (kind : AccountKind), mem location = some buf → kind ≠ location.kind →
        ∀ contents, kind.type.tryDeserialize buf ≠ .ok contents) ∧
      ∀ input s' mem' location, Chain.step rt input s = .ok s' → mem.Commits mem' s' →
        s'.accountAt location = s.accountAt location → mem' location = mem location := by
  refine ⟨Memory.exists_run hrun, fun mem hmem ↦ ?_⟩
  have hrepresents := Memory.represents_of_run hrun hmem
  refine ⟨hrepresents, ?_, fun input s' mem' location _ hcommits hsame ↦
    hrepresents.unchanged hcommits hsame⟩
  intro location buf kind hbuf hkind contents hread
  obtain ⟨stored, -, hstored⟩ := hrepresents.data hbuf
  have hsame := AccountKind.data_unique (kind.type.tryDeserialize_eq_ok.mp hread) hstored
  exact hkind (congrArg Sigma.fst hsame)

/-- The pool of localnet lies in 290 bytes, none of them of a proposal. -/
theorem memory_represents_run_localnet : ∃ s mem buf pool,
    Chain.run Localnet.runtime Localnet.opening = .ok s ∧
    Memory.Run Localnet.runtime Localnet.opening mem ∧ mem (.pool Localnet.pool) = some buf ∧
    buf.length = 290 ∧ AccountKind.pool.type.tryDeserialize buf = .ok pool ∧
    pool.pendingParams = none := by
  obtain ⟨s, ps, hrun, hp, htest⟩ := Localnet.reaches_iff.mp
    (show Localnet.reaches Localnet.opening (fun _ ps ↦ ps.pool.pendingParams = none) = true by
      decide +kernel)
  obtain ⟨⟨mem, hmem⟩, hall⟩ := memory_represents_run hrun
  obtain ⟨hrepresents, -, -⟩ := hall mem hmem
  have hstored : s.accountAt (.pool Localnet.pool) = some ps.pool := by
    rw [Chain.accountAt, hp, Option.map_some]
  obtain ⟨buf, hbuf, hdata⟩ := hrepresents.exists_buffer hstored
  exact ⟨s, mem, buf, ps.pool, hrun, hmem, hbuf, hrepresents.sized _ buf hbuf,
    (AccountType.tryDeserialize_eq_ok _).mpr hdata, of_decide_eq_true htest⟩

/-! ## Reading the whitelist by hand -/

/-- The address of an account of the registry. -/
def Location.registryAddress (rt : Runtime) : Location → Option Pubkey
  | attestorConfig => some rt.attestorConfigPda.1
  | allowedSigner signer => some (rt.allowedSignerPda signer).1
  | _ => none

/-- What the runtime vouches for: an account that the registry owns is one of its own, with the data
that the registry left in it. Accounts of other owners may hold anything. -/
def Memory.Presents (rt : Runtime) (mem : Memory) (info : AccountInfo) : Prop :=
  info.owner = ProgramIds.attestorRegistry →
    ∃ location, location.registryAddress rt = some info.key ∧ mem location = some info.data

/-- An account of the whitelist names the key that its address is derived from. -/
def Registry.RegistryState.Named (rt : Runtime) (r : RegistryState) : Prop :=
  ∀ key allowed, r.allowedSigners.lookup key = some allowed →
    allowed.signer = key ∧ allowed.bump = (rt.allowedSignerPda key).2

theorem Chain.run_named (hrun : Chain.run rt trace = .ok s) : s.registry.Named rt := by
  refine Execution.run_invariant (motive := fun s : Chain ↦ s.registry.Named rt)
    (fun key allowed h ↦ by cases h) ?_ hrun
  intro s input s' ih hstep key allowed hlookup
  cases step_cases hstep with
  | initPool _ _ _ => exact ih key allowed hlookup
  | pool _ _ _ _ => exact ih key allowed hlookup
  | token _ _ _ => exact ih key allowed hlookup
  | registry _ heffect =>
      cases handler_change heffect with
      | init _ _ => exact ih key allowed hlookup
      | setGovernance _ _ _ => exact ih key allowed hlookup
      | add _ _ _ =>
          rw [AccountMap.lookup_insert_eq] at hlookup
          split at hlookup
          case isTrue hkey =>
            obtain rfl := Option.some.inj hlookup
            exact ⟨hkey.symm, by rw [hkey]⟩
          case isFalse => exact ih key allowed hlookup
      | remove _ _ _ =>
          rw [AccountMap.lookup_erase_eq] at hlookup
          split at hlookup
          case isTrue => cases hlookup
          case isFalse => exact ih key allowed hlookup

/-- At every point of a run, whatever account a caller presents: the read by hand accepts it for the
address of a key exactly if it is the account of the registry at this address, not borrowed, and
then yields a whitelist entry that the escrow loads for the key that the entry names. An account of
another owner, another address or another type is refused, whatever bytes it holds. -/
theorem cross_program_read_exact (hrun : Chain.run rt trace = .ok s)
    (hmem : Memory.Run rt trace mem) {info : AccountInfo} (hinfo : mem.Presents rt info)
    (key : Pubkey) (allowed : AllowedSigner) :
    readCrossProgramAccount AccountKind.allowedSigner.type info ProgramIds.attestorRegistry
        (rt.allowedSignerPda key).1 = .ok allowed ↔
      info.owner = ProgramIds.attestorRegistry ∧ info.key = (rt.allowedSignerPda key).1 ∧
      info.mutablyBorrowed = false ∧ mem (.allowedSigner allowed.signer) = some info.data ∧
      (rt.allowedSignerPda allowed.signer).1 = (rt.allowedSignerPda key).1 ∧
      loadAllowedSigner rt allowed.signer s.registry = .ok allowed := by
  have hrepresents := Memory.represents_of_run hrun hmem
  rw [readCrossProgramAccount_eq_ok]
  constructor
  · rintro ⟨howner, hkey, hborrowed, hdata⟩
    obtain ⟨location, haddress, hbuf⟩ := hinfo howner
    obtain ⟨contents, hcontents, hstored⟩ := hrepresents.data hbuf
    have hsame := AccountKind.data_unique hdata hstored
    cases location with
    | allowedSigner signer =>
        obtain rfl : allowed = contents := by simpa using hsame
        obtain ⟨hsigner, hbump⟩ := Chain.run_named hrun signer allowed hcontents
        rw [hsigner]
        exact ⟨howner, hkey, hborrowed, hbuf, (Option.some.inj haddress).trans hkey,
          loadAllowedSigner_eq_ok.mpr ⟨hcontents, hsigner, hbump⟩⟩
    | _ => cases congrArg Sigma.fst hsame
  · rintro ⟨howner, hkey, hborrowed, hbuf, -, hload⟩
    obtain ⟨contents, hcontents, hstored⟩ := hrepresents.data hbuf
    obtain rfl : allowed = contents :=
      Option.some.inj ((loadAllowedSigner_eq_ok.mp hload).1.symm.trans hcontents)
    exact ⟨howner, hkey, hborrowed, hstored⟩

/-- On localnet the account of the bridge is read as its whitelist entry. -/
theorem cross_program_read_exact_localnet : ∃ s mem info allowed,
    Chain.run Localnet.runtime Localnet.opening = .ok s ∧
    Memory.Run Localnet.runtime Localnet.opening mem ∧ mem.Presents Localnet.runtime info ∧
    readCrossProgramAccount AccountKind.allowedSigner.type info ProgramIds.attestorRegistry
      (Localnet.runtime.allowedSignerPda Localnet.bridge).1 = .ok allowed := by
  obtain ⟨s, ps, hrun, -, htest⟩ := Localnet.reaches_iff.mp
    (show Localnet.reaches Localnet.opening (fun s _ ↦
      (s.registry.allowedSigners.lookup Localnet.bridge).isSome) = true by decide +kernel)
  obtain ⟨allowed, hallowed⟩ := Option.isSome_iff_exists.mp htest
  obtain ⟨mem, hmem⟩ := Memory.exists_run hrun
  obtain ⟨hsigner, hbump⟩ := Chain.run_named hrun _ allowed hallowed
  have hstored : s.accountAt (.allowedSigner Localnet.bridge) = some allowed := hallowed
  obtain ⟨buf, hbuf, -⟩ := (Memory.represents_of_run hrun hmem).exists_buffer hstored
  let info : AccountInfo := ⟨(Localnet.runtime.allowedSignerPda Localnet.bridge).1,
    ProgramIds.attestorRegistry, buf, false⟩
  have hinfo : mem.Presents Localnet.runtime info :=
    fun _ ↦ ⟨.allowedSigner Localnet.bridge, rfl, hbuf⟩
  refine ⟨s, mem, info, allowed, hrun, hmem, hinfo,
    (cross_program_read_exact hrun hmem hinfo Localnet.bridge allowed).mpr ?_⟩
  rw [hsigner]
  exact ⟨rfl, rfl, rfl, hbuf, rfl, loadAllowedSigner_eq_ok.mpr ⟨hallowed, hsigner, hbump⟩⟩

end Run

end CredMesh
