import CredMesh.Chain.System
import CredMesh.Escrow.AccountCodec

/-!
# The chain in memory

The runtime keeps no structures, only buffers. A buffer is allocated when an account is created, and
every instruction that changes the account writes over its beginning, so that remains of longer
contents may stay behind. The chain of the model is what Anchor reads from these buffers.
-/

namespace CredMesh

open Escrow Registry

/-- The places at which the two programs keep accounts, named by what their addresses are derived
from. -/
inductive Location
  | pool (address : Pubkey)
  | advance (seeds : AdvanceSeeds)
  | consumedPayment (seeds : AdvanceSeeds)
  | liquidationTombstone (seeds : AdvanceSeeds)
  | agentIssuanceLedger (seeds : LedgerSeeds)
  | attestorConfig
  | allowedSigner (signer : Pubkey)

abbrev Location.kind : Location → AccountKind
  | pool _ => .pool
  | advance _ => .advance
  | consumedPayment _ => .consumedPayment
  | liquidationTombstone _ => .liquidationTombstone
  | agentIssuanceLedger _ => .agentIssuanceLedger
  | attestorConfig => .attestorConfig
  | allowedSigner _ => .allowedSigner

/-- The account at a place, if there is one. -/
def Chain.accountAt (s : Chain) : (location : Location) → Option location.kind.Contents
  | .pool address => (s.pools.lookup address).map PoolState.pool
  | .advance seeds => (s.pools.lookup seeds.pool).bind (·.advances.lookup seeds.key)
  | .consumedPayment seeds => (s.pools.lookup seeds.pool).bind (·.consumed.lookup seeds.key)
  | .liquidationTombstone seeds =>
      (s.pools.lookup seeds.pool).bind (·.tombstones.lookup seeds.key)
  | .agentIssuanceLedger seeds => (s.pools.lookup seeds.pool).bind (·.ledgers.lookup seeds.agent)
  | .attestorConfig => s.registry.config
  | .allowedSigner signer => s.registry.allowedSigners.lookup signer

/-- The data of the accounts of the two programs. -/
abbrev Memory := Location → Option (List UInt8)

namespace Memory

/-- An account as it is created. -/
def blank (kind : AccountKind) : List UInt8 := List.replicate kind.space 0

/-- What an instruction leaves at a place: nothing if there is no account any more, and else the
account, written into its buffer. Writing an account that did not change changes nothing. -/
def CommitsAt (mem mem' : Memory) (s' : Chain) (location : Location) : Prop :=
  match s'.accountAt location with
  | none => mem' location = none
  | some contents => ∃ buf, mem' location = some buf ∧
      location.kind.type.trySerialize contents ((mem location).getD (blank location.kind)) =
        some buf

def Commits (mem mem' : Memory) (s' : Chain) : Prop := ∀ location, CommitsAt mem mem' s' location

/-- What is read from the memory are the accounts, and every buffer has the size of its type. -/
structure Represents (mem : Memory) (s : Chain) : Prop where
  reads : ∀ location, (mem location).map location.kind.type.tryDeserialize =
    (s.accountAt location).map .ok
  sized : ∀ location buf, mem location = some buf → buf.length = location.kind.space

/-- The memory along a run, from a chain without accounts. -/
inductive Run (rt : Runtime) : List Input → Memory → Prop
  | start : Run rt [] fun _ ↦ none
  | step {trace : List Input} {input : Input} {mem mem' : Memory} {s' : Chain}
      (hbefore : Run rt trace mem) (hrun : Chain.run rt (trace ++ [input]) = .ok s')
      (hcommits : mem.Commits mem' s') : Run rt (trace ++ [input]) mem'

variable {rt : Runtime} {trace : List Input} {mem mem' : Memory} {s s' : Chain}

theorem Represents.data (h : mem.Represents s) {location : Location} {buf : List UInt8}
    (hbuf : mem location = some buf) : ∃ contents, s.accountAt location = some contents ∧
      location.kind.type.data contents <+: buf := by
  have hreads := h.reads location
  rw [hbuf, Option.map_some, eq_comm, Option.map_eq_some_iff] at hreads
  obtain ⟨contents, hcontents, hread⟩ := hreads
  exact ⟨contents, hcontents, (location.kind.type.tryDeserialize_eq_ok).mp hread.symm⟩

theorem Represents.exists_buffer (h : mem.Represents s) {location : Location}
    {contents : location.kind.Contents} (hcontents : s.accountAt location = some contents) :
    ∃ buf, mem location = some buf ∧ location.kind.type.data contents <+: buf := by
  have hreads := h.reads location
  rw [hcontents, Option.map_some, Option.map_eq_some_iff] at hreads
  obtain ⟨buf, hbuf, hread⟩ := hreads
  exact ⟨buf, hbuf, (location.kind.type.tryDeserialize_eq_ok).mp hread⟩

theorem Represents.length_getD (h : mem.Represents s) (location : Location) :
    ((mem location).getD (blank location.kind)).length = location.kind.space := by
  cases hbuf : mem location with
  | none => exact List.length_replicate
  | some buf => exact h.sized location buf hbuf

theorem Represents.room (h : mem.Represents s) (location : Location) :
    location.kind.type.space ≤ ((mem location).getD (blank location.kind)).length := by
  rw [h.length_getD, location.kind.type_space]

/-- Whatever the next state of the chain is, it can be written. -/
theorem Represents.exists_commits (h : mem.Represents s) (s' : Chain) :
    ∃ mem', mem.Commits mem' s' := by
  have hplace : ∀ location, ∃ found, ∀ mem' : Memory, mem' location = found →
      CommitsAt mem mem' s' location := by
    intro location
    unfold CommitsAt
    cases s'.accountAt location with
    | none => exact ⟨none, fun mem' hfound ↦ hfound⟩
    | some contents =>
        obtain ⟨buf, hwritten, -, -⟩ :=
          location.kind.type.exists_trySerialize (h.room location) contents
        exact ⟨some buf, fun mem' hfound ↦ ⟨buf, hfound, hwritten⟩⟩
  choose found hfound using hplace
  exact ⟨found, fun location ↦ hfound location found rfl⟩

/-- What was written is read back. -/
theorem Represents.commit (h : mem.Represents s) (hcommits : mem.Commits mem' s') :
    mem'.Represents s' := by
  have hplace : ∀ location, (mem' location).map location.kind.type.tryDeserialize =
      (s'.accountAt location).map .ok ∧
      ∀ buf, mem' location = some buf → buf.length = location.kind.space := by
    intro location
    have hcommit := hcommits location
    unfold CommitsAt at hcommit
    cases hcontents : s'.accountAt location with
    | none =>
        rw [hcontents] at hcommit
        rw [hcommit]
        exact ⟨rfl, fun buf hbuf ↦ by cases hbuf⟩
    | some contents =>
        rw [hcontents] at hcommit
        obtain ⟨buf, hbuf, hwrite⟩ := hcommit
        obtain ⟨written, hwritten, hlength, hdata⟩ :=
          location.kind.type.exists_trySerialize (h.room location) contents
        obtain rfl : buf = written := Option.some.inj (hwrite.symm.trans hwritten)
        have hread := (location.kind.type.tryDeserialize_eq_ok).mpr hdata
        rw [hbuf, Option.map_some, Option.map_some, hread, h.length_getD] at *
        refine ⟨rfl, fun other hother ↦ ?_⟩
        rw [← Option.some.inj hother, hlength]
  exact ⟨fun location ↦ (hplace location).1, fun location ↦ (hplace location).2⟩

/-- Where the account did not change, neither did its buffer. -/
theorem Represents.unchanged (h : mem.Represents s) (hcommits : mem.Commits mem' s')
    {location : Location} (hsame : s'.accountAt location = s.accountAt location) :
    mem' location = mem location := by
  have hcommit := hcommits location
  unfold CommitsAt at hcommit
  rw [hsame] at hcommit
  cases hbuf : mem location with
  | none =>
      have hreads := h.reads location
      rw [hbuf, Option.map_none, eq_comm, Option.map_eq_none_iff] at hreads
      rw [hreads] at hcommit
      exact hcommit
  | some buf =>
      obtain ⟨contents, hcontents, rest, rfl⟩ := h.data hbuf
      rw [hcontents] at hcommit
      obtain ⟨written, hwritten, hwrite⟩ := hcommit
      rw [hbuf, Option.getD_some, AccountType.trySerialize, if_pos (by simp), Option.some.injEq]
        at hwrite
      rw [hwritten, ← hwrite, ByteString.writeAt, List.take_zero, List.nil_append, Nat.zero_add,
        List.drop_left]

theorem represents_genesis : Represents (fun _ ↦ none) genesis where
  reads location := by cases location <;> rfl
  sized location buf h := by cases h

theorem represents_of_run (hrun : Chain.run rt trace = .ok s) (h : Run rt trace mem) :
    mem.Represents s := by
  induction h generalizing s with
  | start =>
      obtain rfl : genesis = s := Except.ok.inj hrun
      exact represents_genesis
  | @step trace input mem mem' s' _ hstate hcommits ih =>
      obtain rfl : s = s' := Except.ok.inj (hrun.symm.trans hstate)
      obtain ⟨middle, hmiddle, -⟩ := Execution.run_snoc.mp hstate
      exact (ih hmiddle).commit hcommits

/-- No write of a run is ever refused. -/
theorem exists_run (hrun : Chain.run rt trace = .ok s) : ∃ mem, Run rt trace mem := by
  refine Execution.run_induction (motive := fun trace _ ↦ ∃ mem, Run rt trace mem) ⟨_, .start⟩ ?_
    hrun
  rintro trace state input next hstate ⟨mem, hmem⟩ hstep
  have hnext : Chain.run rt (trace ++ [input]) = .ok next :=
    Execution.run_snoc.mpr ⟨state, hstate, hstep⟩
  obtain ⟨mem', hcommits⟩ := (represents_of_run hstate hmem).exists_commits next
  exact ⟨mem', .step hmem hnext hcommits⟩

end Memory

end CredMesh
