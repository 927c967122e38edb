import CredMesh.Chain.Custody

/-!
# Accepted instructions

In a reachable state nothing about a pool account itself is ever refused: an instruction for it is
accepted exactly if its signer can sign and its handler computes an effect.
-/

namespace CredMesh

open Outcome Escrow

namespace Chain

variable {rt : Runtime} {trace : List Input} {s s' : Chain} {env : Env} {ix : PoolInstruction}
  {p : Pubkey} {ps : PoolState}

theorem step_pool_iff (hrun : run rt trace = .ok s) (hp : s.pools.lookup p = some ps)
    (hpool : ix.pool = p) :
    step rt ⟨env, .pool ix⟩ s = .ok s' ↔ s.pools.lookup ix.signer = none ∧
      ∃ effect, ix.handler rt env s.registry ps s.tokens = .ok effect ∧ s' = s.commit p effect := by
  subst hpool
  constructor
  · intro h
    obtain ⟨found, effect, hfound, -, heffect, hcommit⟩ := step_handled h rfl
    obtain rfl : found = ps := by simpa [hp] using hfound.symm
    cases step_cases h with
    | pool haction hsigner _ _ =>
        cases haction
        exact ⟨hsigner, effect, heffect, hcommit⟩
    | initPool haction _ _ => cases haction
    | registry haction _ => cases haction
    | token haction _ _ => cases haction
  · rintro ⟨hsigner, effect, heffect, rfl⟩
    exact step_pool hsigner hp ((run_custodial hrun).custody ix.pool ps hp).seeds heffect

theorem accepts_iff (hrun : run rt trace = .ok s) (hp : s.pools.lookup p = some ps)
    (hpool : ix.pool = p) :
    (∃ s', step rt ⟨env, .pool ix⟩ s = .ok s') ↔ s.pools.lookup ix.signer = none ∧
      ∃ effect, ix.handler rt env s.registry ps s.tokens = .ok effect := by
  simp only [step_pool_iff hrun hp hpool]
  constructor
  · rintro ⟨_, hsigner, effect, heffect, -⟩
    exact ⟨hsigner, effect, heffect⟩
  · rintro ⟨hsigner, effect, heffect⟩
    exact ⟨_, hsigner, effect, heffect, rfl⟩

end Chain

end CredMesh
