import CredMesh.Bridge.EventTail
import CredMesh.Escrow.AccountCodec

/-!
# The nine events

The event tail reads three events by hand. Whoever has the IDL reads all nine: eight bytes tell the
event, its fields follow in Borsh. What `emit!` logs is read back as the event that it is, and no
other bytes are.
-/

namespace CredMesh.Escrow

inductive EventKind
  | poolInitialized
  | deposited
  | withdrew
  | advanceIssued
  | advanceSettled
  | advanceLiquidated
  | paramsProposed
  | paramsExecuted
  | protocolFeesSkimmed
  deriving DecidableEq

namespace EventKind

def all : List EventKind := [poolInitialized, deposited, withdrew, advanceIssued, advanceSettled,
  advanceLiquidated, paramsProposed, paramsExecuted, protocolFeesSkimmed]

theorem mem_all (kind : EventKind) : kind ∈ all := by
  cases kind <;> decide

abbrev Fields : EventKind → Type
  | poolInitialized => Pubkey × Pubkey × Pubkey × Pubkey
  | deposited => Pubkey × Pubkey × UInt64 × UInt64
  | withdrew => Pubkey × Pubkey × UInt64 × UInt64
  | advanceIssued => Pubkey × Pubkey × Pubkey × UInt64 × UInt64 × Int64 × Pubkey
  | advanceSettled => Pubkey × Pubkey × Pubkey × UInt64 × UInt64 × UInt64 × UInt64 × UInt32
  | advanceLiquidated => Pubkey × Pubkey × Pubkey × UInt64
  | paramsProposed => Pubkey × Int64
  | paramsExecuted => Pubkey × UInt16 × UInt64 × UInt64
  | protocolFeesSkimmed => Pubkey × UInt64 × Pubkey

/-- The first eight bytes of the SHA-256 digest of `event:` and the name of the event. -/
def discriminator : EventKind → Bytes 8
  | poolInitialized => ⟨[100, 118, 173, 87, 12, 198, 254, 229], rfl⟩
  | deposited => ⟨[111, 141, 26, 45, 161, 35, 100, 57], rfl⟩
  | withdrew => ⟨[15, 125, 249, 65, 130, 86, 20, 166], rfl⟩
  | advanceIssued => ⟨[217, 23, 68, 242, 156, 108, 78, 113], rfl⟩
  | advanceSettled => ⟨[189, 170, 219, 207, 123, 203, 16, 138], rfl⟩
  | advanceLiquidated => ⟨[38, 93, 243, 154, 126, 0, 247, 7], rfl⟩
  | paramsProposed => ⟨[29, 64, 243, 241, 75, 135, 93, 142], rfl⟩
  | paramsExecuted => ⟨[43, 82, 27, 103, 223, 157, 65, 40], rfl⟩
  | protocolFeesSkimmed => ⟨[166, 249, 52, 183, 245, 114, 5, 174], rfl⟩

theorem discriminator_injective : Function.Injective discriminator := by
  intro first second h
  cases first <;> cases second <;> first | rfl | cases h

def fieldsCodec : (kind : EventKind) → Codec kind.Fields
  | poolInitialized => keyCodec.pair <| keyCodec.pair <| keyCodec.pair keyCodec
  | deposited => keyCodec.pair <| keyCodec.pair <| Codec.u64.pair Codec.u64
  | withdrew => keyCodec.pair <| keyCodec.pair <| Codec.u64.pair Codec.u64
  | advanceIssued => keyCodec.pair <| keyCodec.pair <| keyCodec.pair <| Codec.u64.pair <|
      Codec.u64.pair <| Codec.i64.pair keyCodec
  | advanceSettled => keyCodec.pair <| keyCodec.pair <| keyCodec.pair <| Codec.u64.pair <|
      Codec.u64.pair <| Codec.u64.pair <| Codec.u64.pair Codec.u32
  | advanceLiquidated => keyCodec.pair <| keyCodec.pair <| keyCodec.pair Codec.u64
  | paramsProposed => keyCodec.pair Codec.i64
  | paramsExecuted => keyCodec.pair <| Codec.u16.pair <| Codec.u64.pair Codec.u64
  | protocolFeesSkimmed => keyCodec.pair <| Codec.u64.pair keyCodec

end EventKind

namespace Event

def ofFields : (Σ kind : EventKind, kind.Fields) → Event
  | ⟨.poolInitialized, (pool, assetMint, shareMint, governance)⟩ =>
      poolInitialized pool assetMint shareMint governance
  | ⟨.deposited, (pool, lp, amount, sharesMinted)⟩ => deposited pool lp amount sharesMinted
  | ⟨.withdrew, (pool, lp, sharesBurned, assetsReturned)⟩ =>
      withdrew pool lp sharesBurned assetsReturned
  | ⟨.advanceIssued, (pool, agent, advance, principal, feeOwed, expiresAt, attestor)⟩ =>
      advanceIssued pool agent advance principal feeOwed expiresAt attestor
  | ⟨.advanceSettled, (pool, agent, advance, principal, lpCut, protocolCut, agentNet, lateDays)⟩ =>
      advanceSettled pool agent advance principal lpCut protocolCut agentNet lateDays
  | ⟨.advanceLiquidated, (pool, agent, advance, loss)⟩ => advanceLiquidated pool agent advance loss
  | ⟨.paramsProposed, (pool, executeAfter)⟩ => paramsProposed pool executeAfter
  | ⟨.paramsExecuted, (pool, maxAdvancePctBps, maxAdvanceAbs, agentWindowCap)⟩ =>
      paramsExecuted pool maxAdvancePctBps maxAdvanceAbs agentWindowCap
  | ⟨.protocolFeesSkimmed, (pool, amount, recipient)⟩ => protocolFeesSkimmed pool amount recipient

def toFields : Event → Σ kind : EventKind, kind.Fields
  | poolInitialized pool assetMint shareMint governance =>
      ⟨.poolInitialized, (pool, assetMint, shareMint, governance)⟩
  | deposited pool lp amount sharesMinted => ⟨.deposited, (pool, lp, amount, sharesMinted)⟩
  | withdrew pool lp sharesBurned assetsReturned =>
      ⟨.withdrew, (pool, lp, sharesBurned, assetsReturned)⟩
  | advanceIssued pool agent advance principal feeOwed expiresAt attestor =>
      ⟨.advanceIssued, (pool, agent, advance, principal, feeOwed, expiresAt, attestor)⟩
  | advanceSettled pool agent advance principal lpCut protocolCut agentNet lateDays =>
      ⟨.advanceSettled, (pool, agent, advance, principal, lpCut, protocolCut, agentNet, lateDays)⟩
  | advanceLiquidated pool agent advance loss => ⟨.advanceLiquidated, (pool, agent, advance, loss)⟩
  | paramsProposed pool executeAfter => ⟨.paramsProposed, (pool, executeAfter)⟩
  | paramsExecuted pool maxAdvancePctBps maxAdvanceAbs agentWindowCap =>
      ⟨.paramsExecuted, (pool, maxAdvancePctBps, maxAdvanceAbs, agentWindowCap)⟩
  | protocolFeesSkimmed pool amount recipient => ⟨.protocolFeesSkimmed, (pool, amount, recipient)⟩

def codec : Codec Event :=
  (Codec.sigma EventKind.all EventKind.mem_all (Codec.tags EventKind.all EventKind.discriminator
    EventKind.mem_all EventKind.discriminator_injective) EventKind.fieldsCodec).ofEquiv {
      toFun := ofFields
      invFun := toFields
      left_inv := by
        rintro ⟨kind, fields⟩
        cases kind <;> rfl
      right_inv := by
        intro event
        cases event <;> rfl }

/-- The codec writes what `emit!` logs. -/
theorem encode_codec (event : Event) : codec.encode event = event.encode := by
  change event.toFields.1.discriminator.toList ++
    event.toFields.1.fieldsCodec.encode event.toFields.2 = event.discriminator ++ event.fields
  cases event <;>
    simp [toFields, EventKind.discriminator, EventKind.fieldsCodec, discriminator, fields,
      keyCodec_encode]

theorem read_eq_some {data : List UInt8} {event : Event} :
    codec.read data = some event ↔ event.encode <+: data := by
  rw [codec.read_eq_some, encode_codec]

end Event

/-- The events in what a program logs. -/
def readEvents (logged : List (List UInt8)) : List Event := logged.filterMap Event.codec.read

/-- What was emitted is read, event by event. -/
theorem readEvents_encode (events : List Event) :
    readEvents (events.map Event.encode) = events := by
  rw [readEvents, List.filterMap_map]
  have hread : Event.codec.read ∘ Event.encode = some := by
    funext event
    exact Event.read_eq_some.mpr (List.prefix_refl _)
  rw [hread, List.filterMap_some]

end CredMesh.Escrow
