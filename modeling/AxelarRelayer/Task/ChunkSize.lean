import AxelarRelayer.Task.TxSender

/-!
# `MAX_CHUNK_SIZE`

How many bytes of a payload one write instruction takes is measured once, on a
transaction without any. What the senders put in front of an instruction is here as
well, as `solana_sdk` instructions.
-/

namespace AxelarRelayer.Task

open AxelarRelayer

/-- A compute budget instruction; it has no accounts. -/
def computeBudgetIx (ix : ParsedIx) : Instruction := ⟨ix.programId, [], ix.data⟩

/-- The most bytes a packet holds. -/
def PACKET_DATA_SIZE : Nat := 1232

/-- `axelar_solana_gateway::instructions::write_message_payload`. -/
abbrev WriteMessagePayload : Type :=
  Pubkey → Pubkey → Bytes32 → List UInt8 → Nat → Except String Instruction

/-- The transaction the chunk size is measured on: one key for all fields, and no payload. -/
def baselineTransaction (writeMessagePayload : WriteMessagePayload) (randomPubkey : Pubkey) :
    Option Transaction := do
  let writeInstruction ←
    (writeMessagePayload randomPubkey randomPubkey randomPubkey.bytes [] 0).toOption
  let baselineMsg ← SolanaMessage.newWithBlockhash
    [computeBudgetIx (setComputeUnitLimit 1400000), computeBudgetIx (setComputeUnitPrice 1000),
      writeInstruction] randomPubkey (Vector.replicate 32 0)
  return ⟨List.replicate baselineMsg.header.numRequiredSignatures.toNat (.filled 0), baselineMsg⟩

/-- `MAX_CHUNK_SIZE`; `none` is one of its panics. -/
def MAX_CHUNK_SIZE (writeMessagePayload : WriteMessagePayload) (randomPubkey : Pubkey) :
    Option Nat := do
  let tx ← baselineTransaction writeMessagePayload randomPubkey
  let bytes ← tx.serialize
  let additionalOverhead := 35
  return PACKET_DATA_SIZE - bytes.length - 1 - additionalOverhead

/-- What is in the deque of the sender behind `evaluate_compute_ixs`. -/
def evaluatedIxs (price units : Nat) (ix : Instruction) : List Instruction :=
  [computeBudgetIx (setComputeUnitPrice price), computeBudgetIx (setComputeUnitLimit units), ix]

end AxelarRelayer.Task
