import AxelarRelayer.Chain
import AxelarRelayer.Lib.Saturating

/-!
# `gateway-gas-computation`

`compute_total_gas` looks at the instructions of one transaction and, for some of
them, looks up the whole history of an account and adds the fees of the
transactions found there. `Lookup` is what the RPC does during one such lookup;
every instruction gets its own.

The byte formats are those of external crates, so decoding them is a parameter.
-/

namespace AxelarRelayer.Gas

open AxelarRelayer

/-- `axelar_solana_gateway::instructions::GatewayInstruction`, less the fields never read. -/
inductive GatewayInstruction where
  /-- `set_size` is the number of messages approved in the batch -/
  | approveMessage (setSize : Nat)
  | rotateSigners
  | callContract
  | initializeConfig
  | initializePayloadVerificationSession
  | verifySignature
  | initializeMessagePayload
  | writeMessagePayload
  | commitMessagePayload
  | closeMessagePayload
  | validateMessage
  | transferOperatorship
deriving DecidableEq

/-- The decoders of `axelar_solana_gateway`. -/
structure Codec where
  /-- `borsh::from_slice::<GatewayInstruction>` -/
  gatewayInstruction : List UInt8 → Option GatewayInstruction
  /-- `executable::parse_axelar_message` returns `Some(Ok(_))` -/
  isAxelarMessage : List UInt8 → Bool

/-- What the RPC does while the history of one address is looked up. -/
structure Lookup where
  /-- the chain the `n`-th page request is answered from -/
  chainAt : Nat → Chain
  grows : ∀ n, chainAt n ≤ chainAt (n + 1)
  pageFails : Nat → Bool
  fetchFails : Signature → Bool
  /-- the order in which the `FuturesUnordered` of fetches completes -/
  completion : List Signature → List Signature
  completes : ∀ sigs, (completion sigs).Perm sigs

/-- A lookup on a chain that does not grow, without failures. -/
def Lookup.static (chain : Chain) : Lookup where
  chainAt _ := chain
  grows _ := chain.le_refl
  pageFails _ := false
  fetchFails _ := false
  completion sigs := sigs
  completes sigs := List.Perm.refl sigs

/-- The page limit of `fetch_signatures`. -/
def PAGE_LIMIT : Nat := 1000

/-- The loop of `fetch_signatures`, from its `n`-th page request on. -/
def fetchSignaturesFrom (lookup : Lookup) (address : Pubkey) :
    Nat → Nat → Option Signature → Option (Except Report (List Signature))
  | 0, _, _ => none
  | fuel + 1, n, beforeSig =>
      if lookup.pageFails n then some (.error (.msg "getSignaturesForAddress failed"))
      else
        let page := (lookup.chainAt n).getSignaturesForAddress address beforeSig none PAGE_LIMIT
        match page.getLast? with
        | none => some (.ok [])
        | some last =>
            (fetchSignaturesFrom lookup address fuel (n + 1) (some last.signature)).map
              fun rest => rest.map (page.map TxStatus.signature ++ ·)

/-- More passes than any lookup needs: one for each transaction there is, and one more. -/
def Lookup.fuel (lookup : Lookup) : Nat := (lookup.chainAt 0).history.length + 1

/-- `fetch_signatures`: the whole history of an address, newest first. -/
def fetchSignatures (lookup : Lookup) (address : Pubkey) : Option (Except Report (List Signature)) :=
  fetchSignaturesFrom lookup address lookup.fuel 0 none

/-- `fetch_transaction` during a lookup. -/
def Lookup.fetchTransaction (lookup : Lookup) (sig : Signature) : Except Report TxStatus :=
  if lookup.fetchFails sig then .error (.msg "getTransaction failed")
  else match (lookup.chainAt 0).status? sig with
    | some st => .ok st
    | none => .error (.msg "transaction not found")

/-- `try_collect` on the `FuturesUnordered` of fetches. -/
def fetchAll (lookup : Lookup) (signatures : List Signature) : Except Report (List TxStatus) :=
  (lookup.completion signatures).mapM lookup.fetchTransaction

/-- The instruction is one of the gateway's that `counts` selects. -/
def matchesIx (codec : Codec) (gatewayProgramId : Pubkey) (counts : GatewayInstruction → Bool)
    (ix : ParsedIx) : Bool :=
  match codec.gatewayInstruction ix.data with
  | none => false
  | some instructionData =>
      if ix.programId ≠ gatewayProgramId then false else counts instructionData

/-- One pass through the loop over transactions: the loop over its instructions. -/
def addTransaction (codec : Codec) (gatewayProgramId : Pubkey)
    (counts : GatewayInstruction → Bool) (total : Nat) : TxStatus → Nat
  | .failed .. => total
  | .successful tx => tx.ixs.foldl (fun total ix =>
      if matchesIx codec gatewayProgramId counts ix then Saturating.add total tx.costInLamports
      else total) total

/-- The two nested loops over transactions and instructions. -/
def sumOfMatching (codec : Codec) (gatewayProgramId : Pubkey) (counts : GatewayInstruction → Bool)
    (txLogs : List TxStatus) : Nat :=
  txLogs.foldl (addTransaction codec gatewayProgramId counts) 0

/-- Both cost functions: look the history up, fetch it, sum the fees of what `counts` selects. -/
def costOfHistory (codec : Codec) (gatewayProgramId : Pubkey) (counts : GatewayInstruction → Bool)
    (lookup : Lookup) (pda : Pubkey) : Except Report Nat :=
  match fetchSignatures lookup pda with
  | none => .error (.msg "out of fuel") -- never: see `fetchSignatures_isSome`
  | some signatures => do
      let signatures ← signatures
      let txLogs ← fetchAll lookup signatures
      return sumOfMatching codec gatewayProgramId counts txLogs

/-- What `cost_of_signature_verification` counts. -/
def countsVerification : GatewayInstruction → Bool
  | .initializePayloadVerificationSession | .verifySignature => true
  | _ => false

/-- What `cost_of_payload_uploading` counts. -/
def countsUpload : GatewayInstruction → Bool
  | .initializeMessagePayload | .writeMessagePayload | .commitMessagePayload
  | .closeMessagePayload => true
  | _ => false

/-- `cost_of_signature_verification`. -/
def costOfSignatureVerification (codec : Codec) (gatewayProgramId : Pubkey) (lookup : Lookup)
    (verificationSessionPda : Pubkey) : Except Report Nat :=
  costOfHistory codec gatewayProgramId countsVerification lookup verificationSessionPda

/-- `cost_of_payload_uploading`. -/
def costOfPayloadUploading (codec : Codec) (gatewayProgramId : Pubkey) (lookup : Lookup)
    (messagePayloadPda : Pubkey) : Except Report Nat :=
  costOfHistory codec gatewayProgramId countsUpload lookup messagePayloadPda

/-- One pass through the loop of `compute_total_gas`. -/
def chargeIx (codec : Codec) (gatewayProgramId : Pubkey) (lookup : Lookup) (totalGasCost : Nat)
    (ix : ParsedIx) : Except Report Nat :=
  if ix.programId = gatewayProgramId then
    match codec.gatewayInstruction ix.data with
    | some (.approveMessage setSize) =>
        match ix.accounts[2]? with
        | none => .ok totalGasCost
        | some verificationSessionPda => do
            let verifySignaturesCosts ←
              costOfSignatureVerification codec gatewayProgramId lookup verificationSessionPda
            -- `checked_div(..).unwrap_or(0)`
            return Saturating.add totalGasCost (verifySignaturesCosts / setSize)
    | some .rotateSigners =>
        match ix.accounts[1]? with
        | none => .ok totalGasCost
        | some verificationSessionPda => do
            let verifySignaturesCosts ←
              costOfSignatureVerification codec gatewayProgramId lookup verificationSessionPda
            return Saturating.add totalGasCost verifySignaturesCosts
    | _ => .ok totalGasCost
  else if codec.isAxelarMessage ix.data then
    match ix.accounts[1]? with
    | none => .ok totalGasCost
    | some messagePayloadPda => do
        let uploadPayloadCosts ←
          costOfPayloadUploading codec gatewayProgramId lookup messagePayloadPda
        return Saturating.add totalGasCost uploadPayloadCosts
  else .ok totalGasCost

/-- `compute_total_gas`; `rpc i` is the lookup made for the `i`-th instruction. -/
def computeTotalGas (codec : Codec) (gatewayProgramId : Pubkey) (tx : SolanaTransaction)
    (rpc : Nat → Lookup) : Except Report Nat :=
  tx.ixs.zipIdx.foldlM (fun total ix => chargeIx codec gatewayProgramId (rpc ix.2) total ix.1)
    tx.costInLamports

end AxelarRelayer.Gas
