import AxelarRelayer.Task.Processor

/-!
# `solana-event-forwarder::utils`

The parser of the Axelar crates describes what a transaction did in `Core` events,
with hashes in base64 and amounts as text. The Amplifier API takes the same events
decoded. An event that cannot be decoded is skipped; an amount that is no number
ends the program.
-/

namespace AxelarRelayer.Forwarder

open AxelarRelayer

/-- The decoders of `base64` and `chrono`. -/
structure Formats where
  /-- `BASE64_STANDARD.decode` -/
  decodeBase64 : String → Option (List UInt8)
  /-- `DateTime::parse_from_rfc3339`, in UTC -/
  parseFromRfc3339 : String → Option Int

/-! ## `core_types` -/

namespace Core

structure EventMetadata where
  txId : Option String
  fromAddress : Option String
  finalized : Option Bool
  timestamp : String
deriving DecidableEq

structure MessageApprovedEventMetadata where
  commonMeta : EventMetadata
  commandId : Option String
deriving DecidableEq

structure MessageExecutedEventMetadata where
  commonMeta : EventMetadata
  commandId : Option String
  childMessageIds : Option (List String)
deriving DecidableEq

structure SignersRotatedEventMetadata where
  commonMeta : EventMetadata
  signersHash : Option String
  epoch : Option Nat
deriving DecidableEq

structure CommonEventFields (Metadata : Type) where
  eventId : String
  metadata : Option Metadata
deriving DecidableEq

structure GatewayV2Message where
  messageId : String
  sourceChain : String
  sourceAddress : String
  destinationAddress : String
  payloadHash : String
deriving DecidableEq

structure Amount where
  tokenId : Option String
  amount : String
deriving DecidableEq

inductive MessageExecutionStatus where
  | SUCCESSFUL
  | REVERTED
deriving DecidableEq

inductive TokenManagerType where
  | nativeInterchainToken
  | mintBurnFrom
  | lockUnlock
  | lockUnlockFee
  | mintBurn
deriving DecidableEq

structure InterchainTokenDefinition where
  id : String
  name : String
  symbol : String
  decimals : UInt8
deriving DecidableEq

inductive Event where
  | call (common : CommonEventFields EventMetadata) (message : GatewayV2Message)
      (destinationChain payload : String)
  | gasCredit (common : CommonEventFields EventMetadata) (messageId refundAddress : String)
      (payment : Amount)
  | gasRefunded (common : CommonEventFields EventMetadata) (messageId recipientAddress : String)
      (refundedAmount cost : Amount)
  | messageApproved (common : CommonEventFields MessageApprovedEventMetadata)
      (message : GatewayV2Message) (cost : Amount)
  | messageExecuted (common : CommonEventFields MessageExecutedEventMetadata)
      (messageId sourceChain : String) (status : MessageExecutionStatus) (cost : Amount)
  | signersRotated (common : CommonEventFields SignersRotatedEventMetadata) (messageId : String)
  | itsInterchainTransfer (common : CommonEventFields EventMetadata)
      (messageId destinationChain : String) (tokenSpent : Amount)
      (sourceAddress destinationAddress dataHash : String)
  | itsTokenMetadataRegistered (common : CommonEventFields EventMetadata)
      (messageId address : String) (decimals : UInt8)
  | itsLinkTokenStarted (common : CommonEventFields EventMetadata)
      (messageId tokenId destinationChain sourceTokenAddress destinationTokenAddress : String)
      (tokenManagerType : TokenManagerType)
  | itsInterchainTokenDeploymentStarted (common : CommonEventFields EventMetadata)
      (messageId destinationChain : String) (token : InterchainTokenDefinition)
  | cannotExecuteMessageV2
deriving DecidableEq

end Core

/-! ## `amp_types` -/

structure EventMetadata (Extra : Type) where
  txId : Option String
  timestamp : Option Int
  fromAddress : Option String
  finalized : Option Bool
  extra : Extra
deriving DecidableEq

structure EventBase (Extra : Type) where
  eventId : String
  metadata : Option (EventMetadata Extra)
deriving DecidableEq

structure CallEventMetadata where
  parentMessageId : Option String
deriving DecidableEq

structure MessageApprovedEventMetadata where
  commandId : Option String
deriving DecidableEq

structure MessageExecutedEventMetadata where
  commandId : Option String
  childMessageIds : Option (List String)
deriving DecidableEq

structure SignersRotatedMetadata where
  signerHash : List UInt8
  epoch : Nat
deriving DecidableEq

structure InterchainTransferTokenWithId where
  tokenId : String
  amount : Int
deriving DecidableEq

inductive TokenManagerType where
  | nativeInterchainToken
  | mintBurnFrom
  | lockUnlock
  | lockUnlockFee
  | mintBurn
deriving DecidableEq

structure InterchainTokenDefinition where
  id : String
  name : String
  symbol : String
  decimals : UInt8
deriving DecidableEq

inductive Event where
  | call (base : EventBase CallEventMetadata) (message : Task.GatewayV2Message)
      (destinationChain : String) (payload : List UInt8)
  | gasCredit (base : EventBase Unit) (messageId refundAddress : String) (payment : Task.Token)
  | gasRefunded (base : EventBase Unit) (messageId recipientAddress : String)
      (refundedAmount cost : Task.Token)
  | messageApproved (base : EventBase MessageApprovedEventMetadata)
      (message : Task.GatewayV2Message) (cost : Task.Token)
  | messageExecuted (base : EventBase MessageExecutedEventMetadata)
      (messageId sourceChain : String) (status : Task.MessageExecutionStatus) (cost : Task.Token)
  | signersRotated (base : EventBase SignersRotatedMetadata) (messageId : String)
  | itsInterchainTransfer (base : EventBase Unit) (messageId destinationChain : String)
      (tokenSpent : InterchainTransferTokenWithId)
      (sourceAddress destinationAddress dataHash : String)
  | itsTokenMetadataRegistered (base : EventBase Unit) (messageId address : String)
      (decimals : UInt8)
  | itsLinkTokenStarted (base : EventBase Unit)
      (messageId tokenId destinationChain sourceTokenAddress destinationTokenAddress : String)
      (tokenManagerType : TokenManagerType)
  | itsInterchainTokenDeploymentStarted (base : EventBase Unit)
      (messageId destinationChain : String) (token : InterchainTokenDefinition)
deriving DecidableEq

/-! ## Amounts -/

/-- The value of a non-empty row of decimal digits. -/
def decimal (digits : List Char) : Option Nat :=
  if digits.isEmpty then none
  else if digits.all Char.isDigit then
    some (digits.foldl (fun value digit => 10 * value + (digit.toNat - '0'.toNat)) 0)
  else none

/-- `I512::from_str_radix` with radix 10. -/
def fromStrRadix (text : String) : Option Int :=
  match text.toList with
  | '-' :: digits => (decimal digits).bind fun n => if n ≤ 2 ^ 511 then some (-(n : Int)) else none
  | '+' :: digits => (decimal digits).bind fun n => if n < 2 ^ 511 then some (n : Int) else none
  | digits => (decimal digits).bind fun n => if n < 2 ^ 511 then some (n : Int) else none

/-- `I512::parse_str_radix` with radix 10, which panics on an error. -/
def parseStrRadix (text : String) : Except Panic Int :=
  match fromStrRadix text with
  | some n => .ok n
  | none => .error ⟨"attempt to parse integer from string failed"⟩

/-- `token_from_amount`. -/
def tokenFromAmount (amount : Core.Amount) : Except Panic Task.Token := do
  let num ← parseStrRadix amount.amount
  return ⟨amount.tokenId, num⟩

/-! ## The parts of an event -/

variable (formats : Formats)

/-- `convert_event_metadata`. -/
def convertEventMetadata (metadata : Option Core.EventMetadata) : Option (EventMetadata Unit) :=
  metadata.map fun m =>
    ⟨m.txId, formats.parseFromRfc3339 m.timestamp, m.fromAddress, m.finalized, ()⟩

/-- `convert_base_meta`. -/
def convertBaseMeta (common : Core.CommonEventFields Core.EventMetadata) : EventBase Unit :=
  ⟨common.eventId, convertEventMetadata formats common.metadata⟩

/-- The metadata of an event that adds something of its own. -/
def withExtra {Extra : Type} (extra : Extra) (metadata : EventMetadata Unit) :
    EventMetadata Extra :=
  ⟨metadata.txId, metadata.timestamp, metadata.fromAddress, metadata.finalized, extra⟩

/-- `convert_gateway_message`. -/
def convertGatewayMessage (msg : Core.GatewayV2Message) : Option Task.GatewayV2Message :=
  (formats.decodeBase64 msg.payloadHash).map fun payloadHash =>
    ⟨msg.messageId, msg.sourceChain, msg.sourceAddress, msg.destinationAddress, payloadHash⟩

/-- `convert_token_manager_type`. -/
def convertTokenManagerType : Core.TokenManagerType → TokenManagerType
  | .nativeInterchainToken => .nativeInterchainToken
  | .mintBurnFrom => .mintBurnFrom
  | .lockUnlock => .lockUnlock
  | .lockUnlockFee => .lockUnlockFee
  | .mintBurn => .mintBurn

/-! ## The events -/

/-- `convert_call`. -/
def convertCall (common : Core.CommonEventFields Core.EventMetadata)
    (message : Core.GatewayV2Message) (destinationChain payloadB64 : String) : Option Event := do
  let payload ← formats.decodeBase64 payloadB64
  let message ← convertGatewayMessage formats message
  let metadata := (convertEventMetadata formats common.metadata).map (withExtra ⟨none⟩)
  return .call ⟨common.eventId, metadata⟩ message destinationChain payload

/-- `convert_message_approved`. -/
def convertMessageApproved (common : Core.CommonEventFields Core.MessageApprovedEventMetadata)
    (message : Core.GatewayV2Message) (cost : Core.Amount) : Except Panic (Option Event) :=
  match convertGatewayMessage formats message with
  | none => .ok none
  | some message => do
      let metadata :=
        (convertEventMetadata formats (common.metadata.map (·.commonMeta))).map
          (withExtra ⟨common.metadata.bind (·.commandId)⟩)
      let cost ← tokenFromAmount cost
      return some (.messageApproved ⟨common.eventId, metadata⟩ message cost)

/-- `convert_message_executed`. -/
def convertMessageExecuted (common : Core.CommonEventFields Core.MessageExecutedEventMetadata)
    (messageId sourceChain : String) (status : Core.MessageExecutionStatus)
    (cost : Core.Amount) : Except Panic Event := do
  let metadata :=
    (convertEventMetadata formats (common.metadata.map (·.commonMeta))).map
      (withExtra ⟨common.metadata.bind (·.commandId), common.metadata.bind (·.childMessageIds)⟩)
  let status : Task.MessageExecutionStatus := match status with
    | .SUCCESSFUL => .successful
    | .REVERTED => .reverted
  let cost ← tokenFromAmount cost
  return .messageExecuted ⟨common.eventId, metadata⟩ messageId sourceChain status cost

/-- `convert_signers_rotated`. -/
def convertSignersRotated (common : Core.CommonEventFields Core.SignersRotatedEventMetadata)
    (messageId : String) : Option Event := do
  let signersHash ← common.metadata.bind (·.signersHash)
  let decodedHash ← formats.decodeBase64 signersHash
  let epoch ← common.metadata.bind (·.epoch)
  let metadata := (convertEventMetadata formats (common.metadata.map (·.commonMeta))).map
    (withExtra ⟨decodedHash, epoch⟩)
  return .signersRotated ⟨common.eventId, metadata⟩ messageId

/-- `convert_its_interchain_transfer`. -/
def convertItsInterchainTransfer (common : Core.CommonEventFields Core.EventMetadata)
    (messageId destinationChain : String) (tokenSpent : Core.Amount)
    (sourceAddress destinationAddress dataHash : String) : Except Panic (Option Event) :=
  match tokenSpent.tokenId with
  | none => .ok none
  | some tokenId => do
      let token ← tokenFromAmount tokenSpent
      return some (.itsInterchainTransfer (convertBaseMeta formats common) messageId
        destinationChain ⟨tokenId, token.amount⟩ sourceAddress destinationAddress dataHash)

/-- `convert_core_event_to_amp`. -/
def convertCoreEventToAmp (event : Core.Event) (adjustedCost : Nat) : Except Panic (Option Event) :=
  match event with
  | .call common message destinationChain payload =>
      .ok (convertCall formats common message destinationChain payload)
  | .gasCredit common messageId refundAddress payment => do
      let payment ← tokenFromAmount payment
      return some (.gasCredit (convertBaseMeta formats common) messageId refundAddress payment)
  | .gasRefunded common messageId recipientAddress refundedAmount cost => do
      let cost := { cost with amount := toString adjustedCost }
      let refundedAmount ← tokenFromAmount refundedAmount
      let cost ← tokenFromAmount cost
      return some (.gasRefunded (convertBaseMeta formats common) messageId recipientAddress
        refundedAmount cost)
  | .messageApproved common message cost =>
      convertMessageApproved formats common message { cost with amount := toString adjustedCost }
  | .messageExecuted common messageId sourceChain status cost => do
      let event ← convertMessageExecuted formats common messageId sourceChain status
        { cost with amount := toString adjustedCost }
      return some event
  | .signersRotated common messageId => .ok (convertSignersRotated formats common messageId)
  | .itsInterchainTransfer common messageId destinationChain tokenSpent sourceAddress
      destinationAddress dataHash =>
      convertItsInterchainTransfer formats common messageId destinationChain tokenSpent
        sourceAddress destinationAddress dataHash
  | .itsTokenMetadataRegistered common messageId address decimals =>
      .ok (some (.itsTokenMetadataRegistered (convertBaseMeta formats common) messageId address
        decimals))
  | .itsLinkTokenStarted common messageId tokenId destinationChain sourceTokenAddress
      destinationTokenAddress tokenManagerType =>
      .ok (some (.itsLinkTokenStarted (convertBaseMeta formats common) messageId tokenId
        destinationChain sourceTokenAddress destinationTokenAddress
        (convertTokenManagerType tokenManagerType)))
  | .itsInterchainTokenDeploymentStarted common messageId destinationChain token =>
      .ok (some (.itsInterchainTokenDeploymentStarted (convertBaseMeta formats common) messageId
        destinationChain ⟨token.id, token.name, token.symbol, token.decimals⟩))
  | .cannotExecuteMessageV2 => .ok none

/-- The share of every event, `checked_div(..).unwrap_or(0)`. -/
def pricePerEvent (coreEvents : List Core.Event) (totalCost : Nat) : Nat :=
  totalCost / coreEvents.length

/-- `map_core_events_to_amplifier`. -/
def mapCoreEventsToAmplifier (coreEvents : List Core.Event) (totalCost : Nat) :
    Except Panic (List Event) := do
  let converted ← coreEvents.mapM fun event =>
    convertCoreEventToAmp formats event (pricePerEvent coreEvents totalCost)
  return converted.filterMap id

end AxelarRelayer.Forwarder
