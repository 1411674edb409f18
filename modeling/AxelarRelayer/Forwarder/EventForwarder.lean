import AxelarRelayer.Forwarder.Events

/-!
# `SolanaEventForwarder`

Every transaction the listener sends is costed, parsed and published as one
`PublishEvents` command. The parser is an external crate; what it and the RPC node
answer for the `n`-th transaction is a parameter.
-/

namespace AxelarRelayer.Forwarder

open AxelarRelayer

/-- `SolanaTransaction` with its inner instructions, which only the parser reads. -/
structure Message where
  tx : SolanaTransaction
  innerIxs : List UiInnerInstructions
deriving DecidableEq

/-- `solana_transaction_parser::types::SolanaTransaction`. -/
structure ParserTransaction where
  signature : Signature
  timestamp : Option Int
  logs : List String
  slot : Int
  costUnits : Nat
  accountKeys : List String
  ixs : List UiInnerInstructions
deriving DecidableEq

/-- `convert_to_parser_transaction`. -/
def convertToParserTransaction (showPubkey : Pubkey → String) (message : Message) :
    ParserTransaction where
  signature := message.tx.signature
  timestamp := message.tx.timestamp
  logs := message.tx.logs
  slot := (BitVec.ofNat 64 message.tx.slot).toInt
  costUnits := message.tx.costInLamports
  accountKeys := message.tx.accountKeys.map showPubkey
  ixs := message.innerIxs

/-- `solana_event_forwarder::Config`, less the client. -/
structure Config where
  sourceChainName : String
  gatewayProgramId : Pubkey
  gasServiceProgramId : Pubkey

/-- `TransactionParser::new`. -/
structure TransactionParser where
  sourceChainName : String
  gasServiceProgramId : Pubkey
  gatewayProgramId : Pubkey
  itsProgramId : Pubkey

/-- The crates the forwarder uses, and one course of events. -/
structure Env where
  codec : Gas.Codec
  formats : Formats
  showPubkey : Pubkey → String
  /-- `serde_json::to_string` -/
  toJson : ParserTransaction → Except String String
  /-- the lookup made for the `i`-th instruction of the `n`-th transaction -/
  lookup : Nat → Nat → Gas.Lookup
  /-- `parse_transaction` of the `n`-th transaction -/
  parseTransaction : Nat → TransactionParser → String → Except String (List Core.Event)
  /-- sending the `n`-th command on the channel to the Amplifier component -/
  send : Nat → Except String Unit

/-- How `process_internal` can end. -/
inductive Ending where
  | returned (error : Report)
  | panicked (panic : Panic)
deriving DecidableEq

variable (env : Env) (config : Config)

/-- The body of the loop up to the sending of the command: its events, or why it ended. -/
def processMessage (n : Nat) (message : Message) : Except Ending (List Event) := do
  let totalCost ← (Gas.computeTotalGas env.codec config.gatewayProgramId message.tx
    (env.lookup n)).mapError .returned
  let tx := convertToParserTransaction env.showPubkey message
  let parser : TransactionParser := {
    sourceChainName := config.sourceChainName
    gasServiceProgramId := config.gasServiceProgramId
    gatewayProgramId := config.gatewayProgramId
    itsProgramId := .filled 0 -- `Pubkey::default()`
  }
  let json ← (env.toJson tx).mapError fun text => .returned (.msg text)
  let events ← (env.parseTransaction n parser json).mapError fun text => .returned (.msg text)
  (mapCoreEventsToAmplifier env.formats events totalCost).mapError .panicked

/-- What `process_internal` did. -/
structure Forwarded where
  /-- the commands, by the events in them -/
  published : List (List Event)
  /-- how many transactions were taken from the listener -/
  taken : Nat
  ending : Ending
deriving DecidableEq

/-- `process_internal`, given the transactions the listener sends before it stops. -/
def processInternal : Nat → List Message → Forwarded
  | _, [] => ⟨[], 0, .returned (.msg "Listener has stopped unexpectedly")⟩
  | n, message :: messages =>
      match processMessage env config n message with
      | .error ending => ⟨[], 1, ending⟩
      | .ok events =>
          match env.send n with
          | .error text => ⟨[], 1, .returned (.msg text)⟩
          | .ok _ =>
              let rest := processInternal (n + 1) messages
              ⟨events :: rest.published, rest.taken + 1, rest.ending⟩

end AxelarRelayer.Forwarder
