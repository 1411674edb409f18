import AxelarRelayer.Basic
import AxelarRelayer.Lib.ShortVec
import Std.Data.TreeMap.Lemmas

/-!
# Legacy transactions

How instructions become the transaction that is signed and sent. Every key an
instruction mentions stands in the message once, in order of what it is used for and
the payer first, and instructions refer to keys by their index. On the wire lists
stand behind a compact length.
-/

namespace AxelarRelayer.Task

open AxelarRelayer

/-! ## Instructions -/

structure AccountMeta where
  pubkey : Pubkey
  isSigner : Bool
  isWritable : Bool
deriving DecidableEq

structure Instruction where
  programId : Pubkey
  accounts : List AccountMeta
  data : List UInt8
deriving DecidableEq

/-- The instruction less what the keys are used for. -/
def Instruction.parsed (ix : Instruction) : ParsedIx :=
  ⟨ix.programId, ix.accounts.map AccountMeta.pubkey, ix.data⟩

/-! ## `CompiledKeys` -/

structure CompiledKeyMeta where
  isSigner : Bool
  isWritable : Bool

instance : Ord Pubkey := ⟨fun a b => compare a.bytes b.bytes⟩

instance : Std.TransOrd Pubkey :=
  inferInstanceAs (Std.TransCmp (compareOn Pubkey.bytes))

theorem Pubkey.eq_of_compare {a b : Pubkey} (h : compare a b = .eq) : a = b := by
  have hbytes : compare a.bytes b.bytes = .eq := h
  cases a
  cases b
  exact congrArg Pubkey.mk (Std.LawfulEqOrd.eq_of_compare hbytes)

instance : Std.LawfulEqOrd Pubkey where
  eq_of_compare := Pubkey.eq_of_compare

abbrev KeyMetaMap : Type := Std.TreeMap Pubkey CompiledKeyMeta

/-- `entry(key).or_default()`, and the flags of the account on top. -/
def mention (map : KeyMetaMap) (account : AccountMeta) : KeyMetaMap :=
  map.alter account.pubkey fun entry =>
    let keyMeta := entry.getD ⟨false, false⟩
    some ⟨keyMeta.isSigner || account.isSigner, keyMeta.isWritable || account.isWritable⟩

/-- The keys in the order in which `CompiledKeys::compile` goes over them. -/
def mentions (ixs : List Instruction) (payer : Pubkey) : List AccountMeta :=
  ixs.flatMap (fun ix => ⟨ix.programId, false, false⟩ :: ix.accounts) ++ [⟨payer, true, true⟩]

/-- `CompiledKeys::compile`. -/
def compileKeys (ixs : List Instruction) (payer : Pubkey) : KeyMetaMap :=
  (mentions ixs payer).foldl mention ∅

/-- The keys with these flags, in the order of the map. -/
def selectKeys (map : KeyMetaMap) (isSigner isWritable : Bool) : List Pubkey :=
  (map.toList.filter fun entry =>
    entry.2.isSigner == isSigner && entry.2.isWritable == isWritable).map Prod.fst

/-! ## `Message` -/

structure MessageHeader where
  numRequiredSignatures : UInt8
  numReadonlySignedAccounts : UInt8
  numReadonlyUnsignedAccounts : UInt8

structure CompiledInstruction where
  programIdIndex : UInt8
  accounts : List UInt8
  data : List UInt8

/-- `solana_sdk::message::Message`. -/
structure SolanaMessage where
  header : MessageHeader
  accountKeys : List Pubkey
  recentBlockhash : Bytes32
  instructions : List CompiledInstruction

/-- `TryInto<u8>` of a `usize`. -/
def tryIntoU8 (n : Nat) : Option UInt8 := if n < 2 ^ 8 then some (UInt8.ofNat n) else none

/-- The index of a key among the keys of a message. -/
def position (accountKeys : List Pubkey) (key : Pubkey) : UInt8 :=
  UInt8.ofNat (accountKeys.idxOf key)

def compileInstruction (accountKeys : List Pubkey) (ix : Instruction) : CompiledInstruction where
  programIdIndex := position accountKeys ix.programId
  accounts := ix.accounts.map fun account => position accountKeys account.pubkey
  data := ix.data

/-- `Message::new_with_blockhash`; `none` is the panic on too many keys. -/
def SolanaMessage.newWithBlockhash (ixs : List Instruction) (payer : Pubkey) (blockhash : Bytes32) :
    Option SolanaMessage := do
  let map := (compileKeys ixs payer).erase payer
  let writableSigners := payer :: selectKeys map true true
  let readonlySigners := selectKeys map true false
  let writableNonSigners := selectKeys map false true
  let readonlyNonSigners := selectKeys map false false
  let numRequiredSignatures ← tryIntoU8 (writableSigners.length + readonlySigners.length)
  let numReadonlySigned ← tryIntoU8 readonlySigners.length
  let numReadonlyUnsigned ← tryIntoU8 readonlyNonSigners.length
  let accountKeys := writableSigners ++ readonlySigners ++ writableNonSigners ++ readonlyNonSigners
  return {
    header := ⟨numRequiredSignatures, numReadonlySigned, numReadonlyUnsigned⟩
    accountKeys := accountKeys
    recentBlockhash := blockhash
    instructions := ixs.map (compileInstruction accountKeys) }

/-! ## `Transaction` -/

structure Transaction where
  signatures : List Signature
  message : SolanaMessage

/--
`Transaction::new_signed_with_payer`, signed by the payer alone. The payer is the first
key; `none` is the panic when another signature is required.
-/
def Transaction.newSignedWithPayer (sign : SolanaMessage → Signature) (ixs : List Instruction)
    (payer : Pubkey) (blockhash : Bytes32) : Option Transaction := do
  let message ← SolanaMessage.newWithBlockhash ixs payer blockhash
  if message.header.numRequiredSignatures = 1 then return ⟨[sign message], message⟩ else none

/-- The key an index stands for; those of a compiled message are in bounds. -/
def SolanaMessage.key (message : SolanaMessage) (index : UInt8) : Pubkey :=
  message.accountKeys.getD index.toNat (.filled 0)

/-- An instruction with its keys in the place of their indices. -/
def SolanaMessage.parsedIx (message : SolanaMessage) (ix : CompiledInstruction) : ParsedIx where
  programId := message.key ix.programIdIndex
  accounts := ix.accounts.map message.key
  data := ix.data

/-- The instructions of a transaction, as a node reads them. -/
def Transaction.parsedIxs (tx : Transaction) : List ParsedIx :=
  tx.message.instructions.map tx.message.parsedIx

/-! ## The wire format -/

def serializeByte (byte : UInt8) : List UInt8 := [byte]

def CompiledInstruction.serialize (ix : CompiledInstruction) : Option (List UInt8) := do
  let accounts ← ShortVec.serialize serializeByte ix.accounts
  let data ← ShortVec.serialize serializeByte ix.data
  return ix.programIdIndex :: (accounts ++ data)

def MessageHeader.serialize (header : MessageHeader) : List UInt8 :=
  [header.numRequiredSignatures, header.numReadonlySignedAccounts,
    header.numReadonlyUnsignedAccounts]

def SolanaMessage.serialize (message : SolanaMessage) : Option (List UInt8) := do
  let accountKeys ← ShortVec.serialize (fun key : Pubkey => key.bytes.toList) message.accountKeys
  let serialized ← message.instructions.mapM CompiledInstruction.serialize
  let instructions ← ShortVec.serialize id serialized
  return message.header.serialize ++ accountKeys ++ message.recentBlockhash.toList ++ instructions

/-- `bincode::serialize`. -/
def Transaction.serialize (tx : Transaction) : Option (List UInt8) := do
  let signatures ← ShortVec.serialize (fun s : Signature => s.bytes.toList) tx.signatures
  let message ← tx.message.serialize
  return signatures ++ message

end AxelarRelayer.Task
