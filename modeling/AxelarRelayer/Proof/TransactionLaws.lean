import AxelarRelayer.Proof.MessageKeys

/-!
# What is used of `solana_sdk`'s transactions

Messages, their signing and their bytes are the work of crates the relayer depends on.
What the results rest on are a handful of laws (`TransactionLaws`): which keys a message
has, when the relayer's signature is enough, and how many bytes a transaction takes. The
definitions of this model keep them (`transactionLaws`), and so would any other that does.
-/

namespace AxelarRelayer.Proof

open AxelarRelayer AxelarRelayer.Task ShortVec

variable {sign : SolanaMessage → Signature} {ixs ixs' : List Instruction} {payer : Pubkey}
  {blockhash : Bytes32} {tx : Transaction}

/-! ## What a transaction takes up -/

def compiledSize (ix : CompiledInstruction) : Nat :=
  lengthSize ix.accounts.length + ix.accounts.length +
    (lengthSize ix.data.length + ix.data.length) + 1

theorem sized_bytes (bytes : List UInt8) : Sized (serialize serializeByte bytes)
    (bytes.length < 2 ^ 16) (lengthSize bytes.length + 1 * bytes.length) := by
  have hone : ∀ byte, (serializeByte byte).length = 1 := fun _ => rfl
  exact sized_serialize_const hone bytes

theorem sized_compiled (ix : CompiledInstruction) : Sized ix.serialize
    (ix.accounts.length < 2 ^ 16 ∧ ix.data.length < 2 ^ 16) (compiledSize ix) := by
  have hboth := (sized_bytes ix.accounts).both (sized_bytes ix.data) (c := 1)
    (f := fun accounts data => ix.programIdIndex :: (accounts ++ data)) fun accounts data => by
      rw [List.length_cons, List.length_append]
  refine hboth.congr Iff.rfl ?_
  rw [compiledSize, Nat.one_mul, Nat.one_mul]

def messageSize (message : SolanaMessage) : Nat :=
  lengthSize message.accountKeys.length + 32 * message.accountKeys.length +
    (lengthSize message.instructions.length + (message.instructions.map compiledSize).sum) + 35

/-- Every list in the message is short enough. -/
def ShortMessage (message : SolanaMessage) : Prop :=
  message.accountKeys.length < 2 ^ 16 ∧ message.instructions.length < 2 ^ 16 ∧
    ∀ ix ∈ message.instructions, ix.accounts.length < 2 ^ 16 ∧ ix.data.length < 2 ^ 16

theorem sized_message (message : SolanaMessage) :
    Sized message.serialize (ShortMessage message) (messageSize message) := by
  have hkeys : Sized (serialize (fun key : Pubkey => key.bytes.toList) message.accountKeys)
      (message.accountKeys.length < 2 ^ 16)
      (lengthSize message.accountKeys.length + 32 * message.accountKeys.length) :=
    sized_serialize_const (fun key => key.bytes.length_toList) message.accountKeys
  have hboth := hkeys.both (sized_serialize_mapM sized_compiled message.instructions) (c := 35)
    (f := fun accountKeys instructions => message.header.serialize ++ accountKeys ++
      message.recentBlockhash.toList ++ instructions) fun accountKeys instructions => by
      simp only [MessageHeader.serialize, List.length_append, List.length_cons, List.length_nil,
        Vector.length_toList]
      omega
  simp only [bind_assoc] at hboth
  exact hboth.congr Iff.rfl rfl

theorem sized_transaction (tx : Transaction) : Sized tx.serialize
    (tx.signatures.length < 2 ^ 16 ∧ ShortMessage tx.message)
    (lengthSize tx.signatures.length + 64 * tx.signatures.length + messageSize tx.message) := by
  have hsignatures : Sized (serialize (fun s : Signature => s.bytes.toList) tx.signatures)
      (tx.signatures.length < 2 ^ 16)
      (lengthSize tx.signatures.length + 64 * tx.signatures.length) :=
    sized_serialize_const (fun s => s.bytes.length_toList) tx.signatures
  exact hsignatures.both (sized_message tx.message) (c := 0) (f := fun a b => a ++ b)
    fun a b => List.length_append

/-- The bytes of a transaction: its signatures, and its message behind them. -/
def transactionSize (tx : Transaction) : Nat :=
  lengthSize tx.signatures.length + 64 * tx.signatures.length + messageSize tx.message

/-! ## Signing -/

theorem newSignedWithPayer_cases
    (h : Transaction.newSignedWithPayer sign ixs payer blockhash = some tx) :
    SolanaMessage.newWithBlockhash ixs payer blockhash = some tx.message ∧
      tx.signatures = [sign tx.message] ∧ tx.message.header.numRequiredSignatures = 1 := by
  obtain ⟨message, hmessage, htx⟩ := Option.bind_eq_some_iff.mp h
  split at htx
  · rename_i hone
    obtain rfl := Option.some.inj htx
    exact ⟨hmessage, rfl, hone⟩
  · cases htx

/-- One signature is the payer's. -/
theorem payerSigns_of_one {message : SolanaMessage}
    (hmessage : SolanaMessage.newWithBlockhash ixs payer blockhash = some message)
    (hone : message.header.numRequiredSignatures = 1) : PayerSigns ixs payer := by
  obtain ⟨signatures, hsignatures, hrest⟩ := Option.bind_eq_some_iff.mp hmessage
  obtain ⟨readonlySigned, -, hrest⟩ := Option.bind_eq_some_iff.mp hrest
  obtain ⟨readonlyUnsigned, -, hrest⟩ := Option.bind_eq_some_iff.mp hrest
  obtain rfl := Option.some.inj hrest
  have hcount : (payer :: selectKeys (otherKeys ixs payer) true true).length +
      (selectKeys (otherKeys ixs payer) true false).length = 1 := by
    unfold tryIntoU8 at hsignatures
    split at hsignatures
    · rename_i hlt
      have hmod := congrArg UInt8.toNat ((Option.some.inj hsignatures).trans hone)
      rw [UInt8.toNat_ofNat', Nat.mod_eq_of_lt hlt] at hmod
      exact hmod
    · cases hsignatures
  rw [List.length_cons] at hcount
  refine otherKeys_signers_iff.mp fun isWritable => ?_
  cases isWritable with
  | true => exact List.length_eq_zero_iff.mp (by omega)
  | false => exact List.length_eq_zero_iff.mp (by omega)

theorem exists_signed_of_message (h : PayerSigns ixs payer) {message : SolanaMessage}
    (hmessage : SolanaMessage.newWithBlockhash ixs payer blockhash = some message) :
    ∃ tx, Transaction.newSignedWithPayer sign ixs payer blockhash = some tx := by
  refine ⟨⟨[sign message], message⟩, ?_⟩
  rw [Transaction.newSignedWithPayer, hmessage]
  exact if_pos (newWithBlockhash_compiled h hmessage).signatures

/-! ## The laws -/

/-- The laws of `Message::new_with_blockhash`, `new_signed_with_payer` and `bincode::serialize`. -/
structure TransactionLaws
    (newWithBlockhash : List Instruction → Pubkey → Bytes32 → Option SolanaMessage)
    (newSignedWithPayer : (SolanaMessage → Signature) → List Instruction → Pubkey → Bytes32 →
      Option Transaction)
    (serialize : Transaction → Option (List UInt8)) : Prop where
  /-- every key once, and instructions that refer to keys by their index -/
  compiled : ∀ ixs payer blockhash message, PayerSigns ixs payer →
    newWithBlockhash ixs payer blockhash = some message → Compiled ixs payer message
  /-- what is signed is the message, with one signature -/
  signed : ∀ sign ixs payer blockhash tx, newSignedWithPayer sign ixs payer blockhash = some tx →
    newWithBlockhash ixs payer blockhash = some tx.message ∧ tx.signatures = [sign tx.message]
  /-- where another key has to sign there is a panic -/
  payerSigns : ∀ sign ixs payer blockhash tx,
    newSignedWithPayer sign ixs payer blockhash = some tx → PayerSigns ixs payer
  /-- where the payer's signature is enough there is none, unless there are too many keys -/
  exists_signed : ∀ sign ixs payer blockhash, PayerSigns ixs payer →
    (keySet ixs payer).card ≤ 2 ^ 8 → ∃ tx, newSignedWithPayer sign ixs payer blockhash = some tx
  /-- nor where other instructions with the same mentions could be signed -/
  exists_signed_congr : ∀ sign ixs ixs' payer blockhash blockhash' tx,
    (∀ account, account ∈ mentions ixs payer ↔ account ∈ mentions ixs' payer) →
    newSignedWithPayer sign ixs payer blockhash = some tx →
    ∃ tx', newSignedWithPayer sign ixs' payer blockhash' = some tx'
  /-- lists stand behind compact lengths -/
  serialized : ∀ tx, Sized (serialize tx) (tx.signatures.length < 2 ^ 16 ∧ ShortMessage tx.message)
    (transactionSize tx)

/-- The model's transactions keep the laws. -/
theorem transactionLaws : TransactionLaws SolanaMessage.newWithBlockhash
    Transaction.newSignedWithPayer Transaction.serialize where
  compiled := fun _ _ _ _ => newWithBlockhash_compiled
  signed := by
    intro sign ixs payer blockhash tx h
    obtain ⟨hmessage, hsignatures, -⟩ := newSignedWithPayer_cases h
    exact ⟨hmessage, hsignatures⟩
  payerSigns := by
    intro sign ixs payer blockhash tx h
    obtain ⟨hmessage, -, hone⟩ := newSignedWithPayer_cases h
    exact payerSigns_of_one hmessage hone
  exists_signed := by
    intro sign ixs payer blockhash h hfew
    obtain ⟨message, hmessage⟩ := exists_message h hfew blockhash
    exact exists_signed_of_message h hmessage
  exists_signed_congr := by
    intro sign ixs ixs' payer blockhash blockhash' tx hsame h
    obtain ⟨hmessage, -, hone⟩ := newSignedWithPayer_cases h
    obtain ⟨h', message', hmessage'⟩ :=
      exists_message_congr hsame (payerSigns_of_one hmessage hone) hmessage blockhash'
    exact exists_signed_of_message h' hmessage'
  serialized := sized_transaction

/-- A signed transaction is compiled from its instructions. -/
theorem compiled_of_signed
    (h : Transaction.newSignedWithPayer sign ixs payer blockhash = some tx) :
    Compiled ixs payer tx.message :=
  transactionLaws.compiled _ _ _ _ (transactionLaws.payerSigns _ _ _ _ _ h)
    (transactionLaws.signed _ _ _ _ _ h).1

end AxelarRelayer.Proof
