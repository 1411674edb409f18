import AxelarRelayer.Proof.Sending
import AxelarRelayer.Proof.TransactionLaws
import AxelarRelayer.Task.ChunkSize

/-!
# Chunks that fit

The baseline has one key for the gateway root and the payer, a write transaction has
two: 32 bytes more. Its data is longer by the chunk, and the length of the data takes
up to two bytes more. `MAX_CHUNK_SIZE` leaves 36 bytes, so everything fits.

That a write transaction has at most one key more needs that the keys of the baseline
are as many as they can be: a fresh key, and addresses derived from it, collide with
nothing.
-/

namespace AxelarRelayer.Proof

open AxelarRelayer AxelarRelayer.Task ShortVec

variable {payer : Pubkey}

/-! ## Write transactions -/

/-- Two compute budget instructions: no accounts, and 14 bytes of data in all. -/
structure BudgetPair (first second : Instruction) : Prop where
  first_programId : first.programId = COMPUTE_BUDGET_ID
  second_programId : second.programId = COMPUTE_BUDGET_ID
  first_accounts : first.accounts = []
  second_accounts : second.accounts = []
  data : first.data.length + second.data.length = 14

theorem budgetPair_price_limit (price units : Nat) : BudgetPair
    (computeBudgetIx (setComputeUnitPrice price)) (computeBudgetIx (setComputeUnitLimit units)) where
  first_programId := rfl
  second_programId := rfl
  first_accounts := rfl
  second_accounts := rfl
  data := by
    simp only [computeBudgetIx, setComputeUnitPrice, setComputeUnitLimit, List.length_cons,
      LittleEndian.length_encode]

theorem BudgetPair.symm {first second : Instruction} (h : BudgetPair first second) :
    BudgetPair second first where
  first_programId := h.second_programId
  second_programId := h.first_programId
  first_accounts := h.second_accounts
  second_accounts := h.first_accounts
  data := by rw [Nat.add_comm, h.data]

/-- The size of a write transaction with this many keys, accounts and bytes of data. -/
def packetSize (keys accounts data : Nat) : Nat :=
  lengthSize keys + 32 * keys + (lengthSize accounts + accounts) + (lengthSize data + data) + 122

variable {first second ix : Instruction}

theorem payerSigns_write (hbudget : BudgetPair first second)
    (hix : ∀ account ∈ ix.accounts, account.isSigner = true → account.pubkey = payer) :
    PayerSigns [first, second, ix] payer := by
  intro i hi account haccount
  simp only [List.mem_cons, List.not_mem_nil, or_false] at hi
  rcases hi with rfl | rfl | rfl
  · rw [hbudget.first_accounts] at haccount
    cases haccount
  · rw [hbudget.second_accounts] at haccount
    cases haccount
  · exact hix account haccount

/-- An instruction without accounts. -/
theorem compiledSize_of_accounts_nil {keys : List Pubkey} {i : Instruction}
    (haccounts : i.accounts = []) (hdata : i.data.length < 128) :
    compiledSize (compileInstruction keys i) = i.data.length + 3 := by
  have hzero : lengthSize 0 = 1 := rfl
  simp only [compiledSize, compileInstruction, haccounts, List.map_nil, List.length_nil,
    lengthSize_of_lt hdata, hzero]
  omega

/-- **The size of a write transaction.** -/
theorem sized_write {tx : Transaction} {keys : List Pubkey} {n : Nat}
    (hbudget : BudgetPair first second) (hsignatures : tx.signatures.length = 1)
    (hkeys : tx.message.accountKeys.length = n)
    (hixs : tx.message.instructions = [first, second, ix].map (compileInstruction keys)) :
    Sized tx.serialize (n < 2 ^ 16 ∧ ix.accounts.length < 2 ^ 16 ∧ ix.data.length < 2 ^ 16)
      (packetSize n ix.accounts.length ix.data.length) := by
  have hdata := hbudget.data
  refine (sized_transaction tx).congr ?_ ?_
  · rw [ShortMessage, hsignatures, hkeys, hixs]
    simp only [compileInstruction, List.map_cons, List.map_nil, List.forall_mem_cons,
      List.length_cons, List.length_nil, List.length_map, hbudget.first_accounts,
      hbudget.second_accounts]
    -- the budget instructions are short whatever they say; only the third one counts
    constructor
    · rintro ⟨-, hn, -, -, -, hix, -⟩
      exact ⟨hn, hix⟩
    · rintro ⟨hn, hix⟩
      exact ⟨by omega, hn, by omega, ⟨by omega, by omega⟩, ⟨by omega, by omega⟩, hix,
        fun _ h => absurd h List.not_mem_nil⟩
  · have hfirst : compiledSize (compileInstruction keys first) = first.data.length + 3 :=
      compiledSize_of_accounts_nil hbudget.first_accounts (by omega)
    have hsecond : compiledSize (compileInstruction keys second) = second.data.length + 3 :=
      compiledSize_of_accounts_nil hbudget.second_accounts (by omega)
    have hwrite : compiledSize (compileInstruction keys ix) =
        lengthSize ix.accounts.length + ix.accounts.length +
          (lengthSize ix.data.length + ix.data.length) + 1 := by
      simp only [compiledSize, compileInstruction, List.length_map]
    have hone : lengthSize 1 = 1 := rfl
    have hthree : lengthSize (0 + 1 + 1 + 1) = 1 := rfl
    rw [messageSize, hsignatures, hkeys, hixs, packetSize]
    simp only [List.map_cons, List.map_nil, List.length_cons, List.length_nil, List.sum_cons,
      List.sum_nil, hfirst, hsecond, hwrite, hone, hthree]
    omega

/-! ## The gateway's instruction -/

/-- What a write instruction of the gateway looks like. -/
structure WriteLayout where
  gatewayId : Pubkey
  /-- the addresses derived from the payer and the command id -/
  pdas : Pubkey → Bytes32 → List Pubkey
  pdaCount : Nat
  /-- the bytes of the data besides the chunk and its length -/
  fixedSize : Nat

variable {layout : WriteLayout} {gatewayRoot : Pubkey} {commandId : Bytes32} {bytes : List UInt8}
  {writeMessagePayload : WriteMessagePayload}

structure WriteLayout.Builds (layout : WriteLayout) (gatewayRoot payer : Pubkey)
    (commandId : Bytes32) (bytes : List UInt8) (ix : Instruction) : Prop where
  programId : ix.programId = layout.gatewayId
  accounts : (ix.accounts.map AccountMeta.pubkey).Perm
    (payer :: gatewayRoot :: layout.pdas payer commandId)
  signer : ∀ account ∈ ix.accounts, account.isSigner = true → account.pubkey = payer
  data : ix.data.length = layout.fixedSize + 4 + bytes.length

/-- The builder builds such instructions. -/
structure WriteLayout.Describes (layout : WriteLayout) (writeMessagePayload : WriteMessagePayload) :
    Prop where
  builds : ∀ gatewayRoot payer commandId bytes offset ix,
    writeMessagePayload gatewayRoot payer commandId bytes offset = .ok ix →
      layout.Builds gatewayRoot payer commandId bytes ix
  pdaCount : ∀ payer commandId, (layout.pdas payer commandId).length = layout.pdaCount

/-- A key that collides neither with a program nor with what is derived from it. -/
def WriteLayout.Fresh (layout : WriteLayout) (key : Pubkey) : Prop :=
  (key :: layout.gatewayId :: COMPUTE_BUDGET_ID :: layout.pdas key key.bytes).Nodup

/-- The keys of a write transaction. -/
theorem mem_write_keySet (hbudget : BudgetPair first second)
    (hix : layout.Builds gatewayRoot payer commandId bytes ix) (key : Pubkey) :
    key ∈ keySet [first, second, ix] payer ↔
      key ∈ payer :: layout.gatewayId :: COMPUTE_BUDGET_ID :: gatewayRoot ::
        layout.pdas payer commandId := by
  have haccounts : key ∈ ix.accounts.map AccountMeta.pubkey ↔
      key ∈ payer :: gatewayRoot :: layout.pdas payer commandId := hix.accounts.mem_iff
  simp only [keySet, List.mem_toFinset, mentions, List.flatMap_cons, List.flatMap_nil, hbudget.first_accounts,
    hbudget.second_accounts, List.map_append, List.map_cons, List.map_nil, List.mem_append,
    List.mem_cons, List.not_mem_nil, haccounts, hix.programId, hbudget.first_programId,
    hbudget.second_programId]
  tauto

/-- At most the payer, the gateway root, two programs and what is derived. -/
theorem card_write_le (hbudget : BudgetPair first second)
    (hix : layout.Builds gatewayRoot payer commandId bytes ix) :
    (keySet [first, second, ix] payer).card ≤ (layout.pdas payer commandId).length + 4 := by
  have hsame : keySet [first, second, ix] payer =
      (payer :: layout.gatewayId :: COMPUTE_BUDGET_ID :: gatewayRoot ::
        layout.pdas payer commandId).toFinset := by
    ext key
    rw [List.mem_toFinset, mem_write_keySet hbudget hix]
  rw [hsame]
  exact List.toFinset_card_le _

/-- The baseline has no fewer keys than that, but for the second wallet key. -/
theorem le_card_baseline (hbudget : BudgetPair first second) {key : Pubkey}
    (hix : layout.Builds key key key.bytes bytes ix) (hfresh : layout.Fresh key) :
    (layout.pdas key key.bytes).length + 3 ≤ (keySet [first, second, ix] key).card := by
  have hcard := List.toFinset_card_of_nodup hfresh
  have hsubset : (key :: layout.gatewayId :: COMPUTE_BUDGET_ID ::
      layout.pdas key key.bytes).toFinset ⊆ keySet [first, second, ix] key := by
    intro other hother
    rw [List.mem_toFinset] at hother
    rw [mem_write_keySet hbudget hix]
    simp only [List.mem_cons] at hother ⊢
    tauto
  have hle := Finset.card_le_card hsubset
  simp only [List.length_cons] at hcard
  omega

/-! ## The chunk size -/

/-- How `MAX_CHUNK_SIZE` comes from the size of the baseline. -/
theorem maxChunkSize_eq (hlayout : layout.Describes writeMessagePayload) {key : Pubkey} {n : Nat}
    (hmax : MAX_CHUNK_SIZE writeMessagePayload key = some n) :
    ∃ first second ix, BudgetPair first second ∧ layout.Builds key key key.bytes [] ix ∧
      ix.accounts.length < 2 ^ 16 ∧
      n = PACKET_DATA_SIZE - packetSize (keySet [first, second, ix] key).card
        ix.accounts.length ix.data.length - 1 - 35 := by
  obtain ⟨tx, hbaseline, hmax⟩ := Option.bind_eq_some_iff.mp hmax
  obtain ⟨packet, hpacket, hmax⟩ := Option.bind_eq_some_iff.mp hmax
  obtain ⟨ix, hwrite, hbaseline⟩ := Option.bind_eq_some_iff.mp hbaseline
  obtain ⟨message, hmessage, hbaseline⟩ := Option.bind_eq_some_iff.mp hbaseline
  obtain rfl := Option.some.inj hmax
  obtain rfl := Option.some.inj hbaseline
  have hbuilt : writeMessagePayload key key key.bytes [] 0 = .ok ix := by
    cases hresult : writeMessagePayload key key key.bytes [] 0 with
    | error e => rw [hresult] at hwrite; cases hwrite
    | ok built => rw [hresult] at hwrite; exact congrArg _ (Option.some.inj hwrite)
  have hix := hlayout.builds _ _ _ _ _ _ hbuilt
  -- the baseline is a write of no bytes with the budget instructions in front of it
  have hbudget := (budgetPair_price_limit 1000 1400000).symm
  have hcompiled := transactionLaws.compiled _ _ _ _ (payerSigns_write hbudget hix.signer) hmessage
  have hsignatures : (List.replicate message.header.numRequiredSignatures.toNat
      (Signature.filled 0)).length = 1 := by
    rw [hcompiled.signatures, List.length_replicate]
    rfl
  obtain ⟨⟨-, haccounts, -⟩, hlength⟩ := (sized_write hbudget hsignatures
    hcompiled.length_accountKeys hcompiled.instructions).of_eq_some packet hpacket
  refine ⟨_, _, ix, hbudget, hix, haccounts, ?_⟩
  rw [hlength]

/-- A transaction with few keys gets signed. -/
theorem exists_signed (hbudget : BudgetPair first second)
    (hix : layout.Builds gatewayRoot payer commandId bytes ix)
    (hfew : (keySet [first, second, ix] payer).card ≤ 2 ^ 8) (sign : SolanaMessage → Signature)
    (blockhash : Bytes32) :
    ∃ tx, Transaction.newSignedWithPayer sign [first, second, ix] payer blockhash = some tx ∧
      tx.signatures.length = 1 ∧ Compiled [first, second, ix] payer tx.message := by
  obtain ⟨tx, htx⟩ := transactionLaws.exists_signed sign _ payer blockhash
    (payerSigns_write hbudget hix.signer) hfew
  refine ⟨tx, htx, ?_, compiled_of_signed htx⟩
  rw [(transactionLaws.signed _ _ _ _ _ htx).2, List.length_singleton]

/-- The sender puts a price and a limit in front of the instruction. -/
theorem evaluateComputeIxs_evaluatedIxs {ctx : Context} {w w' : World}
    {sender : EffectiveTxSender Evaluated}
    (h : evaluateComputeIxs ctx ⟨[ix.parsed]⟩ w = .ok sender w') :
    ∃ price units, sender.ixs = (evaluatedIxs price units ix).map Instruction.parsed := by
  obtain ⟨t, fees, limit, -, -, hsent⟩ := (reads_evaluateComputeIxs [ix.parsed]).value h
  exact ⟨averageFee fees, limit, hsent⟩

/--
**Every chunk fits.** For every chunk of at most `MAX_CHUNK_SIZE` bytes and every gateway
root, payer, command id and offset: whatever the sender puts in front of the write
instruction is a price and a limit, and with any of these the transaction is signed, by
the payer alone, and its packet is not too large.
-/
theorem write_fits_packet (layout : WriteLayout) (writeMessagePayload : WriteMessagePayload)
    (hlayout : layout.Describes writeMessagePayload) (randomPubkey : Pubkey)
    (hfresh : layout.Fresh randomPubkey) (n : Nat)
    (hmax : MAX_CHUNK_SIZE writeMessagePayload randomPubkey = some n) (hpos : 0 < n)
    (bytes : List UInt8) (hchunk : bytes.length ≤ n) (gatewayRoot payer : Pubkey)
    (commandId : Bytes32) (offset : Nat) (ix : Instruction)
    (hix : writeMessagePayload gatewayRoot payer commandId bytes offset = .ok ix) :
    (∀ ctx w sender w', evaluateComputeIxs ctx ⟨[ix.parsed]⟩ w = .ok sender w' →
      ∃ price units, sender.ixs = (evaluatedIxs price units ix).map Instruction.parsed) ∧
    ∀ price units sign blockhash, ∃ tx packet,
      Transaction.newSignedWithPayer sign (evaluatedIxs price units ix) payer blockhash = some tx ∧
        tx.signatures.length = 1 ∧ Compiled (evaluatedIxs price units ix) payer tx.message ∧
        tx.serialize = some packet ∧ packet.length ≤ PACKET_DATA_SIZE := by
  refine ⟨fun _ _ _ _ heval => evaluateComputeIxs_evaluatedIxs heval, ?_⟩
  intro price units sign blockhash
  obtain ⟨first, second, baseline, hbudget₀, hbuilt₀, haccounts₀, hn⟩ :=
    maxChunkSize_eq hlayout hmax
  have hbudget := budgetPair_price_limit price units
  have hbuilt := hlayout.builds _ _ _ _ _ _ hix
  -- one key more at the most
  have hkeys := card_write_le hbudget hbuilt
  have hkeys₀ := le_card_baseline hbudget₀ hbuilt₀ hfresh
  rw [hlayout.pdaCount] at hkeys hkeys₀
  -- the same accounts, and the chunk on top of the data
  have haccounts : ix.accounts.length = baseline.accounts.length := by
    have hlength := hbuilt.accounts.length_eq
    have hlength₀ := hbuilt₀.accounts.length_eq
    rw [List.length_map, List.length_cons, List.length_cons, hlayout.pdaCount] at hlength hlength₀
    omega
  have hdata := hbuilt.data
  have hdata₀ := hbuilt₀.data
  rw [List.length_nil] at hdata₀
  rw [packetSize] at hn
  have hpacket : PACKET_DATA_SIZE = 1232 := rfl
  have hwide := lengthSize_le ix.data.length
  have hnarrow := one_le_lengthSize baseline.data.length
  have hkeysWide := one_le_lengthSize (keySet [first, second, baseline] randomPubkey).card
  have hfew : (keySet (evaluatedIxs price units ix) payer).card < 128 := by
    change (keySet [_, _, ix] payer).card < 128
    omega
  have hkeysNarrow := lengthSize_of_lt hfew
  obtain ⟨tx, htx, hsignatures, hcompiled⟩ :=
    exists_signed hbudget hbuilt (by exact Nat.le_of_lt (by omega)) sign blockhash
  have hsized := sized_write hbudget hsignatures hcompiled.length_accountKeys
    hcompiled.instructions
  obtain ⟨packet, hserialized⟩ := hsized.exists_bytes ⟨by omega, by omega, by omega⟩
  refine ⟨tx, packet, htx, hsignatures, hcompiled, hserialized, ?_⟩
  rw [(hsized.of_eq_some packet hserialized).2, packetSize, haccounts]
  rw [evaluatedIxs] at hkeysNarrow
  omega

/-! ## A gateway -/

/-- Two derived accounts; the data is a tag, the offset, the chunk and the command id. -/
def sampleWrite : WriteMessagePayload := fun gatewayRoot payer commandId bytes offset => .ok {
  programId := .filled 1
  accounts := [⟨payer, true, true⟩, ⟨gatewayRoot, false, false⟩, ⟨.filled 2, false, false⟩,
    ⟨.filled 3, false, true⟩]
  data := 4 :: (LittleEndian.encode 8 offset ++ LittleEndian.encode 4 bytes.length ++ bytes ++
    commandId.toList) }

def sampleLayout : WriteLayout := ⟨.filled 1, fun _ _ => [.filled 2, .filled 3], 2, 41⟩

theorem sampleLayout_describes : sampleLayout.Describes sampleWrite where
  pdaCount := fun _ _ => rfl
  builds := by
    intro gatewayRoot payer commandId bytes offset ix hix
    obtain rfl := Except.ok.inj hix
    refine ⟨rfl, List.Perm.refl _, ?_, ?_⟩
    · intro account haccount hsigns
      simp only [List.mem_cons, List.not_mem_nil, or_false] at haccount
      rcases haccount with rfl | rfl | rfl | rfl
      · rfl
      · cases hsigns
      · cases hsigns
      · cases hsigns
    · simp only [List.length_cons, List.length_append, LittleEndian.length_encode,
        Vector.length_toList, sampleLayout]
      omega

/-- The chunk size is 862, and a chunk of that size fits behind two others. -/
theorem full_chunk_fits : MAX_CHUNK_SIZE sampleWrite (.filled 9) = some 862 ∧
    ∃ ix, sampleWrite (.filled 7) (.filled 8) (Vector.replicate 32 5) (List.replicate 862 0) 1724 =
      .ok ix ∧
    ∀ price units sign blockhash, ∃ tx packet,
      Transaction.newSignedWithPayer sign (evaluatedIxs price units ix) (.filled 8) blockhash =
        some tx ∧ tx.signatures.length = 1 ∧
          Compiled (evaluatedIxs price units ix) (.filled 8) tx.message ∧
          tx.serialize = some packet ∧ packet.length ≤ PACKET_DATA_SIZE := by
  have hsize : MAX_CHUNK_SIZE sampleWrite (.filled 9) = some 862 := by decide +kernel
  have hfresh : sampleLayout.Fresh (.filled 9) := by
    change (_ : List Pubkey).Nodup
    decide +kernel
  have hfits := write_fits_packet sampleLayout sampleWrite sampleLayout_describes (.filled 9) hfresh
    862 hsize (by decide) (List.replicate 862 0) (by rw [List.length_replicate]) (.filled 7)
    (.filled 8) (Vector.replicate 32 5) 1724 _ rfl
  exact ⟨hsize, _, rfl, hfits.2⟩

end AxelarRelayer.Proof
