import AxelarRelayer.Listener.FetchTransaction

/-!
# How instruction accounts are resolved

`fetch_transaction` looks every index of an instruction up in the static keys alone,
and only then appends the loaded ones. What it finds stays right, for appending
moves no key (`Resolves.append`); but an index that points into a lookup table is an
error. So a complete answer is resolved exactly when no instruction uses a loaded key
(`resolved_iff`).
-/

namespace AxelarRelayer.Proof

open AxelarRelayer AxelarRelayer.Listener

variable {env : FetchEnv} {signature : Signature}
  {response : EncodedConfirmedTransactionWithStatusMeta} {message : VersionedMessage}
  {keys more writable readonly : List Pubkey} {ix : CompiledInstruction} {parsed : ParsedIx}

/-- The answer decodes and has all that is asked for; its loaded addresses are keys. -/
structure Complete (env : FetchEnv) (response : EncodedConfirmedTransactionWithStatusMeta)
    (message : VersionedMessage) (writable readonly : List Pubkey) : Prop where
  decoded : response.message = some message
  included : ∃ txMeta, response.txMeta = some txMeta ∧
    (∃ logs, txMeta.logMessages = .some logs) ∧ (∃ inner, txMeta.innerInstructions = .some inner) ∧
    List.Forall₂ (fun text key => env.parsePubkey text = .ok key) txMeta.loaded.writable writable ∧
    List.Forall₂ (fun text key => env.parsePubkey text = .ok key) txMeta.loaded.readonly readonly

/-- Every index an instruction uses is below `count`. -/
def IndicesBelow (count : Nat) (ix : CompiledInstruction) : Prop :=
  ix.programIdIndex.toNat < count ∧ ∀ idx ∈ ix.accounts, idx.toNat < count

instance (count : Nat) (ix : CompiledInstruction) : Decidable (IndicesBelow count ix) :=
  inferInstanceAs (Decidable (_ ∧ _))

/-- An instruction was parsed by looking its indices up in `keys`. -/
structure Resolves (keys : List Pubkey) (ix : CompiledInstruction) (parsed : ParsedIx) : Prop where
  program : keys[ix.programIdIndex.toNat]? = some parsed.programId
  accounts : List.Forall₂ (fun idx account => keys[idx.toNat]? = some account) ix.accounts
    parsed.accounts

/-- The call succeeds, with the full account list and every instruction resolved against it. -/
def Resolved (env : FetchEnv) (signature : Signature) (message : VersionedMessage)
    (writable readonly : List Pubkey) : Prop :=
  ∃ fetched, fetchTransaction env signature = .ok fetched ∧
    fetched.status.tx.accountKeys = message.staticAccountKeys ++ writable ++ readonly ∧
    List.Forall₂ (Resolves fetched.status.tx.accountKeys) message.instructions
      fetched.status.tx.ixs

/-! ## One instruction -/

theorem accountAt_eq_ok {idx : UInt8} {account : Pubkey} :
    accountAt keys idx = .ok account ↔ keys[idx.toNat]? = some account := by
  unfold accountAt
  cases keys[idx.toNat]? with
  | none => exact ⟨fun h => (by cases h), fun h => (by cases h)⟩
  | some found => exact ⟨fun h => congrArg _ (Except.ok.inj h), fun h => congrArg _ (Option.some.inj h)⟩

theorem parseInstruction_eq_ok :
    parseInstruction keys ix = .ok parsed ↔ Resolves keys ix parsed ∧ parsed.data = ix.data := by
  constructor
  · intro h
    obtain ⟨programId, hprogram, h⟩ := Effect.bind_eq_ok h
    obtain ⟨accounts, haccounts, h⟩ := Effect.bind_eq_ok h
    obtain rfl := Except.ok.inj h
    refine ⟨⟨accountAt_eq_ok.mp hprogram, ?_⟩, rfl⟩
    exact (Effect.mapM_eq_ok.mp haccounts).imp fun _ _ => accountAt_eq_ok.mp
  · intro ⟨hresolves, hdata⟩
    have haccounts : ix.accounts.mapM (accountAt keys) = .ok parsed.accounts :=
      Effect.mapM_eq_ok.mpr (hresolves.accounts.imp fun _ _ => accountAt_eq_ok.mpr)
    rw [parseInstruction, accountAt_eq_ok.mpr hresolves.program, haccounts, ← hdata]
    rfl

/-- Appending keys moves none. -/
theorem Resolves.append (more : List Pubkey) (h : Resolves keys ix parsed) :
    Resolves (keys ++ more) ix parsed := by
  have hmono : ∀ {i : Nat} {account : Pubkey}, keys[i]? = some account →
      (keys ++ more)[i]? = some account := by
    intro i account hi
    rw [List.getElem?_append_left (List.getElem?_eq_some_iff.mp hi).1]
    exact hi
  exact ⟨hmono h.program, h.accounts.imp fun _ _ => hmono⟩

theorem Resolves.indicesBelow (h : Resolves keys ix parsed) : IndicesBelow keys.length ix := by
  refine ⟨(List.getElem?_eq_some_iff.mp h.program).1, ?_⟩
  exact ((List.forall₂_and_left _ _).mp (h.accounts.imp fun idx account hget =>
    ⟨(List.getElem?_eq_some_iff.mp hget).1, hget⟩)).1

theorem exists_parsed (h : IndicesBelow keys.length ix) :
    ∃ parsed, parseInstruction keys ix = .ok parsed := by
  have hget : ∀ idx : UInt8, idx.toNat < keys.length →
      ∃ account, accountAt keys idx = .ok account := fun idx hidx =>
    ⟨_, accountAt_eq_ok.mpr (List.getElem?_eq_getElem hidx)⟩
  obtain ⟨programId, hprogram⟩ := hget ix.programIdIndex h.1
  obtain ⟨accounts, haccounts⟩ := Effect.exists_mapM_ok fun idx hidx => hget idx (h.2 idx hidx)
  refine ⟨⟨programId, accounts, ix.data⟩, ?_⟩
  rw [parseInstruction, hprogram, haccounts]
  rfl

/-! ## A whole transaction -/

/-- A complete answer fails at its instructions or not at all. -/
theorem parseTransaction_complete (h : Complete env response message writable readonly) :
    ∃ fetch : List ParsedIx → FetchedTransaction,
      (∀ ixs, (fetch ixs).status.tx.accountKeys =
        message.staticAccountKeys ++ writable ++ readonly ∧ (fetch ixs).status.tx.ixs = ixs) ∧
      parseTransaction env signature response =
        (message.instructions.mapM (parseInstruction message.staticAccountKeys)).map fetch := by
  obtain ⟨txMeta, hmeta, ⟨logs, hlogs⟩, ⟨inner, hinner⟩, hwritable, hreadonly⟩ := h.included
  have hkeys : ∀ {texts : List String} {keys : List Pubkey},
      List.Forall₂ (fun text key => env.parsePubkey text = .ok key) texts keys →
        texts.mapM (parseKey env) = .ok keys := by
    intro texts keys hforall
    refine Effect.mapM_eq_ok.mpr (hforall.imp fun text key hkey => ?_)
    rw [parseKey, hkey]
    rfl
  -- all but the instructions is fixed by the answer
  let tx (ixs : List ParsedIx) : SolanaTransaction :=
    ⟨signature, response.blockTime.bind env.fromTimestamp, logs,
      message.staticAccountKeys ++ writable ++ readonly, ixs, response.slot, txMeta.fee⟩
  refine ⟨fun ixs => txMeta.err.elim ⟨.successful (tx ixs), inner⟩
    fun error => ⟨.failed (tx ixs) error, inner⟩, ?_, ?_⟩
  · intro ixs
    cases txMeta.err <;> exact ⟨rfl, rfl⟩
  · rw [parseTransaction, h.decoded]
    change (message.instructions.mapM (parseInstruction message.staticAccountKeys) >>= _) = _
    cases message.instructions.mapM (parseInstruction message.staticAccountKeys) with
    | error report => rfl
    | ok ixs =>
        change (okOrEyre "metadata not included with logs" response.txMeta >>= _) = _
        rw [hmeta]
        change (txMeta.logMessages.okOrEyre "logs not included" >>= _) = _
        rw [hlogs, hinner, hkeys hwritable, hkeys hreadonly]
        cases txMeta.err <;> rfl

/--
**When a complete answer is resolved** against its full account list: exactly when
every index of every instruction is below the number of static keys.
-/
theorem resolved_iff (env : FetchEnv) (signature : Signature)
    (response : EncodedConfirmedTransactionWithStatusMeta) (message : VersionedMessage)
    (writable readonly : List Pubkey) (hanswer : requestTransaction env = .ok response)
    (hcomplete : Complete env response message writable readonly) :
    Resolved env signature message writable readonly ↔
      ∀ ix ∈ message.instructions, IndicesBelow message.staticAccountKeys.length ix := by
  obtain ⟨fetch, hfetch, hparse⟩ := parseTransaction_complete hcomplete
  have hrun : fetchTransaction env signature =
      (message.instructions.mapM (parseInstruction message.staticAccountKeys)).map fetch := by
    rw [← hparse, fetchTransaction, hanswer]
    rfl
  constructor
  · intro ⟨fetched, hok, _⟩
    rw [hrun] at hok
    cases hparsed : message.instructions.mapM (parseInstruction message.staticAccountKeys) with
    | error report =>
        rw [hparsed] at hok
        cases hok
    | ok ixs =>
        -- each instruction was resolved, and against the static keys
        have hforall := (Effect.mapM_eq_ok.mp hparsed).imp fun ix parsed hix =>
          And.intro (parseInstruction_eq_ok.mp hix).1.indicesBelow hix
        exact ((List.forall₂_and_left _ _).mp hforall).1
  · intro hstatic
    obtain ⟨ixs, hparsed⟩ := Effect.exists_mapM_ok fun ix hix => exists_parsed (hstatic ix hix)
    obtain ⟨hkeys, hixs⟩ := hfetch ixs
    refine ⟨fetch ixs, by rw [hrun, hparsed]; rfl, hkeys, ?_⟩
    rw [hkeys, hixs, List.append_assoc]
    exact (Effect.mapM_eq_ok.mp hparsed).imp fun ix parsed hix =>
      (parseInstruction_eq_ok.mp hix).1.append _

/-! ## Lookup tables -/

/-- A node that answers at once; a key is written as its 32 bytes' common value in decimal. -/
def nodeWith (response : EncodedConfirmedTransactionWithStatusMeta) : FetchEnv where
  parsePubkey text := if text = "5" then .ok (.filled 5) else .error "WrongSize"
  fromTimestamp secs := some secs
  getTransaction _ := .ok response
  retries := 0

/-- Program 1 called with the fee payer and one more account. -/
def callMessage (idx : UInt8) : VersionedMessage where
  staticAccountKeys := [.filled 9, .filled 1]
  instructions := [⟨1, [0, idx], [7]⟩]

/-- Key 5 comes out of a lookup table. -/
def callResponse (idx : UInt8) : EncodedConfirmedTransactionWithStatusMeta where
  slot := 3
  message := some (callMessage idx)
  txMeta := some ⟨none, 5000, .some [], .some [], .some ⟨["5"], []⟩⟩
  blockTime := none

theorem callResponse_complete (idx : UInt8) : Complete (nodeWith (callResponse idx))
    (callResponse idx) (callMessage idx) [.filled 5] [] where
  decoded := rfl
  included := ⟨_, rfl, ⟨_, rfl⟩, ⟨_, rfl⟩, List.Forall₂.cons rfl List.Forall₂.nil,
    List.Forall₂.nil⟩

/-- A call with the program as the other account is resolved. -/
theorem static_call_resolved :
    Resolved (nodeWith (callResponse 1)) (.filled 1) (callMessage 1) [.filled 5] [] :=
  (resolved_iff (nodeWith (callResponse 1)) (.filled 1) (callResponse 1) (callMessage 1)
    [.filled 5] [] rfl (callResponse_complete 1)).mpr (by decide +kernel)

/-- **A loaded account is not found**: the call with key 5 as the other account is an error. -/
theorem loaded_call_unresolved : ¬ ∀ (env : FetchEnv) (signature : Signature)
    (response : EncodedConfirmedTransactionWithStatusMeta) (message : VersionedMessage)
    (writable readonly : List Pubkey), requestTransaction env = .ok response →
    Complete env response message writable readonly →
    (∀ ix ∈ message.instructions,
      IndicesBelow (message.staticAccountKeys.length + writable.length + readonly.length) ix) →
    Resolved env signature message writable readonly := by
  intro hall
  obtain ⟨fetched, hok, -⟩ := hall (nodeWith (callResponse 2)) (.filled 1) (callResponse 2)
    (callMessage 2) [.filled 5] [] rfl (callResponse_complete 2) (by decide +kernel)
  have herror : fetchTransaction (nodeWith (callResponse 2)) (.filled 1) =
      .error (.msg "account does not have an account at the idx") := by decide +kernel
  rw [herror] at hok
  cases hok

end AxelarRelayer.Proof
