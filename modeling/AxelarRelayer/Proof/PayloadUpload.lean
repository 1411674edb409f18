import AxelarRelayer.Lib.Pieces
import AxelarRelayer.Proof.ConcurrentSends
import AxelarRelayer.Proof.Network

/-!
# The upload of a payload

The chunks are disjoint and cover the payload: the `i`-th one starts at `i` times
the chunk size, and every position lies in the chunk of its quotient. Offsets do
not saturate, because a payload whose length does not fit in a `u64` is refused
before anything is written. So the confirmed writes, in whatever order they land,
are pieces of the payload (`Pieces`), and the barrier between the phases does the
rest.
-/

namespace AxelarRelayer.Proof

open AxelarRelayer AxelarRelayer.Task Phases Runs

variable {ctx : Context} {commandId : Bytes32} {payload : List UInt8} {s : SendState}
  {chunkSize : Nat} {chunk : ChunkWithOffset}

/-! ## Chunks -/

theorem getElem?_chunksFrom (hsize : 0 < chunkSize) (fuel : Nat) (data : List UInt8)
    (hfuel : data.length ≤ fuel) (i : Nat) :
    (chunksFrom chunkSize fuel data)[i]? =
      if i * chunkSize < data.length then some ((data.drop (i * chunkSize)).take chunkSize)
      else none := by
  induction fuel generalizing data i with
  | zero =>
      obtain rfl := List.length_eq_zero_iff.mp (Nat.le_zero.mp hfuel)
      rfl
  | succ fuel ih =>
      match data with
      | [] => rfl
      | byte :: rest =>
          rw [chunksFrom]
          · cases i with
            | zero => simp
            | succ i =>
                -- the chunks behind the first one are the chunks of the rest
                have hshort : ((byte :: rest).drop chunkSize).length ≤ fuel := by
                  rw [List.length_drop]
                  simp only [List.length_cons] at hfuel ⊢
                  omega
                rw [List.getElem?_cons_succ, ih _ hshort, List.drop_drop, List.length_drop,
                  Nat.succ_mul, Nat.add_comm chunkSize]
                by_cases hlt : i * chunkSize + chunkSize < (byte :: rest).length
                · rw [if_pos hlt, if_pos (by omega)]
                · rw [if_neg hlt, if_neg (by omega)]
          · exact fun h => List.cons_ne_nil _ _ h

/-- **The `i`-th chunk** is what stands from `i` times the chunk size on. -/
theorem mem_chunksWithOffset (hsize : 0 < chunkSize) (hlen : payload.length < 2 ^ 64) :
    chunk ∈ chunksWithOffset payload chunkSize ↔
      ∃ i, i * chunkSize < payload.length ∧ chunk.offset = i * chunkSize ∧
        chunk.bytes = (payload.drop (i * chunkSize)).take chunkSize := by
  -- an offset within the payload does not saturate
  have hsat : ∀ i, i * chunkSize < payload.length →
      Saturating.mul i chunkSize = i * chunkSize := by
    intro i hi
    have hmax : Saturating.MAX = 2 ^ 64 - 1 := rfl
    exact Nat.min_eq_left (by omega)
  rw [chunksWithOffset, List.mem_map]
  constructor
  · rintro ⟨⟨bytes, i⟩, hin, rfl⟩
    rw [List.mem_zipIdx_iff_getElem?, chunks,
      getElem?_chunksFrom hsize _ _ (Nat.le_refl _)] at hin
    dsimp only at hin ⊢
    split at hin
    · rename_i hi
      exact ⟨i, hi, hsat i hi, (Option.some.inj hin).symm⟩
    · cases hin
  · rintro ⟨i, hi, hoffset, hbytes⟩
    refine ⟨(chunk.bytes, i), ?_, ?_⟩
    · rw [List.mem_zipIdx_iff_getElem?, chunks, getElem?_chunksFrom hsize _ _ (Nat.le_refl _),
        if_pos hi, hbytes]
    · obtain ⟨bytes, offset⟩ := chunk
      dsimp only at hoffset ⊢
      rw [hsat i hi, hoffset]

/-- A chunk as a piece of the payload. -/
def pieceOf (chunk : ChunkWithOffset) : Nat × List UInt8 := (chunk.offset, chunk.bytes)

theorem pieceOf_chunk (hsize : 0 < chunkSize) (hlen : payload.length < 2 ^ 64)
    (h : chunk ∈ chunksWithOffset payload chunkSize) : Pieces.PieceOf payload (pieceOf chunk) := by
  obtain ⟨i, hi, hoffset, hbytes⟩ := (mem_chunksWithOffset hsize hlen).mp h
  have hlength : chunk.bytes.length = min chunkSize (payload.length - i * chunkSize) := by
    rw [hbytes, List.length_take, List.length_drop]
  refine ⟨?_, fun j hj => ?_⟩
  · change chunk.offset + chunk.bytes.length ≤ _
    omega
  · change j < chunk.bytes.length at hj
    change chunk.bytes[j]? = payload[chunk.offset + j]?
    rw [hbytes, List.getElem?_take_of_lt (by omega), List.getElem?_drop, hoffset]

/-- Every position lies in a chunk. -/
theorem covered_by_chunk (hsize : 0 < chunkSize) (hlen : payload.length < 2 ^ 64) {p : Nat}
    (hp : p < payload.length) :
    ∃ chunk ∈ chunksWithOffset payload chunkSize, Pieces.Covers (pieceOf chunk) p := by
  have hdiv := Nat.div_add_mod p chunkSize
  have hmod := Nat.mod_lt p hsize
  rw [Nat.mul_comm] at hdiv
  have hi : p / chunkSize * chunkSize < payload.length := by omega
  refine ⟨⟨(payload.drop (p / chunkSize * chunkSize)).take chunkSize, p / chunkSize * chunkSize⟩,
    (mem_chunksWithOffset hsize hlen).mpr ⟨_, hi, rfl, rfl⟩, ?_, ?_⟩
  · change p / chunkSize * chunkSize ≤ p
    omega
  · change p < p / chunkSize * chunkSize +
      ((payload.drop (p / chunkSize * chunkSize)).take chunkSize).length
    rw [List.length_take, List.length_drop]
    omega

/-- A payload with a byte has a chunk. -/
theorem exists_mem_chunksWithOffset (hsize : 0 < chunkSize) (hpos : 0 < payload.length) :
    ∃ chunk, chunk ∈ chunksWithOffset payload chunkSize := by
  refine List.exists_mem_of_ne_nil _ fun hnil => ?_
  have hempty : chunks payload chunkSize = [] := by
    simpa [chunksWithOffset] using hnil
  have hfirst := getElem?_chunksFrom hsize payload.length payload (Nat.le_refl _) 0
  rw [Nat.zero_mul, if_pos hpos] at hfirst
  rw [chunks] at hempty
  rw [hempty] at hfirst
  cases hfirst

/-! ## The phases -/

/-- The instruction a send of the upload is for. -/
inductive UploadIx (ctx : Context) (commandId : Bytes32) (payload : List UInt8) :
    SendKind → ParsedIx → Prop where
  | create {ix : ParsedIx} :
      ctx.sdk.initializeMessagePayload ctx.gatewayRootPda ctx.signer commandId payload.length =
        .ok ix → UploadIx ctx commandId payload .initializeMessagePayload ix
  | write {chunk : ChunkWithOffset} {ix : ParsedIx} :
      chunk ∈ chunksWithOffset payload ctx.sdk.maxChunkSize →
      ctx.sdk.writeMessagePayload ctx.gatewayRootPda ctx.signer commandId chunk.bytes
        chunk.offset = .ok ix → UploadIx ctx commandId payload (.writeMessagePayload chunk) ix
  | commit {ix : ParsedIx} :
      ctx.sdk.commitMessagePayload ctx.gatewayRootPda ctx.signer commandId = .ok ix →
        UploadIx ctx commandId payload .commitMessagePayload ix

/-- The write phase has one send for each chunk, with the chunk's own instruction. -/
theorem writeSends_ok {items : List GatewaySend}
    (h : writeSends ctx commandId payload = .ok items) :
    List.Forall₂ (fun chunk send => send.kind = .writeMessagePayload chunk ∧
      ctx.sdk.writeMessagePayload ctx.gatewayRootPda ctx.signer commandId chunk.bytes
        chunk.offset = .ok send.ix) (chunksWithOffset payload ctx.sdk.maxChunkSize) items := by
  refine (Effect.mapM_eq_ok.mp h).imp fun chunk send hsend => ?_
  cases hix : writeInstruction ctx commandId chunk with
  | error e => rw [hix] at hsend; cases hsend
  | ok future =>
      rw [hix] at hsend
      cases hsend
      exact ⟨rfl, (writeInstruction_ok hix).2⟩

theorem exists_of_mem_right {α β : Type} {R : α → β → Prop} {as : List α} {bs : List β}
    (h : List.Forall₂ R as bs) {b : β} (hb : b ∈ bs) : ∃ a ∈ as, R a b := by
  induction h with
  | nil => exact absurd hb List.not_mem_nil
  | @cons a b' as bs hhead _ ih =>
      rcases List.mem_cons.mp hb with rfl | hb
      · exact ⟨a, List.mem_cons_self, hhead⟩
      · obtain ⟨a', ha', hR⟩ := ih hb
        exact ⟨a', List.mem_cons_of_mem _ ha', hR⟩

theorem staged_uploadPhases : Staged (uploadPhases ctx commandId payload) := by
  refine eachSend_three stage_single ?_ stage_single
  intro items hitems send hsend
  obtain ⟨chunk, -, hkind, -⟩ := exists_of_mem_right (writeSends_ok hitems) hsend
  rw [hkind]
  rfl

/-- **No send carries another instruction than the one it is for.** -/
theorem uploadIx_uploadPhases : EachSend (uploadPhases ctx commandId payload)
    fun _ send => UploadIx ctx commandId payload send.kind send.ix := by
  refine eachSend_three (forall_single ?_) ?_ (forall_single ?_)
  · intro ix hix
    obtain ⟨bufferSize, hsize, hix⟩ := Effect.bind_eq_ok hix
    rw [tryIntoU64_ok (context_ok hsize)] at hix
    exact .create (built_ok (context_ok hix))
  · intro items hitems send hsend
    obtain ⟨chunk, hchunk, hkind, hix⟩ := exists_of_mem_right (writeSends_ok hitems) hsend
    rw [hkind]
    exact .write hchunk hix
  · exact fun ix hix => .commit (built_ok (context_ok hix))

/-- A payload that was initialized has a length that fits. -/
theorem length_lt_of_passed
    {trace : List (Event GatewaySend Submission (Except ComputeBudgetError Signature))}
    (h : Passed (sendRules ctx) (uploadPhases ctx commandId payload) 0 trace) :
    payload.length < 2 ^ 64 := by
  obtain ⟨items, hitems, -⟩ := h
  obtain ⟨ix, hix, -⟩ := single_ok (Option.some.inj hitems)
  obtain ⟨bufferSize, hsize, -⟩ := Effect.bind_eq_ok hix
  unfold tryIntoU64 at hsize
  split at hsize
  · assumption
  · cases hsize

/-! ## The law -/

/--
The chunk whose write an event shows to be confirmed: a transaction that succeeded on chain
and carries the instruction of the write.
-/
def confirmedChunk? :
    Event GatewaySend Submission (Except ComputeBudgetError Signature) → Option ChunkWithOffset
  | .act send sub =>
      match send.item.kind, sub.landed? with
      | .writeMessagePayload chunk, some (.successful tx) =>
          if send.item.ix ∈ tx.ixs then some chunk else none
      | _, _ => none
  | .ret .. => none

/-- The confirmed chunk writes, in the order in which they were confirmed. -/
def confirmedWrites
    (trace : List (Event GatewaySend Submission (Except ComputeBudgetError Signature))) :
    List ChunkWithOffset :=
  trace.filterMap confirmedChunk?

/-- The payload account after these writes; `none` if one of them goes out of bounds. -/
def account (payload : List UInt8) (writes : List ChunkWithOffset) : Option (List UInt8) :=
  Pieces.overwriteAll (List.replicate payload.length 0) (writes.map pieceOf)

/-- The upload in one history. -/
structure Reassembles (ctx : Context) (commandId : Bytes32) (payload : List UInt8) (s : SendState) :
    Prop where
  /-- Every transaction is, behind its compute budget, the instruction its send is for. -/
  submitted : ∀ send sub, .act send sub ∈ s.trace → sub.instructions = [send.item.ix] ∧
    UploadIx ctx commandId payload send.item.kind send.item.ix
  /-- A confirmed write is on the chain, with the bytes and the offset of the chunk. -/
  confirmed : ∀ chunk ∈ confirmedWrites s.trace, ∃ send sub tx ix, .act send sub ∈ s.trace ∧
    sub.landed? = some (.successful tx) ∧ ix ∈ tx.ixs ∧
    ctx.sdk.writeMessagePayload ctx.gatewayRootPda ctx.signer commandId chunk.bytes
      chunk.offset = .ok ix
  /-- No write goes out of bounds, and the account holds the payload once all have landed. -/
  account : ∃ buffer, account payload (confirmedWrites s.trace) = some buffer ∧
    ((∀ chunk ∈ chunksWithOffset payload ctx.sdk.maxChunkSize,
      chunk ∈ confirmedWrites s.trace) → buffer = payload)
  /-- Before the commit is sent, every chunk write has returned a success. -/
  commit : ∀ pre send sub post, s.trace = pre ++ .act send sub :: post →
    send.item.kind = .commitMessagePayload →
    ∀ chunk ∈ chunksWithOffset payload ctx.sdk.maxChunkSize, ∃ write : Job GatewaySend,
      write.item.kind = .writeMessagePayload chunk ∧
      ctx.sdk.writeMessagePayload ctx.gatewayRootPda ctx.signer commandId chunk.bytes
        chunk.offset = .ok write.item.ix ∧ Returned (sendRules ctx) write pre
  /-- After a failed write nothing is ever committed. -/
  aborted : ∀ write chunk outcome e, .ret write outcome ∈ s.trace →
    write.item.kind = .writeMessagePayload chunk →
    (sendRules ctx).finish write.item outcome = .error e →
    s.result = some (.error e) ∧
      ∀ other sub, .act other sub ∈ s.trace → other.item.kind ≠ .commitMessagePayload

/-- An event that confirms the write of a chunk. -/
theorem confirmedChunk?_cases
    {event : Event GatewaySend Submission (Except ComputeBudgetError Signature)}
    (h : confirmedChunk? event = some chunk) : ∃ send sub tx, event = .act send sub ∧
      send.item.kind = .writeMessagePayload chunk ∧ sub.landed? = some (.successful tx) ∧
      send.item.ix ∈ tx.ixs := by
  cases event with
  | ret send outcome => cases h
  | act send sub =>
      rw [confirmedChunk?] at h
      split at h
      · rename_i chunk' tx hkind hlanded
        split at h
        · rename_i hin
          obtain rfl := Option.some.inj h
          exact ⟨send, sub, tx, rfl, hkind, hlanded, hin⟩
        · cases h
      · cases h

/-- Only chunks of the payload are written, and only if its length fits. -/
theorem mem_confirmedWrites (h : Reach (uploadTask ctx commandId payload) always s)
    (hchunk : chunk ∈ confirmedWrites s.trace) :
    chunk ∈ chunksWithOffset payload ctx.sdk.maxChunkSize ∧ payload.length < 2 ^ 64 := by
  obtain ⟨event, hev, hconf⟩ := List.mem_filterMap.mp hchunk
  obtain ⟨send, sub, tx, rfl, hkind, -, -⟩ := confirmedChunk?_cases hconf
  obtain ⟨pre, post, hsplit⟩ := List.append_of_mem hev
  have hix : UploadIx ctx commandId payload send.item.kind send.item.ix :=
    uploadIx_uploadPhases.of_event h hev
  -- the writes are the second phase, so the length went through the first one
  have hstage : 0 < stage send.item.kind := by
    rw [hkind]
    exact Nat.zero_lt_one
  have hpassed := passed_before staged_uploadPhases h hsplit hstage
  rw [hkind] at hix
  cases hix with
  | write hin _ => exact ⟨hin, length_lt_of_passed hpassed⟩

/--
**The upload reassembles the payload**, whatever order the concurrent writes are
confirmed and return in, and it is only committed when they all succeeded.
-/
theorem upload_reassembles (ctx : Context) (commandId : Bytes32) (payload : List UInt8)
    (s : SendState) (h : Reach (uploadTask ctx commandId payload) always s) :
    Reassembles ctx commandId payload s where
  submitted := fun send sub hact =>
    ⟨instructions_of_act h hact, uploadIx_uploadPhases.of_event h hact⟩
  confirmed := by
    intro chunk hchunk
    obtain ⟨event, hev, hconf⟩ := List.mem_filterMap.mp hchunk
    obtain ⟨send, sub, tx, rfl, hkind, hlanded, hin⟩ := confirmedChunk?_cases hconf
    have hix : UploadIx ctx commandId payload send.item.kind send.item.ix :=
      uploadIx_uploadPhases.of_event h hev
    rw [hkind] at hix
    cases hix with
    | write _ hwrite => exact ⟨send, sub, tx, send.item.ix, hev, hlanded, hin, hwrite⟩
  account := by
    have hsize := ctx.sdk.maxChunkSize_pos
    have hpieces : ∀ piece ∈ (confirmedWrites s.trace).map pieceOf,
        Pieces.PieceOf payload piece := by
      intro piece hpiece
      obtain ⟨chunk, hchunk, rfl⟩ := List.mem_map.mp hpiece
      obtain ⟨hin, hlen⟩ := mem_confirmedWrites h hchunk
      exact pieceOf_chunk hsize hlen hin
    obtain ⟨buffer, hbuffer, hlength, hpos⟩ := Pieces.overwriteAll_pieces _
      (List.replicate payload.length 0) hpieces List.length_replicate
    refine ⟨buffer, hbuffer, fun hall => Pieces.eq_of_covered hlength fun p hp => (hpos p).1 ?_⟩
    -- some chunk was written, so the length fits
    have hlen : payload.length < 2 ^ 64 := by
      obtain ⟨first, hfirst⟩ := exists_mem_chunksWithOffset hsize (Nat.zero_lt_of_lt hp)
      exact (mem_confirmedWrites h (hall first hfirst)).2
    obtain ⟨chunk, hchunk, hcovers⟩ := covered_by_chunk hsize hlen hp
    exact ⟨_, List.mem_map_of_mem (hall chunk hchunk), hcovers⟩
  commit := by
    intro pre send sub post hsplit hkind chunk hchunk
    have hstage : stage (Event.act send sub :
        Event GatewaySend Submission (Except ComputeBudgetError Signature)).job.item.kind = 2 := by
      change stage send.item.kind = 2
      rw [hkind]
      rfl
    obtain ⟨items, hitems, hall⟩ := passed_before staged_uploadPhases h hsplit (k := 1) (by
      rw [hstage]
      exact Nat.lt_succ_self 1)
    obtain ⟨item, hitem, hkind, hix⟩ :=
      exists_of_mem_right (writeSends_ok (Option.some.inj hitems)).flip hchunk
    rw [← jobs_map_item 1 items] at hitem
    obtain ⟨write, hwrite, rfl⟩ := List.mem_map.mp hitem
    exact ⟨write, hkind, hix, hall write hwrite⟩
  aborted := by
    intro write chunk outcome e hret hkind hf
    obtain ⟨hres, hstages⟩ := stopped_by_error staged_uploadPhases h hret hf
    refine ⟨hres, fun other sub hact hcommit => ?_⟩
    have hle : stage other.item.kind ≤ stage write.item.kind := hstages _ hact
    rw [hkind, hcommit] at hle
    exact absurd hle (by decide : ¬ 2 ≤ 1)

/-- A send of the upload whose transaction is confirmed as the `n`-th one. -/
def confirmedSend (job : Job GatewaySend) (n : UInt8) :
    Event GatewaySend Submission (Except ComputeBudgetError Signature) :=
  let ixs := [setComputeUnitPrice 0, setComputeUnitLimit 1000, job.item.ix]
  .act job (.sent ixs (some (confirmedStatus (steadyContext alwaysConfirmed []) n.toNat ixs
    (receiptAt n.toNat) none)))

/-- The sends of an upload of eight bytes, four bytes a chunk. -/
def initializeJob : Job GatewaySend :=
  ⟨0, 0, .initializeMessagePayload, ⟨.filled 1, [.filled 9, .filled 8, .filled 20, .filled 21], [6]⟩⟩

def writeJob (index : Nat) (bytes : List UInt8) : Job GatewaySend :=
  ⟨1, index, .writeMessagePayload ⟨bytes, 4 * index⟩,
    ⟨.filled 1, [.filled 8, .filled 9, .filled 21], 7 :: bytes⟩⟩

def commitJob : Job GatewaySend :=
  ⟨2, 0, .commitMessagePayload, ⟨.filled 1, [.filled 8, .filled 9, .filled 21], [8]⟩⟩

/-- The second chunk overtakes the first one. -/
def overtakingUpload : List (Event GatewaySend Submission (Except ComputeBudgetError Signature)) :=
  [confirmedSend initializeJob 1, .ret initializeJob (.ok (.filled 1)),
    confirmedSend (writeJob 1 [5, 6, 7, 8]) 2, .ret (writeJob 1 [5, 6, 7, 8]) (.ok (.filled 2)),
    confirmedSend (writeJob 0 [1, 2, 3, 4]) 3, .ret (writeJob 0 [1, 2, 3, 4]) (.ok (.filled 3)),
    confirmedSend commitJob 4, .ret commitJob (.ok (.filled 4))]

/-- The upload is committed, and the chunks make up the payload. -/
theorem overtaking_reassembled : ∃ s : SendState,
    Reach (uploadTask (steadyContext alwaysConfirmed []) (Vector.replicate 32 7)
      [1, 2, 3, 4, 5, 6, 7, 8]) always s ∧
    confirmedWrites s.trace = [⟨[5, 6, 7, 8], 4⟩, ⟨[1, 2, 3, 4], 0⟩] ∧
      Reassembles (steadyContext alwaysConfirmed []) (Vector.replicate 32 7)
        [1, 2, 3, 4, 5, 6, 7, 8] s := by
  have hrun : (replay (uploadTask (steadyContext alwaysConfirmed []) (Vector.replicate 32 7)
      [1, 2, 3, 4, 5, 6, 7, 8]) always (enter 0 (uploadPhases (steadyContext alwaysConfirmed [])
        (Vector.replicate 32 7) [1, 2, 3, 4, 5, 6, 7, 8]) []) overtakingUpload).map
      (fun s => confirmedWrites s.trace) = some [⟨[5, 6, 7, 8], 4⟩, ⟨[1, 2, 3, 4], 0⟩] := by
    decide +kernel
  obtain ⟨s, hs, hwrites⟩ := Option.map_eq_some_iff.mp hrun
  have hreach : Reach (uploadTask (steadyContext alwaysConfirmed []) (Vector.replicate 32 7)
      [1, 2, 3, 4, 5, 6, 7, 8]) always s := Reach.of_replay (Reach.init rfl) hs
  exact ⟨s, hreach, hwrites, upload_reassembles _ _ _ s hreach⟩

end AxelarRelayer.Proof
