import AxelarRelayer.Task.Transaction
import Mathlib.Data.Finset.Card

/-!
# The keys of a message

A key stands in a message once, however often the instructions mention it, and whoever
signs stands in front. What the map of the keys knows of a key is what its mentions say
(`getElem?_compileKeys`), so everything else about a message is read off the mentions:
which keys it has, how many signatures it requires and whether it can be made at all.
-/

namespace AxelarRelayer.Proof

open AxelarRelayer AxelarRelayer.Task Std

variable {map : KeyMetaMap} {key : Pubkey} {isSigner isWritable : Bool}
  {ixs ixs' : List Instruction} {payer : Pubkey} {blockhash : Bytes32} {message : SolanaMessage}

/-! ## The map of the keys -/

theorem getElem?_mention (map : KeyMetaMap) (account : AccountMeta) (key : Pubkey) :
    (mention map account)[key]? = if account.pubkey = key then
      some ⟨(map[key]?.getD ⟨false, false⟩).isSigner || account.isSigner,
        (map[key]?.getD ⟨false, false⟩).isWritable || account.isWritable⟩
      else map[key]? := by
  rw [mention, TreeMap.getElem?_alter]
  by_cases h : account.pubkey = key
  · obtain rfl := h
    rw [if_pos ReflCmp.compare_self, if_pos rfl]
  · rw [if_neg fun heq => h (LawfulEqCmp.eq_of_compare heq), if_neg h]

/-- What some accounts use a key for. -/
def usesOf (accounts : List AccountMeta) (key : Pubkey) : CompiledKeyMeta where
  isSigner := accounts.any fun account => decide (account.pubkey = key) && account.isSigner
  isWritable := accounts.any fun account => decide (account.pubkey = key) && account.isWritable

/-- A mentioned key has the flags it had and those of its mentions. -/
theorem getElem?_foldl_mention (accounts : List AccountMeta) (map : KeyMetaMap) (key : Pubkey) :
    (accounts.foldl mention map)[key]? = if key ∈ accounts.map AccountMeta.pubkey then
      some ⟨(map[key]?.getD ⟨false, false⟩).isSigner || (usesOf accounts key).isSigner,
        (map[key]?.getD ⟨false, false⟩).isWritable || (usesOf accounts key).isWritable⟩
      else map[key]? := by
  induction accounts generalizing map with
  | nil => simp
  | cons account accounts ih =>
      rw [List.foldl_cons, ih, getElem?_mention]
      by_cases hhere : account.pubkey = key
      · by_cases hrest : key ∈ accounts.map AccountMeta.pubkey
        · simp [usesOf, hhere, hrest, Bool.or_assoc]
        · -- mentioned here for the last time
          have hnone : ∀ other ∈ accounts, other.pubkey ≠ key := fun other hother heq =>
            hrest (heq ▸ List.mem_map_of_mem hother)
          have hsigner : (usesOf accounts key).isSigner = false := by
            simp only [usesOf, List.any_eq_false]
            intro other hother
            simp [hnone other hother]
          have hwritable : (usesOf accounts key).isWritable = false := by
            simp only [usesOf, List.any_eq_false]
            intro other hother
            simp [hnone other hother]
          simp only [usesOf] at hsigner hwritable
          simp [usesOf, hhere, hrest, hsigner, hwritable]
      · have hother : key ≠ account.pubkey := fun heq => hhere heq.symm
        simp [usesOf, hhere, hother]

/-- **What the map knows of a key** is what its mentions say. -/
theorem getElem?_compileKeys (ixs : List Instruction) (payer key : Pubkey) :
    (compileKeys ixs payer)[key]? =
      if key ∈ (mentions ixs payer).map AccountMeta.pubkey then
        some (usesOf (mentions ixs payer) key) else none := by
  rw [compileKeys, getElem?_foldl_mention, TreeMap.getElem?_emptyc]
  simp

theorem mem_compileKeys : key ∈ compileKeys ixs payer ↔
    key ∈ (mentions ixs payer).map AccountMeta.pubkey := by
  rw [TreeMap.mem_iff_isSome_getElem?, getElem?_compileKeys]
  split <;> simp_all

/-- The same mentions, however often, make the same map. -/
theorem compileKeys_congr
    (h : ∀ account, account ∈ mentions ixs payer ↔ account ∈ mentions ixs' payer) :
    (compileKeys ixs payer).Equiv (compileKeys ixs' payer) := by
  refine TreeMap.Equiv.of_forall_constGet?_eq fun key => ?_
  have hkeys : key ∈ (mentions ixs payer).map AccountMeta.pubkey ↔
      key ∈ (mentions ixs' payer).map AccountMeta.pubkey := by
    simp only [List.mem_map, h]
  have huses : usesOf (mentions ixs payer) key = usesOf (mentions ixs' payer) key := by
    unfold usesOf
    congr 1 <;> · rw [Bool.eq_iff_iff]; simp only [List.any_eq_true, h]
  rw [getElem?_compileKeys, getElem?_compileKeys, huses]
  simp only [hkeys]

/-! ## The groups -/

theorem mem_selectKeys :
    key ∈ selectKeys map isSigner isWritable ↔ map[key]? = some ⟨isSigner, isWritable⟩ := by
  rw [selectKeys, List.mem_map]
  constructor
  · rintro ⟨entry, hentry, rfl⟩
    obtain ⟨hin, hflags⟩ := List.mem_filter.mp hentry
    obtain ⟨hsigner, hwritable⟩ := Bool.and_eq_true_iff.mp hflags
    rw [TreeMap.mem_toList_iff_getElem?_eq_some.mp hin, ← beq_iff_eq.mp hsigner,
      ← beq_iff_eq.mp hwritable]
  · intro hget
    refine ⟨(key, ⟨isSigner, isWritable⟩), List.mem_filter.mpr ⟨?_, ?_⟩, rfl⟩
    · exact TreeMap.mem_toList_iff_getElem?_eq_some.mpr hget
    · simp

theorem nodup_selectKeys (map : KeyMetaMap) (isSigner isWritable : Bool) :
    (selectKeys map isSigner isWritable).Nodup := by
  have hkeys : (map.toList.map Prod.fst).Nodup := by
    rw [TreeMap.map_fst_toList_eq_keys]
    exact TreeMap.nodup_keys
  exact hkeys.sublist (List.filter_sublist.map _)

/-- All keys of a map, by what they are used for. -/
def groupedKeys (map : KeyMetaMap) : List Pubkey :=
  selectKeys map true true ++ selectKeys map true false ++ selectKeys map false true ++
    selectKeys map false false

theorem mem_groupedKeys : key ∈ groupedKeys map ↔ key ∈ map := by
  simp only [groupedKeys, List.mem_append, mem_selectKeys, TreeMap.mem_iff_isSome_getElem?]
  cases map[key]? with
  | none => simp
  | some keyMeta =>
      obtain ⟨isSigner, isWritable⟩ := keyMeta
      cases isSigner <;> cases isWritable <;> simp

/-- A key is in one group only. -/
theorem nodup_groupedKeys (map : KeyMetaMap) : (groupedKeys map).Nodup := by
  have hdisjoint : ∀ {s w s' w' : Bool}, (s, w) ≠ (s', w') → ∀ key ∈ selectKeys map s w,
      key ∉ selectKeys map s' w' := by
    intro s w s' w' hne key hkey hkey'
    rw [mem_selectKeys] at hkey hkey'
    rw [hkey] at hkey'
    simp only [Option.some.injEq, CompiledKeyMeta.mk.injEq] at hkey'
    exact hne (Prod.ext hkey'.1 hkey'.2)
  unfold groupedKeys
  refine List.Nodup.append (List.Nodup.append (List.Nodup.append (nodup_selectKeys _ _ _)
    (nodup_selectKeys _ _ _) ?_) (nodup_selectKeys _ _ _) ?_) (nodup_selectKeys _ _ _) ?_
  · exact fun key h => hdisjoint (by decide) key h
  · intro key h
    rcases List.mem_append.mp h with h | h <;> exact hdisjoint (by decide) key h
  · intro key h
    rcases List.mem_append.mp h with h | h
    · rcases List.mem_append.mp h with h | h <;> exact hdisjoint (by decide) key h
    · exact hdisjoint (by decide) key h

/-! ## Messages -/

/-- Every account that has to sign is the payer. -/
def PayerSigns (ixs : List Instruction) (payer : Pubkey) : Prop :=
  ∀ ix ∈ ixs, ∀ account ∈ ix.accounts, account.isSigner = true → account.pubkey = payer

/-- The keys that are mentioned. -/
def keySet (ixs : List Instruction) (payer : Pubkey) : Finset Pubkey :=
  ((mentions ixs payer).map AccountMeta.pubkey).toFinset

/-- There are no more keys than mentions. -/
theorem card_keySet_le (ixs : List Instruction) (payer : Pubkey) :
    (keySet ixs payer).card ≤ (ixs.map fun ix => ix.accounts.length + 1).sum + 1 := by
  refine (List.toFinset_card_le _).trans (Nat.le_of_eq ?_)
  rw [List.length_map, mentions, List.length_append, List.length_flatMap]
  rfl

/-- The keys behind the payer. -/
def otherKeys (ixs : List Instruction) (payer : Pubkey) : KeyMetaMap :=
  (compileKeys ixs payer).erase payer

theorem getElem?_otherKeys : (otherKeys ixs payer)[key]? =
    if payer = key then none else (compileKeys ixs payer)[key]? := by
  rw [otherKeys, TreeMap.getElem?_erase]
  by_cases h : payer = key
  · obtain rfl := h
    rw [if_pos ReflCmp.compare_self, if_pos rfl]
  · rw [if_neg fun heq => h (LawfulEqCmp.eq_of_compare heq), if_neg h]

/-- The payer signs, and whoever an account says signs. -/
theorem payerSigns_iff : PayerSigns ixs payer ↔
    ∀ account ∈ mentions ixs payer, account.isSigner = true → account.pubkey = payer := by
  constructor
  · intro h account haccount hsigns
    rcases List.mem_append.mp haccount with hix | hpayer
    · obtain ⟨ix, hin, hmention⟩ := List.mem_flatMap.mp hix
      rcases List.mem_cons.mp hmention with rfl | hpassed
      · cases hsigns
      · exact h ix hin account hpassed hsigns
    · rw [List.mem_singleton.mp hpayer]
  · intro h ix hix account haccount hsigns
    refine h account (List.mem_append_left _ (List.mem_flatMap.mpr ⟨ix, hix, ?_⟩)) hsigns
    exact List.mem_cons_of_mem _ haccount

/-- **Behind the payer nobody signs**, exactly when every signer is the payer. -/
theorem otherKeys_signers_iff : (∀ isWritable, selectKeys (otherKeys ixs payer) true isWritable = []) ↔
    PayerSigns ixs payer := by
  rw [payerSigns_iff]
  constructor
  · intro hnone account haccount hsigns
    by_contra hne
    have hkey : (otherKeys ixs payer)[account.pubkey]? =
        some (usesOf (mentions ixs payer) account.pubkey) := by
      rw [getElem?_otherKeys, if_neg fun heq => hne heq.symm, getElem?_compileKeys,
        if_pos (List.mem_map_of_mem haccount)]
    have huse : (usesOf (mentions ixs payer) account.pubkey).isSigner = true :=
      List.any_eq_true.mpr ⟨account, haccount, by simp [hsigns]⟩
    have hin : account.pubkey ∈ selectKeys (otherKeys ixs payer) true
        (usesOf (mentions ixs payer) account.pubkey).isWritable :=
      mem_selectKeys.mpr (hkey.trans (by rw [← huse]))
    rw [hnone] at hin
    cases hin
  · intro hpayer isWritable
    refine List.eq_nil_iff_forall_not_mem.mpr fun key hkey => ?_
    rw [mem_selectKeys, getElem?_otherKeys] at hkey
    split at hkey
    · cases hkey
    rename_i hne
    rw [getElem?_compileKeys] at hkey
    split at hkey
    · -- a key that signs is one that some mention has sign
      have huse : (usesOf (mentions ixs payer) key).isSigner = true := by
        rw [Option.some.inj hkey]
      obtain ⟨account, haccount, hsigns⟩ := List.any_eq_true.mp huse
      obtain ⟨hpubkey, hsigns⟩ := Bool.and_eq_true_iff.mp hsigns
      exact hne ((hpayer account haccount hsigns).symm.trans (of_decide_eq_true hpubkey))
    · cases hkey

/-- A message of these instructions that the payer alone signs. -/
structure Compiled (ixs : List Instruction) (payer : Pubkey) (message : SolanaMessage) : Prop where
  signatures : message.header.numRequiredSignatures = 1
  nodup : message.accountKeys.Nodup
  keys : ∀ key, key ∈ message.accountKeys ↔ key ∈ keySet ixs payer
  instructions : message.instructions = ixs.map (compileInstruction message.accountKeys)

/-- How many keys there are: each one counts once. -/
theorem Compiled.length_accountKeys (h : Compiled ixs payer message) :
    message.accountKeys.length = (keySet ixs payer).card := by
  rw [← List.toFinset_card_of_nodup h.nodup]
  congr 1
  ext key
  rw [List.mem_toFinset, h.keys]

/-- The keys of a message are the payer and what is behind it, each one once. -/
theorem nodup_accountKeys : (payer :: groupedKeys (otherKeys ixs payer)).Nodup := by
  refine List.nodup_cons.mpr ⟨fun h => ?_, nodup_groupedKeys _⟩
  rw [mem_groupedKeys, TreeMap.mem_iff_isSome_getElem?, getElem?_otherKeys, if_pos rfl] at h
  cases h

theorem mem_accountKeys : key ∈ payer :: groupedKeys (otherKeys ixs payer) ↔
    key ∈ keySet ixs payer := by
  have hpayer : payer ∈ (mentions ixs payer).map AccountMeta.pubkey :=
    List.mem_map.mpr ⟨⟨payer, true, true⟩, List.mem_append_right _ List.mem_cons_self, rfl⟩
  rw [keySet, List.mem_toFinset, List.mem_cons, mem_groupedKeys, TreeMap.mem_iff_isSome_getElem?,
    getElem?_otherKeys]
  by_cases h : payer = key
  · obtain rfl := h
    simp [hpayer]
  · have hne : key ≠ payer := fun heq => h heq.symm
    rw [if_neg h, ← TreeMap.mem_iff_isSome_getElem?, mem_compileKeys]
    simp [hne]

/-- What `new_with_blockhash` makes of instructions that only the payer signs. -/
theorem newWithBlockhash_eq (h : PayerSigns ixs payer) (blockhash : Bytes32) :
    SolanaMessage.newWithBlockhash ixs payer blockhash =
      (tryIntoU8 (selectKeys (otherKeys ixs payer) false false).length).map fun readonly =>
        ⟨⟨1, 0, readonly⟩, payer :: groupedKeys (otherKeys ixs payer), blockhash,
          ixs.map (compileInstruction (payer :: groupedKeys (otherKeys ixs payer)))⟩ := by
  have hothers : (compileKeys ixs payer).erase payer = otherKeys ixs payer := rfl
  have hnone := otherKeys_signers_iff.mpr h
  unfold SolanaMessage.newWithBlockhash groupedKeys
  dsimp only
  rw [hothers, hnone, hnone]
  cases tryIntoU8 (selectKeys (otherKeys ixs payer) false false).length with
  | none => rfl
  | some readonly => rfl

theorem newWithBlockhash_compiled (h : PayerSigns ixs payer)
    (hmessage : SolanaMessage.newWithBlockhash ixs payer blockhash = some message) :
    Compiled ixs payer message := by
  rw [newWithBlockhash_eq h blockhash] at hmessage
  obtain ⟨readonly, -, rfl⟩ := Option.map_eq_some_iff.mp hmessage
  exact ⟨rfl, nodup_accountKeys, fun _ => mem_accountKeys, rfl⟩

/-- There are not too many keys for a message. -/
theorem exists_message (h : PayerSigns ixs payer) (hfew : (keySet ixs payer).card ≤ 2 ^ 8)
    (blockhash : Bytes32) :
    ∃ message, SolanaMessage.newWithBlockhash ixs payer blockhash = some message := by
  have hcard : (payer :: groupedKeys (otherKeys ixs payer)).length = (keySet ixs payer).card := by
    rw [← List.toFinset_card_of_nodup nodup_accountKeys]
    congr 1
    ext key
    rw [List.mem_toFinset, mem_accountKeys]
  have hle : (selectKeys (otherKeys ixs payer) false false).length ≤
      (groupedKeys (otherKeys ixs payer)).length := by
    rw [groupedKeys, List.length_append]
    omega
  rw [List.length_cons] at hcard
  have hfits : tryIntoU8 (selectKeys (otherKeys ixs payer) false false).length = some _ :=
    if_pos (by omega)
  rw [newWithBlockhash_eq h, hfits]
  exact ⟨_, rfl⟩

/-- Whether there is a message depends on what is mentioned only. -/
theorem exists_message_congr
    (hsame : ∀ account, account ∈ mentions ixs payer ↔ account ∈ mentions ixs' payer)
    (h : PayerSigns ixs payer)
    (hmessage : SolanaMessage.newWithBlockhash ixs payer blockhash = some message)
    (blockhash' : Bytes32) :
    PayerSigns ixs' payer ∧
      ∃ message', SolanaMessage.newWithBlockhash ixs' payer blockhash' = some message' := by
  have h' : PayerSigns ixs' payer := by
    rw [payerSigns_iff] at h ⊢
    exact fun account haccount => h account ((hsame account).mpr haccount)
  have hmap : (otherKeys ixs payer).toList = (otherKeys ixs' payer).toList :=
    ((compileKeys_congr hsame).erase payer).toList_eq
  rw [newWithBlockhash_eq h] at hmessage
  obtain ⟨readonly, hreadonly, -⟩ := Option.map_eq_some_iff.mp hmessage
  rw [selectKeys, hmap, ← selectKeys] at hreadonly
  refine ⟨h', ?_⟩
  rw [newWithBlockhash_eq h', hreadonly]
  exact ⟨_, rfl⟩

/-! ## Keys and indices -/

/-- An index of few keys leads back to its key. -/
theorem key_position {keys : List Pubkey} (hkeys : message.accountKeys = keys)
    (hfew : keys.length ≤ 2 ^ 8) (hkey : key ∈ keys) : message.key (position keys key) = key := by
  have hlt := List.idxOf_lt_length_of_mem hkey
  have hindex : (position keys key).toNat = keys.idxOf key := by
    rw [position, UInt8.toNat_ofNat']
    exact Nat.mod_eq_of_lt (by omega)
  rw [SolanaMessage.key, hkeys, hindex, List.getD_eq_getElem?_getD, List.getElem?_eq_getElem hlt,
    Option.getD_some, List.getElem_idxOf]

/-- **A node reads the instructions the transaction was made of**, if its keys are few. -/
theorem Compiled.parsedIxs {tx : Transaction} (h : Compiled ixs payer tx.message)
    (hfew : (keySet ixs payer).card ≤ 2 ^ 8) : tx.parsedIxs = ixs.map Instruction.parsed := by
  have hlength := h.length_accountKeys
  rw [Transaction.parsedIxs, h.instructions, List.map_map]
  refine List.map_congr_left fun ix hix => ?_
  have hmention : ∀ account ∈ (⟨ix.programId, false, false⟩ :: ix.accounts : List AccountMeta),
      tx.message.key (position tx.message.accountKeys account.pubkey) = account.pubkey := by
    intro account haccount
    refine key_position rfl (by omega) ((h.keys _).mpr (List.mem_toFinset.mpr ?_))
    exact List.mem_map_of_mem (List.mem_append_left _ (List.mem_flatMap.mpr ⟨ix, hix, haccount⟩))
  simp only [Function.comp_apply, SolanaMessage.parsedIx, compileInstruction, Instruction.parsed,
    List.map_map, ParsedIx.mk.injEq, and_true]
  refine ⟨hmention _ List.mem_cons_self, List.map_congr_left fun account haccount => ?_⟩
  exact hmention account (List.mem_cons_of_mem _ haccount)

end AxelarRelayer.Proof
