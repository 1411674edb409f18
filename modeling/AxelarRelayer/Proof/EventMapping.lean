import AxelarRelayer.Forwarder.Events
import Mathlib.Data.List.Forall2

/-!
# One malformed event

Most converters return `None` for what they cannot decode, and the event is skipped.
An amount is different: `token_from_amount` panics on a text that is no number, and
with it the whole mapping. Three kinds of events bring an amount of their own
(`amountText`); the cost put on an event is the text of a number and always parses.
-/

namespace AxelarRelayer.Proof

open AxelarRelayer Forwarder

variable {formats : Formats} {price : Nat}

/-- The text of the amount an event brings along, where there is one that is parsed. -/
def amountText : Core.Event → Option String
  | .gasCredit _ _ _ payment => some payment.amount
  | .gasRefunded _ _ _ refundedAmount _ => some refundedAmount.amount
  | .itsInterchainTransfer _ _ _ tokenSpent _ _ _ => tokenSpent.tokenId.map fun _ => tokenSpent.amount
  | _ => none

/-- The amount is a decimal number in the signed 512-bit range. -/
def AmountReads (event : Core.Event) : Prop :=
  ∀ text, amountText event = some text → ∃ n, fromStrRadix text = some n

/-- An event converted on its own, at a price; what cannot be converted is skipped. -/
def converted (formats : Formats) (price : Nat) (event : Core.Event) : Option Event :=
  match convertCoreEventToAmp formats event price with
  | .ok amplifierEvent => amplifierEvent
  | .error _ => none

/-- The mapping returns, with every event converted on its own, in order. -/
def Isolates (formats : Formats) (coreEvents : List Core.Event) (totalCost : Nat) : Prop :=
  mapCoreEventsToAmplifier formats coreEvents totalCost =
    .ok (coreEvents.filterMap (converted formats (pricePerEvent coreEvents totalCost)))

/-! ## Amounts -/

/-- Reading back the digits of a number. -/
theorem decimal_toDigits (n : Nat) : decimal (Nat.toDigits 10 n) = some n := by
  have hne : (Nat.toDigits 10 n).isEmpty = false := by
    rw [Bool.eq_false_iff, ne_eq, List.isEmpty_iff]
    exact Nat.toDigits_ne_nil
  have hall : (Nat.toDigits 10 n).all Char.isDigit = true :=
    List.all_eq_true.mpr fun digit hdigit =>
      Nat.isDigit_of_mem_toDigits (by decide) (by decide) hdigit
  rw [decimal, hne, if_neg Bool.false_ne_true, if_pos hall, ← Nat.ofDigitChars_eq_foldl,
    Nat.ofDigitChars_ten_toDigits]

/-- **The text of a price always parses**, for it has no sign in front. -/
theorem fromStrRadix_toString {n : Nat} (h : n < 2 ^ 511) :
    fromStrRadix (toString n) = some (n : Int) := by
  have htext : (toString n).toList = Nat.toDigits 10 n := Nat.toList_repr
  have hdigits : ∀ c ∈ Nat.toDigits 10 n, c.isDigit = true := fun c hc =>
    Nat.isDigit_of_mem_toDigits (by decide) (by decide) hc
  have hread := decimal_toDigits n
  rw [fromStrRadix, htext]
  generalize Nat.toDigits 10 n = digits at hdigits hread
  split
  · exact absurd (hdigits '-' List.mem_cons_self) (by decide)
  · exact absurd (hdigits '+' List.mem_cons_self) (by decide)
  · rw [hread, Option.bind_some, if_pos h]

theorem tokenFromAmount_ok_iff (amount : Core.Amount) :
    (∃ token, tokenFromAmount amount = .ok token) ↔ ∃ n, fromStrRadix amount.amount = some n := by
  rw [tokenFromAmount, parseStrRadix]
  cases fromStrRadix amount.amount with
  | none =>
      constructor
      · intro ⟨token, h⟩
        cases h
      · intro ⟨n, h⟩
        cases h
  | some n => exact ⟨fun _ => ⟨n, rfl⟩, fun _ => ⟨_, rfl⟩⟩

/-- The cost of an event is its price. -/
theorem tokenFromAmount_price (cost : Core.Amount) (hprice : price < 2 ^ 511) :
    tokenFromAmount { cost with amount := toString price } = .ok ⟨cost.tokenId, price⟩ := by
  rw [tokenFromAmount, parseStrRadix, fromStrRadix_toString hprice]
  rfl

/-! ## One event -/

/-- A conversion that goes on with a token succeeds when there is one. -/
theorem bind_token_ok_iff {α : Type} {amount : Core.Amount} (f : Task.Token → α) :
    (∃ v, (tokenFromAmount amount >>= fun token => pure (f token)) = Except.ok v) ↔
      ∃ n, fromStrRadix amount.amount = some n := by
  rw [← tokenFromAmount_ok_iff]
  cases tokenFromAmount amount with
  | error panic =>
      constructor
      · intro ⟨v, h⟩
        cases h
      · intro ⟨token, h⟩
        cases h
  | ok token => exact ⟨fun _ => ⟨token, rfl⟩, fun _ => ⟨f token, rfl⟩⟩

/-- **When the conversion of an event returns.** -/
theorem convert_ok_iff (hprice : price < 2 ^ 511) (event : Core.Event) :
    (∃ amplifierEvent, convertCoreEventToAmp formats event price = .ok amplifierEvent) ↔
      AmountReads event := by
  -- an event without an amount always converts
  have htrivial : ∀ {P : Prop}, amountText event = none → P → (P ↔ AmountReads event) := by
    intro P hnone hp
    refine ⟨fun _ text htext => ?_, fun _ => hp⟩
    rw [hnone] at htext
    cases htext
  -- with an amount, reading it is all that can fail
  have hamount : ∀ {text : String}, amountText event = some text →
      ((∃ n, fromStrRadix text = some n) ↔ AmountReads event) := by
    intro text htext
    constructor
    · intro hn other hother
      rw [htext] at hother
      exact Option.some.inj hother ▸ hn
    · intro h
      exact h text htext
  cases event with
  | call common message destinationChain payload => exact htrivial rfl ⟨_, rfl⟩
  | gasCredit common messageId refundAddress payment =>
      exact (bind_token_ok_iff _).trans (hamount rfl)
  | gasRefunded common messageId recipientAddress refundedAmount cost =>
      rw [convertCoreEventToAmp, tokenFromAmount_price cost hprice]
      exact (bind_token_ok_iff _).trans (hamount rfl)
  | messageApproved common message cost =>
      refine htrivial rfl ?_
      rw [convertCoreEventToAmp, convertMessageApproved, tokenFromAmount_price cost hprice]
      cases convertGatewayMessage formats message <;> exact ⟨_, rfl⟩
  | messageExecuted common messageId sourceChain status cost =>
      refine htrivial rfl ?_
      rw [convertCoreEventToAmp]
      unfold convertMessageExecuted
      dsimp only
      rw [tokenFromAmount_price cost hprice]
      exact ⟨_, rfl⟩
  | signersRotated common messageId => exact htrivial rfl ⟨_, rfl⟩
  | itsInterchainTransfer common messageId destinationChain tokenSpent =>
      rw [convertCoreEventToAmp, convertItsInterchainTransfer]
      cases htoken : tokenSpent.tokenId with
      | none => exact htrivial (by rw [amountText, htoken]; rfl) ⟨_, rfl⟩
      | some tokenId =>
          exact (bind_token_ok_iff _).trans (hamount (by rw [amountText, htoken]; rfl))
  | itsTokenMetadataRegistered common messageId address decimals => exact htrivial rfl ⟨_, rfl⟩
  | itsLinkTokenStarted => exact htrivial rfl ⟨_, rfl⟩
  | itsInterchainTokenDeploymentStarted => exact htrivial rfl ⟨_, rfl⟩
  | cannotExecuteMessageV2 => exact htrivial rfl ⟨_, rfl⟩

/-! ## All events -/

/-- A share of a `u64` is far below the range of the amounts. -/
theorem pricePerEvent_lt {totalCost : Nat} (coreEvents : List Core.Event) (h : totalCost < 2 ^ 64) :
    pricePerEvent coreEvents totalCost < 2 ^ 511 := by
  have hshare : pricePerEvent coreEvents totalCost ≤ totalCost := Nat.div_le_self _ _
  have hwide : 2 ^ 64 ≤ 2 ^ 511 := by
    apply Nat.pow_le_pow_right <;> decide
  exact Nat.lt_of_le_of_lt hshare (Nat.lt_of_lt_of_le h hwide)

/-- Converting one after the other, when every conversion returns. -/
theorem mapM_converted {coreEvents : List Core.Event} {amplifierEvents : List (Option Event)}
    (h : coreEvents.mapM (convertCoreEventToAmp formats · price) = .ok amplifierEvents) :
    amplifierEvents.filterMap id = coreEvents.filterMap (converted formats price) := by
  have hforall := Effect.mapM_eq_ok.mp h
  clear h
  induction hforall with
  | nil => rfl
  | cons hevent _ ih =>
      rw [List.filterMap_cons, List.filterMap_cons, ih, converted, hevent]
      rfl

/--
**When the mapping isolates malformed events**: exactly when every amount that an
event brings along is a decimal number in the signed 512-bit range.
-/
theorem mapping_isolates_iff (formats : Formats) (coreEvents : List Core.Event) (totalCost : Nat)
    (hcost : totalCost < 2 ^ 64) :
    Isolates formats coreEvents totalCost ↔ ∀ event ∈ coreEvents, AmountReads event := by
  have hprice := pricePerEvent_lt coreEvents hcost
  constructor
  · intro h
    obtain ⟨amplifierEvents, hmap, -⟩ := Effect.bind_eq_ok h
    have hforall := (Effect.mapM_eq_ok.mp hmap).imp fun event amplifierEvent hevent =>
      And.intro ((convert_ok_iff hprice event).mp ⟨amplifierEvent, hevent⟩) hevent
    exact ((List.forall₂_and_left _ _).mp hforall).1
  · intro h
    obtain ⟨amplifierEvents, hmap⟩ := Effect.exists_mapM_ok fun event hevent =>
      (convert_ok_iff hprice event).mpr (h event hevent)
    rw [Isolates, mapCoreEventsToAmplifier, hmap, ← mapM_converted hmap]
    rfl

/-! ## An empty amount -/

/-- Nothing decodes; no instant is read. -/
def noFormats : Formats := ⟨fun _ => none, fun _ => none⟩

/-- A payment for a message's gas. -/
def gasCreditEvent (amount : String) : Core.Event :=
  .gasCredit ⟨"event", none⟩ "message" "refund" ⟨none, amount⟩

/-- A payload that does not decode takes no other event with it. -/
theorem malformed_payload_skipped : Isolates noFormats
    [.call ⟨"event", none⟩ ⟨"message", "solana", "sender", "receiver", "?"⟩ "ethereum" "?",
      gasCreditEvent "12"] 7 :=
  (mapping_isolates_iff noFormats _ 7 (by decide)).mpr (by
    intro event hevent text htext
    rcases List.mem_cons.mp hevent with rfl | hevent
    · cases htext
    · obtain rfl := List.mem_singleton.mp hevent
      obtain rfl := Option.some.inj htext
      exact ⟨12, by decide +kernel⟩)

/-- **An empty amount takes the program down.** -/
theorem empty_amount_panics : ¬ ∀ (formats : Formats) (coreEvents : List Core.Event)
    (totalCost : Nat), totalCost < 2 ^ 64 → Isolates formats coreEvents totalCost := by
  intro hall
  have hpanic : mapCoreEventsToAmplifier noFormats [gasCreditEvent ""] 7 =
      .error ⟨"attempt to parse integer from string failed"⟩ := by decide +kernel
  have hok := hall noFormats [gasCreditEvent ""] 7 (by decide)
  rw [Isolates, hpanic] at hok
  cases hok

end AxelarRelayer.Proof
