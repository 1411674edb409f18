import AxelarRelayer.Forwarder.EventForwarder
import AxelarRelayer.Proof.PayloadCost

/-!
# One bad transaction

Every fallible step of the loop ends in `?`, so the first transaction that fails ends
the loop, and what the listener sends after it is never looked at. Everything is
forwarded exactly when that cannot matter: no transaction fails but the last one.
-/

namespace AxelarRelayer.Proof

open AxelarRelayer Forwarder

variable {env : Env} {config : Config}

/-- The commands of the transactions whose own processing succeeds, in order. -/
def succeeding (env : Env) (config : Config) (n : Nat) (messages : List Message) :
    List (List Event) :=
  (messages.zipIdx n).filterMap fun message =>
    (processMessage env config message.2 message.1).toOption

/-- Every transaction is processed, and published if that succeeds. -/
def ForwardsAll (env : Env) (config : Config) (n : Nat) (messages : List Message) : Prop :=
  (processInternal env config n messages).taken = messages.length ∧
    (processInternal env config n messages).published = succeeding env config n messages

/-- Nothing ends the loop before the listener does: the `k`-th transaction is the last or succeeds. -/
def Uninterrupted (env : Env) (config : Config) (n : Nat) (messages : List Message) : Prop :=
  ∀ k message, messages[k]? = some message →
    (k + 1 < messages.length → (processMessage env config (n + k) message).isOk = true) ∧
    ((processMessage env config (n + k) message).isOk = true → (env.send (n + k)).isOk = true)

/-! ## One pass through the loop -/

theorem succeeding_cons (n : Nat) (message : Message) (messages : List Message) :
    succeeding env config n (message :: messages) =
      (processMessage env config n message).toOption.toList ++
        succeeding env config (n + 1) messages := by
  rw [succeeding, List.zipIdx_cons, List.filterMap_cons]
  cases processMessage env config n message <;> rfl

/-- The condition for the first transaction, and for the rest. -/
theorem uninterrupted_cons (n : Nat) (message : Message) (messages : List Message) :
    Uninterrupted env config n (message :: messages) ↔
      ((messages ≠ [] → (processMessage env config n message).isOk = true) ∧
        ((processMessage env config n message).isOk = true → (env.send n).isOk = true)) ∧
      Uninterrupted env config (n + 1) messages := by
  constructor
  · intro h
    refine ⟨⟨fun hne => (h 0 message rfl).1 ?_, (h 0 message rfl).2⟩, fun k later hk => ?_⟩
    · rw [List.length_cons]
      exact Nat.succ_lt_succ (List.length_pos_iff.mpr hne)
    · -- the condition for the `k`-th of the rest is the one for position `k + 1`
      have hlater := h (k + 1) later hk
      rw [List.length_cons, Nat.add_lt_add_iff_right] at hlater
      rw [Nat.add_assoc, Nat.add_comm 1 k]
      exact hlater
  · rintro ⟨⟨hproc, hsend⟩, hrest⟩ k later hk
    cases k with
    | zero =>
        obtain rfl := Option.some.inj hk
        refine ⟨fun hlt => hproc ?_, hsend⟩
        rintro rfl
        exact absurd hlt (Nat.lt_irrefl _)
    | succ k =>
        have hlater := hrest k later hk
        rw [Nat.add_assoc, Nat.add_comm 1 k] at hlater
        rw [List.length_cons, Nat.add_lt_add_iff_right]
        exact hlater

/-- A transaction that fails leaves the rest unseen. -/
theorem forwardsAll_failed {n : Nat} {message : Message} {ending : Ending}
    (h : processMessage env config n message = .error ending) (messages : List Message) :
    ForwardsAll env config n (message :: messages) ↔ messages = [] := by
  rw [ForwardsAll, succeeding_cons, processInternal, h]
  constructor
  · rintro ⟨htaken, -⟩
    exact List.eq_nil_of_length_eq_zero (Nat.succ.inj htaken).symm
  · rintro rfl
    exact ⟨rfl, rfl⟩

/-- A command that cannot be sent is lost. -/
theorem not_forwardsAll_unsent {n : Nat} {message : Message} {events : List Event} {text : String}
    (h : processMessage env config n message = .ok events) (hsend : env.send n = .error text)
    (messages : List Message) : ¬ ForwardsAll env config n (message :: messages) := by
  rintro ⟨-, hpublished⟩
  rw [succeeding_cons, processInternal, h] at hpublished
  simp only [hsend] at hpublished
  cases hpublished

theorem forwardsAll_sent {n : Nat} {message : Message} {events : List Event} {u : Unit}
    (h : processMessage env config n message = .ok events) (hsend : env.send n = .ok u)
    (messages : List Message) : ForwardsAll env config n (message :: messages) ↔
      ForwardsAll env config (n + 1) messages := by
  rw [ForwardsAll, ForwardsAll, succeeding_cons, processInternal, h]
  simp only [hsend]
  exact and_congr (Nat.succ_inj) (List.cons_inj_right events)

/-! ## The whole run -/

theorem forwardsAll_iff_uninterrupted (n : Nat) (messages : List Message) :
    ForwardsAll env config n messages ↔ Uninterrupted env config n messages := by
  induction messages generalizing n with
  | nil => exact ⟨fun _ k message hk => (by cases hk), fun _ => ⟨rfl, rfl⟩⟩
  | cons message messages ih =>
      rw [uninterrupted_cons, ← ih]
      cases hproc : processMessage env config n message with
      | error ending =>
          -- the task ends here: nothing may follow
          rw [forwardsAll_failed hproc]
          constructor
          · rintro rfl
            exact ⟨⟨fun hne => absurd rfl hne, fun hok => by cases hok⟩, rfl, rfl⟩
          · rintro ⟨⟨hne, -⟩, -⟩
            by_contra hmore
            cases hne hmore
      | ok events =>
          cases hsend : env.send n with
          | error text =>
              -- the events are lost with the task
              exact iff_of_false (not_forwardsAll_unsent hproc hsend messages)
                fun h => (by cases h.1.2 rfl)
          | ok u =>
              rw [forwardsAll_sent hproc hsend]
              exact ⟨fun h => ⟨⟨fun _ => rfl, fun _ => rfl⟩, h⟩, fun h => h.2⟩

/--
**When every transaction is forwarded.** For every sequence of transactions the
listener sends: the loop takes all of them and publishes, in order, a command for
each one whose own processing succeeds, if and only if no transaction but the last
one fails and every command can be sent.
-/
theorem forwards_all_iff (env : Env) (config : Config) (messages : List Message) :
    ForwardsAll env config 0 messages ↔ Uninterrupted env config 0 messages :=
  forwardsAll_iff_uninterrupted 0 messages

/-! ## A transaction anyone can send -/

/-- The history of the account the first transaction names cannot be read. -/
def unreadableHistory : Env where
  codec := tagCodec
  formats := ⟨fun _ => none, fun _ => none⟩
  showPubkey _ := "pubkey"
  toJson _ := .ok "json"
  lookup n _ := { Gas.Lookup.static .empty with pageFails := fun _ => n == 0 }
  parseTransaction _ _ _ := .ok [.itsTokenMetadataRegistered ⟨"event", none⟩ "message" "address" 9]
  send _ := .ok ()

def mainnet : Config := ⟨"solana", .filled 1, .filled 4⟩

/-- An instruction tagged for an executable, with some account in the second place. -/
def lure : Message :=
  ⟨{ SolanaTransaction.bare (.filled 1) [.filled 1, .filled 50] 0 with
    ixs := [⟨.filled 40, [.filled 49, .filled 50], [97]⟩] }, []⟩

/-- A transaction nothing is wrong with. -/
def bystander : Message := ⟨SolanaTransaction.bare (.filled 2) [.filled 1] 1, []⟩

/-- **The transaction after it is not forwarded**, though the channel is open. -/
theorem bystander_unforwarded : ¬ ∀ (env : Env) (config : Config) (messages : List Message),
    (∀ n, env.send n = .ok ()) → ForwardsAll env config 0 messages := by
  intro hclaim
  have hall := hclaim unreadableHistory mainnet [lure, bystander] fun _ => rfl
  exact absurd hall.2 (by decide +kernel)

end AxelarRelayer.Proof
