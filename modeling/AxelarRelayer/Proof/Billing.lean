import AxelarRelayer.Proof.CostShares
import AxelarRelayer.Proof.Pipeline

/-!
# What is billed, over all processes

The costs published with the events of a transaction are shares of what `compute_total_gas`
came to for it. So however often the process dies, and whatever it finds in its state file,
everything published together is billed at most what its transactions cost.
-/

namespace AxelarRelayer.Proof

open AxelarRelayer Forwarder Runs

variable {env : Env} {config : Config} {innerIxs : SolanaTransaction → List UiInnerInstructions}
  {p : Pipeline} {tx : SolanaTransaction} {n : Nat}

/-- What `compute_total_gas` comes to for the `n`-th transaction taken, if it succeeds. -/
def totalCost (env : Env) (config : Config) (n : Nat) (tx : SolanaTransaction) : Nat :=
  (Gas.computeTotalGas env.codec config.gatewayProgramId tx (env.lookup n)).toOption.getD 0

/-- The costs published with one command. -/
def billedIn (events : List Event) : Int := (events.map publishedCost).sum

/-- What the published ones cost, of transactions of which the first is the `n`-th taken. -/
def owed (env : Env) (config : Config) : Nat → List (SolanaTransaction × Fate) → Nat
  | _, [] => 0
  | n, (tx, .published _) :: fates => totalCost env config n tx + owed env config (n + 1) fates
  | n, _ :: fates => owed env config (n + 1) fates

/-! ## One command -/

theorem chargeIx_le {codec : Gas.Codec} {gatewayProgramId : Pubkey} {lookup : Gas.Lookup}
    {total total' : Nat} {ix : ParsedIx} (htotal : total ≤ Saturating.MAX)
    (h : Gas.chargeIx codec gatewayProgramId lookup total ix = .ok total') :
    total' ≤ Saturating.MAX := by
  have hcharged : ∀ {cost : Except Report Nat} {share : Nat → Nat},
      (cost >>= fun c => pure (Saturating.add total (share c))) = .ok total' →
        total' ≤ Saturating.MAX := by
    intro cost share hcost
    obtain ⟨c, -, hsum⟩ := Effect.bind_eq_ok hcost
    obtain rfl := Except.ok.inj hsum
    exact Saturating.add_le_max
  have hkept : (.ok total : Except Report Nat) = .ok total' → total' ≤ Saturating.MAX :=
    fun hsame => Except.ok.inj hsame ▸ htotal
  unfold Gas.chargeIx at h
  split at h
  · split at h
    · split at h
      · exact hkept h
      · exact hcharged h
    · split at h
      · exact hkept h
      · exact hcharged h
    · exact hkept h
  · split at h
    · split at h
      · exact hkept h
      · exact hcharged h
    · exact hkept h

theorem computeTotalGas_le {codec : Gas.Codec} {gatewayProgramId : Pubkey}
    {lookup : Nat → Gas.Lookup} {total : Nat} (hcost : tx.costInLamports ≤ Saturating.MAX)
    (h : Gas.computeTotalGas codec gatewayProgramId tx lookup = .ok total) :
    total ≤ Saturating.MAX := by
  have hfold : ∀ (ixs : List (ParsedIx × Nat)) (start : Nat), start ≤ Saturating.MAX →
      ixs.foldlM (fun total ix => Gas.chargeIx codec gatewayProgramId (lookup ix.2) total ix.1)
        start = .ok total → total ≤ Saturating.MAX := by
    intro ixs
    induction ixs with
    | nil =>
        intro start hstart hdone
        exact Except.ok.inj hdone ▸ hstart
    | cons ix ixs ih =>
        intro start hstart hdone
        rw [List.foldlM_cons] at hdone
        obtain ⟨next, hnext, hrest⟩ := Effect.bind_eq_ok hdone
        exact ih next (chargeIx_le hstart hnext) hrest
  exact hfold _ _ hcost h

/-- A command is billed at most what its transaction cost. -/
theorem billedIn_le {events : List Event} (hcost : tx.costInLamports ≤ Saturating.MAX)
    (h : forwardOne env config n (Pipeline.message innerIxs tx) = .ok events) :
    billedIn events ≤ totalCost env config n tx := by
  obtain ⟨events', hprocessed, h⟩ := Effect.bind_eq_ok h
  obtain ⟨u, -, h⟩ := Effect.bind_eq_ok h
  obtain rfl := Except.ok.inj h
  obtain ⟨total, htotal, hprocessed⟩ := Effect.bind_eq_ok hprocessed
  obtain ⟨json, -, hprocessed⟩ := Effect.bind_eq_ok hprocessed
  obtain ⟨coreEvents, -, hmapped⟩ := Effect.bind_eq_ok hprocessed
  have hgas := Effect.mapError_eq_ok htotal
  have hmap := Effect.mapError_eq_ok hmapped
  have hbound : total ≤ Saturating.MAX := computeTotalGas_le hcost hgas
  have hlt : total < 2 ^ 64 := by
    unfold Saturating.MAX at hbound
    omega
  have hshares := publishedCosts_le env.formats coreEvents hlt
  rw [publishedCosts, hmap] at hshares
  have hsame : totalCost env config n tx = total := by
    have hread : Gas.computeTotalGas env.codec config.gatewayProgramId tx (env.lookup n) =
        .ok total := hgas
    rw [totalCost, hread]
    rfl
  rw [hsame]
  exact hshares

/-! ## Every command -/

theorem billed_le (innerIxs : SolanaTransaction → List UiInnerInstructions)
    {fates : List (SolanaTransaction × Fate)}
    (hfates : ∀ k tx fate, fates[k]? = some (tx, fate) →
      FateOf env config (n + k) (Pipeline.message innerIxs tx) fate)
    (hcost : ∀ x, x ∈ fates → x.1.costInLamports ≤ Saturating.MAX) :
    ((commands fates).map billedIn).sum ≤ owed env config n fates := by
  induction fates generalizing n with
  | nil => exact Int.le_refl 0
  | cons x fates ih =>
      obtain ⟨tx, fate⟩ := x
      have hrest : ((commands fates).map billedIn).sum ≤ owed env config (n + 1) fates := by
        refine ih ?_ fun x hx => hcost x (List.mem_cons_of_mem _ hx)
        intro k tx' fate' hk
        have hlater := hfates (k + 1) tx' fate' hk
        rw [Nat.add_assoc, Nat.add_comm 1 k]
        exact hlater
      cases fate with
      | published events =>
          have hone := billedIn_le (hcost _ List.mem_cons_self) (hfates 0 tx _ rfl)
          have hsplit : commands ((tx, .published events) :: fates) = events :: commands fates :=
            rfl
          rw [hsplit, List.map_cons, List.sum_cons, owed, Nat.cast_add]
          exact Int.add_le_add hone hrest
      | failed ending => exact hrest
      | lost => exact hrest

/--
**Nothing is over-billed.** In every run of the two components, over any number of processes,
all commands together are billed at most what `compute_total_gas` came to for the
transactions they were published for.
-/
theorem billed_within_cost (env : Env) (config : Config) (fromStr : String → Option Signature)
    (listenerConfig : Listener.Config) (innerIxs : SolanaTransaction → List UiInnerInstructions)
    (p : Pipeline) (h : Reach (pipeline env config fromStr listenerConfig innerIxs) always p)
    (hcost : ∀ tx, tx ∈ p.listener.world.sent → tx.costInLamports ≤ Saturating.MAX) :
    ((commands p.fates).map billedIn).sum ≤ owed env config 0 p.fates := by
  have haccounted := accounted_reach h
  refine billed_le innerIxs ?_ ?_
  · intro k tx fate hk
    rw [Nat.zero_add]
    exact haccounted.fates k tx fate hk
  · intro x hx
    refine hcost x.1 ?_
    rw [haccounted.sent]
    exact List.mem_append_left _ (List.mem_map_of_mem hx)

/-- Every transaction is one that executed two messages. -/
def executedTwo : Env :=
  { unreadableHistory with
    parseTransaction := fun _ _ _ =>
      .ok (List.replicate 2 (.messageExecuted ⟨"event", none⟩ "message" "source" .SUCCESSFUL
        ⟨none, "0"⟩)) }

/-- Of two transactions one is published, with both its events; its cost is billed in full. -/
theorem billed_within_cost_crash : ∃ p,
    replay (pipeline executedTwo mainnet (fun _ => none) ⟨.filled 1, .filled 2⟩ fun _ => [])
      always freshPipeline (fetchTwo 1 ++ [.listener .killed, .listener .restart]) = some p ∧
    ((commands p.fates).map billedIn).sum = 5000 ∧
    ((commands p.fates).map billedIn).sum ≤ owed executedTwo mainnet 0 p.fates := by
  have hrun : (replay
      (pipeline executedTwo mainnet (fun _ => none) ⟨.filled 1, .filled 2⟩ fun _ => [])
      always freshPipeline (fetchTwo 1 ++ [.listener .killed, .listener .restart])).map (fun p =>
        (((commands p.fates).map billedIn).sum,
          decide (∀ tx ∈ p.listener.world.sent, tx.costInLamports ≤ Saturating.MAX))) =
      some (5000, true) := by decide +kernel
  obtain ⟨p, hp, hchecks⟩ := Option.map_eq_some_iff.mp hrun
  obtain ⟨hbilled, hcost⟩ := Prod.mk.inj hchecks
  have hinit : (pipeline executedTwo mainnet (fun _ => none) ⟨.filled 1, .filled 2⟩
      fun _ => []).init freshPipeline := ⟨freshListener_init _ _, rfl, rfl, rfl, rfl⟩
  exact ⟨p, hp, hbilled, billed_within_cost _ _ _ _ _ p
    (Reach.of_replay (Reach.init hinit) hp) (of_decide_eq_true hcost)⟩

end AxelarRelayer.Proof
