import AxelarRelayer.Forwarder.Pipeline
import AxelarRelayer.Proof.EventForwarding
import AxelarRelayer.Proof.NothingLost

/-!
# From the chain to the Amplifier component

Every transaction the listener sends has one fate: taken and published, taken and fatal to
the forwarder, lost with the channel, or still in the channel. The forwarder of a process
is `process_internal` on what was sent to it. With the listener's own contract this says
what a stored signature is worth at the far end of the channel, and what it is not.
-/

namespace AxelarRelayer.Proof

open AxelarRelayer Forwarder Runs
open AxelarRelayer.Listener (gatewayTx gasServiceTx)

variable {env : Env} {config : Config} {fromStr : String → Option Signature}
  {listenerConfig : Listener.Config} {innerIxs : SolanaTransaction → List UiInnerInstructions}
  {p p' : Pipeline} {t0 : Option Signature}

/-! ## The step, once -/

/-- What one event does to the two components. -/
inductive PipelineMove (env : Env) (config : Config) (fromStr : String → Option Signature)
    (listenerConfig : Listener.Config) (innerIxs : SolanaTransaction → List UiInnerInstructions)
    (p : Pipeline) : PipelineEvent → Pipeline → Prop where
  | restarted {l : Listener.SolanaListener} :
      ListenerMove fromStr listenerConfig p.listener .restart l →
      PipelineMove env config fromStr listenerConfig innerIxs p (.listener .restart) (p.restart l)
  | received {e : Listener.ListenerEvent} {l : Listener.SolanaListener}
      {sent : List SolanaTransaction} : ListenerMove fromStr listenerConfig p.listener e l →
      e ≠ .restart → sent = l.world.sent.drop p.listener.world.sent.length →
      (sent = [] ∨ p.receiver = .running) →
      PipelineMove env config fromStr listenerConfig innerIxs p (.listener e) (p.receive e l sent)
  | forwarded {tx : SolanaTransaction} {rest : List SolanaTransaction} :
      p.receiver = .running → p.logReceiver = tx :: rest →
      PipelineMove env config fromStr listenerConfig innerIxs p .forward
        (p.forward env config innerIxs tx rest)
  | stopped : p.receiver = .running → p.logReceiver = [] →
      PipelineMove env config fromStr listenerConfig innerIxs p .forward
        { p with receiver := .ended (.returned (.msg "Listener has stopped unexpectedly")) }

theorem pipeline_cases {e : PipelineEvent}
    (h : (pipeline env config fromStr listenerConfig innerIxs).step p e = some p') :
    PipelineMove env config fromStr listenerConfig innerIxs p e p' := by
  change Pipeline.step env config fromStr listenerConfig innerIxs p e = some p' at h
  cases e with
  | listener e =>
      obtain ⟨l, hl, hres⟩ := Option.bind_eq_some_iff.mp h
      have hm : ListenerMove fromStr listenerConfig p.listener e l := listener_cases hl
      by_cases hrestart : e = .restart
      · subst hrestart
        rw [← Option.some.inj hres]
        exact .restarted hm
      · have hcases : (if l.world.sent.drop p.listener.world.sent.length = [] ∨
            p.receiver = .running then
              some (p.receive e l (l.world.sent.drop p.listener.world.sent.length))
            else none) = some p' := by
          cases e with
          | restart => exact absurd rfl hrestart
          | _ => exact hres
        split at hcases
        · rename_i hopen
          rw [← Option.some.inj hcases]
          exact .received hm hrestart rfl hopen
        · cases hcases
  | forward =>
      unfold Pipeline.step at h
      dsimp only at h
      split at h
      · rename_i hrun hwaiting
        rw [← Option.some.inj h]
        exact .forwarded hrun hwaiting
      · rename_i hrun hempty _
        rw [← Option.some.inj h]
        exact .stopped hrun hempty
      · cases h

/-- Seen from the listener, an event is one of its own or nothing. -/
theorem listener_of_move {e : PipelineEvent}
    (hm : PipelineMove env config fromStr listenerConfig innerIxs p e p') :
    (∃ le, e = .listener le ∧ ListenerMove fromStr listenerConfig p.listener le p'.listener) ∨
      p'.listener = p.listener := by
  cases hm with
  | restarted hl => exact Or.inl ⟨_, rfl, hl⟩
  | received hl => exact Or.inl ⟨_, rfl, hl⟩
  | forwarded hrun hwaiting =>
      refine Or.inr ?_
      unfold Pipeline.forward
      split <;> rfl
  | stopped => exact Or.inr rfl

/-- What is taken has a fate, and is not lost. -/
theorem fates_forward (env : Env) (config : Config)
    (innerIxs : SolanaTransaction → List UiInnerInstructions) (p : Pipeline)
    (tx : SolanaTransaction) (rest : List SolanaTransaction) :
    ∃ fate, fate ≠ .lost ∧
      (p.forward env config innerIxs tx rest).fates = p.fates ++ [(tx, fate)] := by
  unfold Pipeline.forward
  split
  · exact ⟨.published _, nofun, rfl⟩
  · exact ⟨.failed _, nofun, rfl⟩

/-! ## One pass, and all of them -/

theorem processInternal_cons (n : Nat) (m : Message) (ms : List Message) :
    processInternal env config n (m :: ms) =
      match forwardOne env config n m with
      | .error ending => ⟨[], 1, ending⟩
      | .ok events =>
          ⟨events :: (processInternal env config (n + 1) ms).published,
            (processInternal env config (n + 1) ms).taken + 1,
            (processInternal env config (n + 1) ms).ending⟩ := by
  rw [processInternal, forwardOne]
  cases processMessage env config n m with
  | error ending => rfl
  | ok events =>
      dsimp only
      cases env.send n with
      | error text => rfl
      | ok _ => rfl

/-- The commands among the fates. -/
def commands (fates : List (SolanaTransaction × Fate)) : List (List Event) :=
  fates.filterMap fun x =>
    match x.2 with
    | .published events => some events
    | _ => none

/-- What the forwarder of this process was given, as far as it has taken it. -/
def handled (innerIxs : SolanaTransaction → List UiInnerInstructions) (p : Pipeline) :
    List Message :=
  (p.fates.drop p.base).map fun x => Pipeline.message innerIxs x.1

/-- How far `processInternal` has come, if `n` transactions were taken in all. -/
def Underway (env : Env) (config : Config) (base n : Nat) (taken : List Message)
    (published : List (List Event)) : Prop :=
  ∀ later, processInternal env config base (taken ++ later) =
    ⟨published ++ (processInternal env config n later).published,
      taken.length + (processInternal env config n later).taken,
      (processInternal env config n later).ending⟩

theorem underway_nil (base : Nat) : Underway env config base base [] [] := by
  intro later
  simp

theorem Underway.published {base n : Nat} {taken : List Message} {published : List (List Event)}
    {m : Message} {events : List Event} (h : Underway env config base n taken published)
    (hone : forwardOne env config n m = .ok events) :
    Underway env config base (n + 1) (taken ++ [m]) (published ++ [events]) := by
  intro later
  rw [List.append_assoc, List.singleton_append, h (m :: later), processInternal_cons, hone]
  simp [Nat.add_assoc, Nat.add_comm 1]

/-- The pass that fails is the last, whatever is still in the channel. -/
theorem Underway.failed {base n : Nat} {taken : List Message} {published : List (List Event)}
    {m : Message} {ending : Ending} (h : Underway env config base n taken published)
    (hone : forwardOne env config n m = .error ending) (waiting : List Message) :
    processInternal env config base (taken ++ [m] ++ waiting) =
      ⟨published, (taken ++ [m]).length, ending⟩ := by
  rw [List.append_assoc, List.singleton_append, h (m :: waiting), processInternal_cons, hone]
  simp

/-! ## Everything sent is accounted for -/

/-- What a fate says about the transaction, the `n`-th that was sent. -/
def FateOf (env : Env) (config : Config) (n : Nat) (m : Message) : Fate → Prop
  | .published events => forwardOne env config n m = .ok events
  | .failed ending => forwardOne env config n m = .error ending
  | .lost => True

/-- The forwarder of this process is `process_internal`. -/
def Follows (env : Env) (config : Config)
    (innerIxs : SolanaTransaction → List UiInnerInstructions) (p : Pipeline) : Prop :=
  match p.receiver with
  | .ended ending =>
      processInternal env config p.base
          (handled innerIxs p ++ p.logReceiver.map (Pipeline.message innerIxs)) =
        ⟨commands (p.fates.drop p.base), (handled innerIxs p).length, ending⟩
  | _ =>
      Underway env config p.base p.fates.length (handled innerIxs p)
        (commands (p.fates.drop p.base))

structure Accounted (env : Env) (config : Config)
    (innerIxs : SolanaTransaction → List UiInnerInstructions) (p : Pipeline) : Prop where
  /-- What was sent was taken or lost, in the order it was sent, or is in the channel. -/
  sent : p.listener.world.sent = p.fates.map Prod.fst ++ p.logReceiver
  base : p.base ≤ p.fates.length
  fates : ∀ n tx fate, p.fates[n]? = some (tx, fate) →
    FateOf env config n (Pipeline.message innerIxs tx) fate
  follows : Follows env config innerIxs p

theorem fates_append {more : List (SolanaTransaction × Fate)}
    (h : ∀ n tx fate, p.fates[n]? = some (tx, fate) →
      FateOf env config n (Pipeline.message innerIxs tx) fate)
    (hmore : ∀ n tx fate, more[n]? = some (tx, fate) →
      FateOf env config (p.fates.length + n) (Pipeline.message innerIxs tx) fate) :
    ∀ n tx fate, (p.fates ++ more)[n]? = some (tx, fate) →
      FateOf env config n (Pipeline.message innerIxs tx) fate := by
  intro n tx fate hn
  by_cases hlt : n < p.fates.length
  · rw [List.getElem?_append_left hlt] at hn
    exact h n tx fate hn
  · have hge := Nat.le_of_not_lt hlt
    rw [List.getElem?_append_right hge] at hn
    have hnew := hmore _ tx fate hn
    rw [Nat.add_sub_cancel' hge] at hnew
    exact hnew

/-- What a listener event has sent is what the sent list has grown by. -/
theorem sent_of_move {e : Listener.ListenerEvent} {l l' : Listener.SolanaListener}
    (hi : SentInv listenerConfig none [] l.world)
    (hm : ListenerMove fromStr listenerConfig l e l') :
    l'.world.sent = l.world.sent ++ l'.world.sent.drop l.world.sent.length := by
  have hrebased : SentInv listenerConfig none l.world.sent l.world :=
    ⟨hi.cursor, ⟨[], (List.append_nil _).symm, nofun⟩, hi.waits, hi.first⟩
  obtain ⟨later, heq, -⟩ := (sentInv_move hrebased (notBefore_none l e) hm).sent
  rw [heq, List.drop_left]

theorem accounted_restart {l : Listener.SolanaListener} (hi : Accounted env config innerIxs p)
    (hsent : l.world.sent = p.listener.world.sent) :
    Accounted env config innerIxs (p.restart l) where
  sent := by
    change l.world.sent = _ ++ []
    rw [hsent, hi.sent, List.append_nil, Pipeline.restart, List.map_append, List.map_map]
    exact congrArg _ (List.map_id' _).symm
  base := by simp [Pipeline.restart]
  fates := by
    refine fates_append hi.fates ?_
    intro n tx fate hn
    rw [List.getElem?_map, Option.map_eq_some_iff] at hn
    obtain ⟨_, _, heq⟩ := hn
    rw [← (Prod.mk.inj heq).2]
    trivial
  follows := by
    have hdrop : (p.restart l).fates.drop (p.restart l).base = [] := by simp [Pipeline.restart]
    have hlen : (p.restart l).base = (p.restart l).fates.length := by simp [Pipeline.restart]
    change Underway env config _ _ (handled innerIxs (p.restart l)) _
    rw [handled, hdrop, ← hlen]
    exact underway_nil _

theorem accounted_receive {e : Listener.ListenerEvent} {l : Listener.SolanaListener}
    {sent : List SolanaTransaction} (hi : Accounted env config innerIxs p)
    (hsent : l.world.sent = p.listener.world.sent ++ sent)
    (hopen : sent = [] ∨ p.receiver = .running) :
    Accounted env config innerIxs (p.receive e l sent) where
  sent := by
    change l.world.sent = p.fates.map Prod.fst ++ (p.logReceiver ++ sent)
    rw [hsent, hi.sent, List.append_assoc]
  base := hi.base
  fates := hi.fates
  follows := by
    have hfollows := hi.follows
    unfold Follows at hfollows ⊢
    unfold Pipeline.receive
    dsimp only
    cases hrun : p.receiver with
    | running =>
        rw [hrun] at hfollows
        split
        · rename_i hended
          split at hended <;> cases hended
        · exact hfollows
    | ended ending =>
        rw [hrun] at hfollows hopen
        obtain rfl := hopen.resolve_right (by simp)
        rw [if_neg (by simp), List.append_nil]
        exact hfollows
    | killed =>
        rw [hrun] at hfollows
        rw [if_neg (by simp)]
        exact hfollows

/-- What one more transaction does to the ghosts of this process. -/
theorem drop_fates (hbase : p.base ≤ p.fates.length) (x : SolanaTransaction × Fate) :
    (p.fates ++ [x]).drop p.base = p.fates.drop p.base ++ [x] :=
  List.drop_append_of_le_length hbase

theorem accounted_forward {tx : SolanaTransaction} {rest : List SolanaTransaction}
    (hi : Accounted env config innerIxs p) (hrun : p.receiver = .running)
    (hwaiting : p.logReceiver = tx :: rest) :
    Accounted env config innerIxs (p.forward env config innerIxs tx rest) := by
  have hunderway := hi.follows
  rw [Follows, hrun] at hunderway
  have hsent : ∀ fate, p.listener.world.sent = (p.fates ++ [(tx, fate)]).map Prod.fst ++ rest := by
    intro fate
    rw [hi.sent, hwaiting, List.map_append, List.append_assoc]
    rfl
  have hfates : ∀ {fate}, FateOf env config p.fates.length (Pipeline.message innerIxs tx) fate →
      ∀ n tx' fate', (p.fates ++ [(tx, fate)])[n]? = some (tx', fate') →
        FateOf env config n (Pipeline.message innerIxs tx') fate' := by
    intro fate hfate
    refine fates_append hi.fates ?_
    intro n tx' fate' hn
    cases n with
    | zero =>
        obtain ⟨rfl, rfl⟩ := Prod.mk.inj (Option.some.inj hn)
        exact hfate
    | succ n => cases hn
  have hlen : p.base ≤ (p.fates ++ [(tx, Fate.lost)]).length := by
    rw [List.length_append]
    exact Nat.le_add_right_of_le hi.base
  unfold Pipeline.forward
  split
  · rename_i events hone
    refine ⟨hsent _, by simpa using hlen, hfates hone, ?_⟩
    have hnext := hunderway.published hone
    unfold Follows handled
    dsimp only
    rw [hrun, drop_fates hi.base, List.length_append, List.map_append, commands,
      List.filterMap_append]
    exact hnext
  · rename_i ending hone
    refine ⟨hsent _, by simpa using hlen, hfates hone, ?_⟩
    have hlast := hunderway.failed hone (rest.map (Pipeline.message innerIxs))
    unfold Follows handled
    dsimp only
    rw [drop_fates hi.base, List.map_append, commands, List.filterMap_append]
    simpa [commands, handled] using hlast

theorem accounted_move {e : PipelineEvent} (hi : Accounted env config innerIxs p)
    (hl : SentInv listenerConfig none [] p.listener.world)
    (hm : PipelineMove env config fromStr listenerConfig innerIxs p e p') :
    Accounted env config innerIxs p' := by
  cases hm with
  | restarted hm =>
      cases hm with
      | restarted => exact accounted_restart hi rfl
  | received hm hne hsent hopen => exact accounted_receive hi (hsent ▸ sent_of_move hl hm) hopen
  | forwarded hrun hwaiting => exact accounted_forward hi hrun hwaiting
  | stopped hrun hempty =>
      refine ⟨hi.sent, hi.base, hi.fates, ?_⟩
      have hunderway := hi.follows
      rw [Follows, hrun] at hunderway
      have hlast := hunderway []
      unfold Follows
      dsimp only
      rw [hempty]
      simpa [handled, processInternal] using hlast

/-- The listener of a pipeline is a listener. -/
theorem sentInv_pipeline {ok : Pipeline → PipelineEvent → Prop}
    (h : Reach (pipeline env config fromStr listenerConfig innerIxs) ok p) :
    SentInv listenerConfig none [] p.listener.world := by
  refine Reach.invariant (P := fun p => SentInv listenerConfig none [] p.listener.world) ?_ ?_ h
  · intro p hinit
    exact sentInv_init hinit.1 nofun nofun
  · intro p e p' _ hi _ hs
    cases listener_of_move (pipeline_cases hs) with
    | inl hown =>
        obtain ⟨le, -, hm⟩ := hown
        exact sentInv_move hi (notBefore_none _ le) hm
    | inr hsame => exact hsame ▸ hi

theorem accounted_reach
    (h : Reach (pipeline env config fromStr listenerConfig innerIxs) always p) :
    Accounted env config innerIxs p := by
  refine Reach.invariant (P := Accounted env config innerIxs) ?_ ?_ h
  · intro p hinit
    obtain ⟨⟨-, -, hsent, -⟩, hempty, hrun, hfates, hbase⟩ := hinit
    refine ⟨by rw [hsent, hempty, hfates]; rfl, by rw [hbase]; exact Nat.zero_le _, ?_, ?_⟩
    · rw [hfates]
      intro n tx fate hn
      cases hn
    · rw [Follows, hrun, handled, hfates, hbase]
      exact underway_nil 0
  · intro p e p' hr hi _ hs
    exact accounted_move hi (sentInv_pipeline hr) (pipeline_cases hs)

/--
**Everything the listener sends is accounted for**, in every run of the two components over
any number of processes: it was taken, in the order it was sent, and published or fatal to
the forwarder; or lost with the channel of a process that died; or is in the channel. And
what the forwarder of a process does step by step is `process_internal` on what it is sent.
-/
theorem sent_accounted (env : Env) (config : Config) (fromStr : String → Option Signature)
    (listenerConfig : Listener.Config) (innerIxs : SolanaTransaction → List UiInnerInstructions)
    (p : Pipeline) (h : Reach (pipeline env config fromStr listenerConfig innerIxs) always p) :
    Accounted env config innerIxs p := accounted_reach h

/-- Nothing is sent, and nothing was taken. -/
def freshPipeline : Pipeline := ⟨freshListener, [], .running, [], 0⟩

/-- The pipeline of the examples: every transaction is published with one event. -/
def mainnetPipeline : System Pipeline PipelineEvent :=
  pipeline unreadableHistory mainnet (fun _ => none) ⟨.filled 1, .filled 2⟩ fun _ => []

theorem freshPipeline_init : mainnetPipeline.init freshPipeline :=
  ⟨freshListener_init _ _, rfl, rfl, rfl, rfl⟩

/-- Two transactions are fetched, and the forwarder takes `taken` of them. -/
def fetchTwo (taken : Nat) : List PipelineEvent :=
  [.listener (.confirm (gatewayTx 1)), .listener (.confirm (gasServiceTx 2)),
    .listener (.start none true),
    .listener (.fetchedMissed
      (.static ⟨[gatewayTx 1, gasServiceTx 2], bothTxs_distinct, bothTxs_slots⟩) 3 true)] ++
  List.replicate taken .forward

/-- The process dies with the second transaction in the channel. -/
theorem sent_accounted_crash : ∃ p, replay mainnetPipeline always freshPipeline
      (fetchTwo 1 ++ [.listener .killed, .listener .restart]) = some p ∧
    p.fates.map (fun x => (x.1.signature, decide (x.2 = .lost))) =
      [(.filled 1, false), (.filled 2, true)] ∧
    Accounted unreadableHistory mainnet (fun _ => []) p := by
  have hrun : (replay mainnetPipeline always freshPipeline
      (fetchTwo 1 ++ [.listener .killed, .listener .restart])).map (fun p =>
        p.fates.map fun x => (x.1.signature, decide (x.2 = .lost))) =
      some [(.filled 1, false), (.filled 2, true)] := by decide +kernel
  obtain ⟨p, hp, hfates⟩ := Option.map_eq_some_iff.mp hrun
  exact ⟨p, hp, hfates, sent_accounted _ _ _ _ _ p
    (Reach.of_replay (Reach.init freshPipeline_init) hp)⟩

/-! ## What a stored signature is worth -/

/-- An orderly step of the two: the listener's are, and none is left in the channel of a process. -/
def Drained (fromStr : String → Option Signature) (listenerConfig : Listener.Config)
    (p : Pipeline) : PipelineEvent → Prop
  | .listener e => Orderly fromStr listenerConfig p.listener e ∧ (e = .restart → p.logReceiver = [])
  | .forward => True

/-- No later process is forced back behind `t0`. -/
def NeverBefore (fromStr : String → Option Signature) (t0 : Option Signature) (p : Pipeline) :
    PipelineEvent → Prop
  | .listener e => NotBefore fromStr t0 p.listener e
  | .forward => True

theorem fates_of_move {e : PipelineEvent}
    (hm : PipelineMove env config fromStr listenerConfig innerIxs p e p') :
    p.fates <+: p'.fates := by
  cases hm with
  | restarted => exact List.prefix_append _ _
  | received => exact List.prefix_refl _
  | @forwarded tx rest hrun hwaiting =>
      obtain ⟨fate, -, heq⟩ := fates_forward env config innerIxs p tx rest
      rw [heq]
      exact List.prefix_append _ _
  | stopped => exact List.prefix_refl _

/--
**What was lost with the channel stays lost.** From the start of a process on, and over any
number of processes after it, nothing is sent to a forwarder but what is newer than the
signature that process found; what was in the channel when the process before it died, and
is not newer, is never taken. (Unless a signature behind that one is forced.)
-/
theorem never_retaken (env : Env) (config : Config) (fromStr : String → Option Signature)
    (listenerConfig : Listener.Config) (innerIxs : SolanaTransaction → List UiInnerInstructions)
    (died p p' : Pipeline) (n : Signature)
    (hdied : Reach (pipeline env config fromStr listenerConfig innerIxs) always died)
    (hrestart : (pipeline env config fromStr listenerConfig innerIxs).step died
      (.listener .restart) = some p)
    (hcursor : p.listener.world.latestProcessedSignature = some n)
    (hknown : n ∈ p.listener.world.chain.history.map TxStatus.signature)
    (hrun : Reach ((pipeline env config fromStr listenerConfig innerIxs).resume p)
      (NeverBefore fromStr (some n)) p') :
    p.fates <+: p'.fates ∧
      ∀ tx, tx ∈ (p'.fates.drop p.fates.length).map Prod.fst ++ p'.logReceiver →
        Due listenerConfig (some n) p'.listener.world.chain (.successful tx) := by
  have hp := Reach.tail hdied trivial hrestart
  have hmine : p.fates <+: p'.fates ∧
      SentInv listenerConfig (some n) p.listener.world.sent p'.listener.world := by
    refine Reach.invariant (P := fun q => p.fates <+: q.fates ∧
      SentInv listenerConfig (some n) p.listener.world.sent q.listener.world) ?_ ?_ hrun
    · intro q hq
      obtain rfl := hq
      refine ⟨List.prefix_refl _, .quiet ?_ ⟨[], (List.append_nil _).symm, nofun⟩ ?_⟩
      · intro u hu
        obtain rfl := Option.some.inj hu
        exact ⟨hknown, n, hcursor, hknown, Nat.le_refl _⟩
      · cases pipeline_cases hrestart with
        | restarted hm =>
            cases hm with
            | restarted => exact ⟨rfl, rfl, rfl⟩
        | received _ hne => exact absurd rfl hne
    · intro q e q' _ hi hok hs
      have hm := pipeline_cases hs
      refine ⟨hi.1.trans (fates_of_move hm), ?_⟩
      cases listener_of_move hm with
      | inl hown =>
          obtain ⟨le, rfl, hlm⟩ := hown
          exact sentInv_move hi.2 hok hlm
      | inr hsame => exact hsame ▸ hi.2
  have hempty : p.logReceiver = [] := by
    cases pipeline_cases hrestart with
    | restarted => rfl
    | received _ hne => exact absurd rfl hne
  refine ⟨hmine.1, ?_⟩
  obtain ⟨later, heq, hdue⟩ := hmine.2.sent
  have hbefore := (accounted_reach hp).sent
  have hafter := (accounted_reach (Reach.resume hp hrun fun _ _ _ => trivial)).sent
  -- what was sent since is what was taken since and what is in the channel
  obtain ⟨more, hmore⟩ := hmine.1
  have hlater : later = more.map Prod.fst ++ p'.logReceiver := by
    rw [hempty, List.append_nil] at hbefore
    rw [hbefore, hafter, ← hmore, List.map_append, List.append_assoc] at heq
    exact (List.append_cancel_left heq).symm
  rw [← hmore, List.drop_left, ← hlater]
  exact hdue

/-- The next process finds the second signature stored, and a third transaction. -/
def fetchThird : List PipelineEvent :=
  [.listener (.confirm (gasServiceTx 3)), .listener (.start none true),
    .listener (.fetchedMissed (.static
      ⟨[gatewayTx 1, gasServiceTx 2, gasServiceTx 3], by decide, by decide⟩) 3 true)]

/-- It fetches the third transaction, and not the one that was lost. -/
theorem never_retaken_third : ∃ died p p' : Pipeline, replay mainnetPipeline always freshPipeline
      (fetchTwo 1 ++ [.listener .killed]) = some died ∧
    mainnetPipeline.step died (.listener .restart) = some p ∧
    p'.logReceiver = [(gasServiceTx 3).tx] ∧ p.fates <+: p'.fates ∧
      ∀ tx, tx ∈ (p'.fates.drop p.fates.length).map Prod.fst ++ p'.logReceiver →
        Due ⟨.filled 1, .filled 2⟩ (some (.filled 2)) p'.listener.world.chain
          (.successful tx) := by
  have hrun : ((replay mainnetPipeline always freshPipeline
      (fetchTwo 1 ++ [.listener .killed])).bind fun died =>
        (mainnetPipeline.step died (.listener .restart)).bind fun p =>
          (replay mainnetPipeline always p fetchThird).map fun p' =>
            (p.listener.world.latestProcessedSignature,
              p.listener.world.chain.history.map TxStatus.signature, p'.logReceiver)) =
      some (some (.filled 2), [.filled 1, .filled 2], [(gasServiceTx 3).tx]) := by decide +kernel
  obtain ⟨died, hdied, hrest⟩ := Option.bind_eq_some_iff.mp hrun
  obtain ⟨p, hp, hrest⟩ := Option.bind_eq_some_iff.mp hrest
  obtain ⟨p', hp', hchecks⟩ := Option.map_eq_some_iff.mp hrest
  simp only [Prod.mk.injEq] at hchecks
  obtain ⟨hcursor, hhistory, hwaiting⟩ := hchecks
  have hfree : ∀ e, e ∈ fetchThird →
      ∀ q, NeverBefore (fun _ => none) (some (.filled 2)) q e := by
    intro e he q
    simp only [fetchThird, List.mem_cons, List.not_mem_nil, or_false] at he
    obtain rfl | rfl | rfl := he <;> exact trivial
  have hgo : Reach (mainnetPipeline.resume p) (NeverBefore (fun _ => none) (some (.filled 2))) p' :=
    Reach.of_replay_always (Reach.init rfl) hfree hp'
  exact ⟨died, p, p', hdied, hp, hwaiting, never_retaken _ _ _ _ _ died p p' (.filled 2)
    (Reach.of_replay (Reach.init freshPipeline_init) hdied) hp hcursor
      (by rw [hhistory]; decide) hgo⟩

end AxelarRelayer.Proof
