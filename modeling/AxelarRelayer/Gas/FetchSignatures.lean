import Mathlib.Logic.Function.Iterate
import AxelarRelayer.Gas.Computation

/-!
# `fetch_signatures`, pass by pass

The loop against any client: signatures come as text, a page may be shorter than its
limit, and requests fail with an error of their own. `Gas.fetchSignatures` is the case of
a node that fills its pages (`Lookup.client`).
-/

namespace AxelarRelayer.Gas

open AxelarRelayer

/-- `RpcConfirmedTransactionStatusWithSignature`, of which the signature is read. -/
structure SignatureInfo where
  signature : String
deriving DecidableEq

/-- What the loop calls. -/
structure SignatureClient where
  /--
  `get_signatures_for_address_with_config`, as the `n`-th page request, for an address,
  `before` and `limit`
  -/
  getSignaturesForAddress :
    Nat → Pubkey → Option Signature → Nat → Except Report (List SignatureInfo)
  /-- `str::parse::<Signature>` -/
  parse : String → Except Report Signature

/-- The locals of `fetch_signatures` between two passes through its loop. -/
structure FetchSignatures where
  allSignatures : List Signature
  beforeSig : Option Signature
  /-- page requests made so far -/
  requests : Nat
  /-- what the call returned, once it has -/
  result : Option (Except Report (List Signature))

namespace FetchSignatures

/-- The state in which the call starts. -/
def start : FetchSignatures := ⟨[], none, 0, none⟩

variable (client : SignatureClient) (address : Pubkey) (limit : Nat)

/-- One pass through the loop. -/
def pass (s : FetchSignatures) : FetchSignatures :=
  match s.result with
  | some _ => s
  | none =>
      let s' := { s with requests := s.requests + 1 }
      match client.getSignaturesForAddress s.requests address s.beforeSig limit with
      | .error error => { s' with result := some (.error error) }
      | .ok page =>
          match page.getLast? with
          | none => { s' with result := some (.ok s.allSignatures) } -- `page.is_empty()`
          | some info =>
              match client.parse info.signature with
              | .error error => { s' with result := some (.error error) }
              | .ok before =>
                  -- of the others, what cannot be parsed is left out
                  let parsed := page.filterMap fun info => (client.parse info.signature).toOption
                  { s' with
                    beforeSig := some before
                    allSignatures := s.allSignatures ++ parsed }

/-- The call after `k` passes. -/
def after (k : Nat) : FetchSignatures := (pass client address limit)^[k] start

end FetchSignatures

/-- The client of a lookup, given how signatures are written down. -/
def Lookup.client (lookup : Lookup) (text : Signature → String)
    (parse : String → Except Report Signature) : SignatureClient where
  getSignaturesForAddress n address before limit :=
    if lookup.pageFails n then .error (.msg "getSignaturesForAddress failed")
    else .ok (((lookup.chainAt n).getSignaturesForAddress address before none limit).map fun st =>
      ⟨text st.signature⟩)
  parse := parse

end AxelarRelayer.Gas
