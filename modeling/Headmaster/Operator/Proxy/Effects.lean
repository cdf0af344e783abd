import Headmaster.Operator.Proxy.Cluster
import Headmaster.Operator.Proxy.Footprint

/-!
# What the areas change

A request changes the cluster only in its area (`Cluster.Changes`), if it
changes it at all. What no change in some areas affects is kept by every request
within them (`Within.keeps`).
-/

namespace Headmaster.Operator.Proxy

namespace Cluster

/-- The changes that a request in an area may make. -/
inductive Changes (w : Cluster) : Area → Cluster → Prop
  | removed (name : String) : Changes w .removal (w.setSecret name none)
  | stopped (name : String) : Changes w .removal (w.setStatefulSet name none)
  | rotated (name : String) : Changes w .rotation (w.setSecret name none)
  | secret (name : String) (data : List (String × Bytes)) :
    Changes w (.secret name) (w.setSecret name (some (w.appliedSecret name data)))
  | service (name : String) (spec : Option ServiceSpec) : Changes w .service (w.setChild name spec)
  | configMap (name : String) (serveJson : Option Json) :
    Changes w .configMap (w.setConfigMap name serveJson)
  | policy (name : String) (policy : Option NetworkPolicy) :
    Changes w .policy (w.setPolicy name policy)
  | statefulSet (name : String) (spec : ProxyStatefulSet) :
    Changes w .statefulSet (w.setStatefulSet name (some spec))
  | override (rewrites : List (String × String)) : Changes w .dns { w with override := rewrites }
  | key (name : String) (m : Mint) : Changes w .key (w.recordMint name m)

section Changes

variable {w w' : Cluster} {a : Area}

/-- A Secret goes, or stays as it is, unless it is applied. -/
theorem Changes.secrets_apply (h : w.Changes a w') {name : String} (ha : a ≠ .secret name) :
    w'.secrets name = w.secrets name ∨ w'.secrets name = none := by
  have hset (n : String) : (w.setSecret n none).secrets name = w.secrets name ∨
      (w.setSecret n none).secrets name = none := by
    by_cases hn : name = n
    · exact .inr (hn ▸ w.secrets_setSecret name none)
    · exact .inl (w.secrets_setSecret_of_ne n hn none)
  cases h with
  | removed n => exact hset n
  | rotated n => exact hset n
  | secret n data => exact .inl (w.secrets_setSecret_of_ne n (fun hn => ha (congrArg _ hn.symm)) _)
  | _ => exact .inl rfl

theorem Changes.secrets_eq (h : w.Changes a w') (hremoval : a ≠ .removal) (hrotation : a ≠ .rotation)
    (hsecret : ∀ name, a ≠ .secret name) : w'.secrets = w.secrets := by
  cases h with
  | removed | stopped => exact absurd rfl hremoval
  | rotated => exact absurd rfl hrotation
  | secret name => exact absurd rfl (hsecret name)
  | _ => rfl

theorem Changes.minted_eq (h : w.Changes a w') (ha : a ≠ .key) : w'.minted = w.minted := by
  cases h with
  | key => exact absurd rfl ha
  | _ => rfl

theorem Changes.issued_eq (h : w.Changes a w') : w'.issued = w.issued := by
  cases h <;> rfl

theorem Changes.children_eq (h : w.Changes a w') (ha : a ≠ .service) : w'.children = w.children := by
  cases h with
  | service => exact absurd rfl ha
  | _ => rfl

theorem Changes.configMaps_eq (h : w.Changes a w') (ha : a ≠ .configMap) :
    w'.configMaps = w.configMaps := by
  cases h with
  | configMap => exact absurd rfl ha
  | _ => rfl

theorem Changes.policies_eq (h : w.Changes a w') (ha : a ≠ .policy) : w'.policies = w.policies := by
  cases h with
  | policy => exact absurd rfl ha
  | _ => rfl

theorem Changes.override_eq (h : w.Changes a w') (ha : a ≠ .dns) : w'.override = w.override := by
  cases h with
  | override => exact absurd rfl ha
  | _ => rfl

theorem Changes.pods_eq (h : w.Changes a w') : w'.pods = w.pods ∧ w'.runs = w.runs := by
  cases h <;> exact ⟨rfl, rfl⟩

end Changes

/-- A Service is applied as it is asked for, or not at all. -/
theorem changes_applyService (w : Cluster) (name : String) (spec : ServiceSpec) :
    (w.applyService name spec).2 = w ∨ w.Changes .service (w.applyService name spec).2 := by
  rw [applyService]
  split
  · split
    · exact .inl rfl
    · exact .inr (.service name _)
  · exact .inr (.service name _)

theorem changes_mint (w : Cluster) (headscale : AuthenticatedClient)
    (request : CreatePreAuthKeyRequest) (r : Except Status (Option PreAuthKey)) :
    (w.mint headscale request r).2 = w ∨ w.Changes .key (w.mint headscale request r).2 := by
  rw [mint.eq_def]
  split
  · exact .inl rfl
  · split
    · exact .inl rfl
    · exact .inr (.key _ _)

end Cluster

open Cluster (Changes)

theorem changes_serve {α : Type} {f : Fate} {w w' : Cluster} {r : Except KubeError α} {a : Area}
    (h : w.Changes a w') :
    (f.serve w w' r).2 = w ∨ w.Changes a (f.serve w w' r).2 := by
  rcases @Fate.serve_snd α f w w' r with hs | hs
  · exact .inl hs
  · refine .inr ?_
    rw [hs]
    exact h

/-- A request changes the cluster in its area, if at all. -/
theorem changes_act (f : Fate) (o : Op) (w : Cluster) :
    (act f o w).2 = w ∨ ∃ a, o.area = some a ∧ w.Changes a (act f o w).2 := by
  have hserve {α : Type} {w' : Cluster} {r : Except KubeError α} {a : Area}
      (ha : o.area = some a) (h : w.Changes a w') :
      (f.serve w w' r).2 = w ∨ ∃ a, o.area = some a ∧ w.Changes a (f.serve w w' r).2 :=
    (changes_serve h).imp_right fun hs => ⟨a, ha, hs⟩
  match o with
  | .apply _ (.secret name data) => exact hserve rfl (.secret name data)
  | .apply _ (.service name spec) =>
    rcases w.changes_applyService name spec with hsame | hchanges
    · exact .inl (Fate.serve_keeps (φ := id) hsame)
    · exact hserve rfl hchanges
  | .apply _ (.configMap name json) => exact hserve rfl (.configMap name json)
  | .apply _ (.statefulSet name spec) => exact hserve rfl (.statefulSet name spec)
  | .apply _ (.networkPolicy policy) => exact hserve rfl (.policy policy.name policy)
  | .delete (.secret .cleanup) name | .delete (.secret .retarget) name =>
    exact hserve rfl (.removed name)
  | .delete (.secret .lost) name | .delete (.secret .rejectedKey) name
  | .delete (.secret .rejectedIdentity) name | .delete (.secret .expired) name =>
    exact hserve rfl (.rotated name)
  | .delete .service name => exact hserve rfl (.service name none)
  | .delete .configMap name => exact hserve rfl (.configMap name none)
  | .delete .statefulSet name => exact hserve rfl (.stopped name)
  | .delete .networkPolicy name => exact hserve rfl (.policy name none)
  | .applyOverride rewrites => exact hserve rfl (.override rewrites)
  | .createPreAuthKey headscale request =>
    exact (w.changes_mint headscale request _).imp_right fun h => ⟨_, rfl, h⟩
  | .getSecret _ | .getWgService _ | .getPod _ | .listServices => exact .inl Fate.serve_same
  | .getInstance _ | .getService _ _ | .getNamespace _ | .getParent _ | .patchParent _ _
  | .publish _ _ | .connect _ | .getNode _ _ | .deleteNode _ _ | .setTags _ _ _ | .listUsers _ _
  | .deletePreAuthKey _ _ | .now | .join _ | .apply _ (.serviceAccount _) | .apply _ (.role _ _)
  | .apply _ (.roleBinding _) | .delete .roleBinding _ | .delete .role _ | .delete .serviceAccount _ =>
    exact .inl rfl

variable {S : Area → Prop} {o : Op} {f : Fate} {w : Cluster}

/-- What no change in some areas affects is kept by a request within them. -/
theorem Within.keeps {P : Cluster → Prop} (ho : Within S o)
    (hP : ∀ a w', S a → w.Changes a w' → P w') (hw : P w) : P (cluster.act f o w).2 := by
  rcases changes_act f o w with hsame | ⟨a, ha, hchanges⟩
  · change P (act f o w).2
    rwa [hsame]
  · exact hP a _ (ho a ha) hchanges

end Headmaster.Operator.Proxy
