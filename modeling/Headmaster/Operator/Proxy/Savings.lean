import Mathlib.Data.List.Pairwise
import Headmaster.Operator.Proxy.Keys
import Headmaster.Operator.Proxy.KeyCalls

/-!
# Keys that are saved

A key is minted by headscale and saved on the API server, two systems without a
transaction. When the save fails, the key is deleted again; but a save may fail
when it has had its effect.

* `liveKey_of_told`: unless that happens, no proxy goes on with a key that the
  operator has deleted, in whatever order the reconciles take their requests,
  and no key is left behind by a reconcile that fails;
* `deadKey_of_lost`: when it happens, the next reconcile finds the key that was
  deleted, and goes on with it.
-/

namespace Headmaster.Operator.Proxy

open Process (Entry Made Pool Prog trace)
open Process.Machine (Keeps)

/-! ## On a cluster -/

section Clusters

variable {w : Cluster} {names : ProxyNames} {name : String} {data : List (String × Bytes)} {o : Op}

/-- A Secret that is applied without a key keeps the one it has. -/
theorem extractAuthKey_appliedSecret (hdata : (data.any fun item => item.1 == "key") = false) :
    extractAuthKey (w.appliedSecret name data) = (w.secrets name).bind extractAuthKey := by
  have hnot : "key" ∉ data.map Prod.fst := by
    intro hmem
    obtain ⟨item, hitem, hkey⟩ := List.mem_map.1 hmem
    exact List.any_eq_false.1 hdata item hitem (beq_iff_eq.2 hkey)
  rw [extractAuthKey, readSecretString, Cluster.appliedSecret]
  split
  · rename_i secret hsecret
    rw [Props.lookup_extend, Props.last_eq_none_iff.2 hnot, Option.none_or, hsecret]
    rfl
  · rename_i hnone
    have hlookup : data.lookup "key" = none := by
      refine List.lookup_eq_none_iff.2 fun item hitem => bne_iff_ne.2 fun hkey => hnot ?_
      exact hkey ▸ List.mem_map_of_mem hitem
    rw [hnone, hlookup]
    rfl

theorem exists_of_area_secret (h : o.area = some (.secret name)) :
    ∃ child data, o = .apply child (.secret name data) := by
  match o, h with
  | .apply child (.secret _ data), rfl => exact ⟨child, data, rfl⟩

/-- The key of a proxy stays or goes, unless another one is saved. -/
theorem authKey_act (f : Fate) (o : Op) (w : Cluster) (names : ProxyNames) :
    ((cluster.act f o w).2.authKey names = w.authKey names ∨
      (cluster.act f o w).2.authKey names = none) ∨
      ∃ child data, o = .apply child (.secret names.configSecretName data) ∧ o.savesKey = true := by
  rcases changes_act f o w with hsame | ⟨a, ha, hchanges⟩
  · exact .inl (.inl (congrArg (Cluster.authKey · names) hsame))
  by_cases hsecret : a = .secret names.configSecretName
  · subst hsecret
    obtain ⟨child, data, rfl⟩ := exists_of_area_secret ha
    cases hsaves : Op.savesKey (.apply child (.secret names.configSecretName data)) with
    | true => exact .inr ⟨child, data, rfl, rfl⟩
    | false =>
      refine .inl (.inl ?_)
      have hserve : (cluster.act f (.apply child (.secret names.configSecretName data)) w).2 = w ∨
          (cluster.act f (.apply child (.secret names.configSecretName data)) w).2 =
            w.setSecret names.configSecretName
              (some (w.appliedSecret names.configSecretName data)) := Fate.serve_snd
      rcases hserve with hs | hs
      · exact congrArg (Cluster.authKey · names) hs
      · refine (congrArg (Cluster.authKey · names) hs).trans ?_
        rw [Cluster.authKey, Cluster.secrets_setSecret]
        exact extractAuthKey_appliedSecret hsaves
  · exact .inl ((hchanges.secrets_apply hsecret).imp
      (congrArg fun secret : Option Secret => secret.bind extractAuthKey)
      (congrArg fun secret : Option Secret => secret.bind extractAuthKey))

end Clusters

/-! ## Runs -/

section Runs

/-- The key that a call got, and the headscale that it is of. -/
def newKey? : Made sig → Option (AuthenticatedClient × PreAuthKey)
  | ⟨.createPreAuthKey headscale _, .ok (some key)⟩ => some (headscale, key)
  | _ => none

/-- The operator has told a headscale to delete a key that it had got there, and may have been told
    that it could not be. -/
def Deleted (hist : List (Entry sig Cluster)) (key : String) : Prop :=
  ∃ e ∈ hist, ∃ headscale new, newKey? e.made = some (headscale, new) ∧ new.key = key ∧
    ∃ e' ∈ hist, ∃ headscale' r, headscale'.instanceName = headscale.instanceName ∧
      e'.made = keyDeleted headscale' new r

/-- Two keys that were given out are different, and so are their ids in one headscale. -/
def KeysDiffer (c c' : Made sig) : Prop := ∀ new ∈ newKey? c, ∀ old ∈ newKey? c',
  new.2.key ≠ old.2.key ∧ (new.1.instanceName = old.1.instanceName → new.2.id ≠ old.2.id)

variable (digest : Digest) (turns : List Turn)

/-- A key that headscale gives out is a new one: no other was the same, and no proxy has it. -/
def KeysNew (s : Pool sig Error Action Cluster) : Process.Event Fate (Cluster → Cluster) → Prop
  | .act i f => ∀ o ∈ s.threads[i]?.bind Prog.next?,
    (∀ e ∈ s.history, KeysDiffer ⟨o, (cluster.act f o s.world).1⟩ e.made) ∧
      ∀ t ∈ turns, ∀ new ∈ newKey? ⟨o, (cluster.act f o s.world).1⟩,
        s.world.authKey (t.names digest) ≠ some new.2.key
  | .env _ => True

/-- Others leave the keys of proxies, or delete them. -/
def KeysLeft (s : Pool sig Error Action Cluster) : Process.Event Fate (Cluster → Cluster) → Prop
  | .act _ _ => True
  | .env g => ∀ t ∈ turns, (g s.world).authKey (t.names digest) = s.world.authKey (t.names digest) ∨
    (g s.world).authKey (t.names digest) = none

/-- No save of a key reports an error when it has had its effect. -/
def SavesTold (s : Pool sig Error Action Cluster) : Process.Event Fate (Cluster → Cluster) → Prop
  | .act i f => ∀ o ∈ s.threads[i]?.bind Prog.next?, Op.savesKey o = true → f.failure ≠ some true
  | .env _ => True

instance (c c' : Made sig) : Decidable (KeysDiffer c c') :=
  inferInstanceAs (Decidable (∀ new ∈ newKey? c, ∀ old ∈ newKey? c', new.2.key ≠ old.2.key ∧
    (new.1.instanceName = old.1.instanceName → new.2.id ≠ old.2.id)))

instance (s : Pool sig Error Action Cluster) : ∀ e, Decidable (KeysNew digest turns s e)
  | .act i f => inferInstanceAs (Decidable (∀ o ∈ s.threads[i]?.bind Prog.next?,
    (∀ e ∈ s.history, KeysDiffer ⟨o, (cluster.act f o s.world).1⟩ e.made) ∧
      ∀ t ∈ turns, ∀ new ∈ newKey? ⟨o, (cluster.act f o s.world).1⟩,
        s.world.authKey (t.names digest) ≠ some new.2.key))
  | .env _ => .isTrue trivial

instance (s : Pool sig Error Action Cluster) : ∀ e, Decidable (KeysLeft digest turns s e)
  | .act _ _ => .isTrue trivial
  | .env g => inferInstanceAs (Decidable (∀ t ∈ turns,
    (g s.world).authKey (t.names digest) = s.world.authKey (t.names digest) ∨
      (g s.world).authKey (t.names digest) = none))

instance (s : Pool sig Error Action Cluster) : ∀ e, Decidable (SavesTold s e)
  | .act i f => inferInstanceAs (Decidable (∀ o ∈ s.threads[i]?.bind Prog.next?,
    Op.savesKey o = true → f.failure ≠ some true))
  | .env _ => .isTrue trivial

/-- What is known of the keys of a pool: each is on its course, they are all different, and those
    that proxies have are said to be saved. -/
structure KeysKept (s : Pool sig Error Action Cluster) : Prop where
  courses : ∀ i, Keeps KeepsCourse (fun _ _ => True) i s
  handling : ∀ i, Handling (keyCalls (trace i s.history))
  differ : s.history.Pairwise fun e e' => KeysDiffer e.made e'.made
  saved : ∀ t ∈ turns, ∀ key ∈ s.world.authKey (t.names digest), ∀ e ∈ s.history,
    ∀ headscale new, newKey? e.made = some (headscale, new) → new.key = key →
      ∃ e' ∈ s.history, e'.thread = e.thread ∧
        ∃ child name, e'.made = keySaved child name new (.ok ())

variable {digest turns} {s s' : Pool sig Error Action Cluster}

theorem newKey?_keyCreated (headscale : AuthenticatedClient) (request : CreatePreAuthKeyRequest)
    (key : PreAuthKey) : newKey? (keyCreated headscale request key) = some (headscale, key) := rfl

instance : Std.Symm fun e e' : Entry sig Cluster => KeysDiffer e.made e'.made where
  symm _ _ h new hnew old hold :=
    ⟨(h old hold new hnew).1.symm, fun hinst heq => (h old hold new hnew).2 hinst.symm heq.symm⟩

/-- Of two calls that got the same key, or the same id from the same headscale, there is one. -/
theorem KeysKept.eq_of_same (h : KeysKept digest turns s) {e e' : Entry sig Cluster}
    (he : e ∈ s.history) (he' : e' ∈ s.history) {new old : AuthenticatedClient × PreAuthKey}
    (hnew : newKey? e.made = some new) (hold : newKey? e'.made = some old)
    (hsame : new.2.key = old.2.key ∨
      new.1.instanceName = old.1.instanceName ∧ new.2.id = old.2.id) : e = e' := by
  by_contra hne
  obtain ⟨hkey, hid⟩ := h.differ.forall he he' hne new hnew old hold
  rcases hsame with heq | ⟨hinst, heq⟩
  · exact hkey heq
  · exact hid hinst heq

/-- An apply that was answered with success. -/
def appliedOk : Made sig → Bool
  | ⟨.apply _ _, .ok ()⟩ => true
  | _ => false

theorem keySaved_ok_ne {child child' : ChildApplier} {name name' : String} {key key' : PreAuthKey}
    {e : KubeError} : keySaved child name key (.ok ()) ≠ keySaved child' name' key' (.error e) := by
  intro h
  have hok : true = false := congrArg appliedOk h
  cases hok

/-- What a thread has deleted, it has got, and was told not to be saved. -/
theorem Handling.of_deleted {tr : List (Made sig)} (h : Handling (keyCalls tr))
    {headscale : AuthenticatedClient} {new : PreAuthKey} {r : Except Status Unit}
    (hmem : keyDeleted headscale new r ∈ tr) : ∃ request key, key.id = new.id ∧
      keyCreated headscale request key ∈ tr ∧
      ∀ child name key', keySaved child name key' (.ok ()) ∉ tr := by
  have hcall : keyDeleted headscale new r ∈ keyCalls tr := (mem_keyCalls rfl).2 hmem
  have hsaves (child : ChildApplier) (name : String) (key' : PreAuthKey)
      (hsaved : keySaved child name key' (.ok ()) ∈ tr) :
      keySaved child name key' (.ok ()) ∈ keyCalls tr := (mem_keyCalls rfl).2 hsaved
  have hcreates (request : CreatePreAuthKeyRequest) (key : PreAuthKey)
      (hcreated : keyCreated headscale request key ∈ keyCalls tr) :
      keyCreated headscale request key ∈ tr := (mem_keyCalls rfl).1 hcreated
  -- Of the courses that a key can take, only one ends with its deletion.
  generalize keyCalls tr = l at h hcall hsaves hcreates
  cases h with
  | none => cases hcall
  | refused => cases List.mem_singleton.1 hcall
  | created => cases List.mem_singleton.1 hcall
  | saved =>
    simp only [List.mem_cons, List.not_mem_nil, or_false] at hcall
    rcases hcall with heq | heq <;> cases heq
  | deleted headscale' request key child name e r' =>
    simp only [List.mem_cons, List.not_mem_nil, or_false] at hcall
    rcases hcall with heq | heq | heq
    · obtain ⟨rfl, hid⟩ := Op.deletePreAuthKey.inj (congrArg Made.op heq)
      refine ⟨request, key, hid.symm, hcreates request key (by simp), ?_⟩
      intro child' name' key' hsaved
      have hmem := hsaves child' name' key' hsaved
      simp only [List.mem_cons, List.not_mem_nil, or_false] at hmem
      rcases hmem with heq | heq | heq
      · cases heq
      · exact keySaved_ok_ne heq
      · cases heq
    · cases heq
    · cases heq

/-- No proxy has a key that was deleted. -/
theorem KeysKept.not_deleted (h : KeysKept digest turns s) {t : Turn} (ht : t ∈ turns)
    {key : String} (hkey : key ∈ s.world.authKey (t.names digest)) : ¬Deleted s.history key := by
  rintro ⟨e, he, headscale, new, hnew, hsame, e', he', headscale', r, hinst, hdeleted⟩
  have htrace : keyDeleted headscale' new r ∈ trace e'.thread s.history :=
    Process.mem_trace.2 ⟨e', he', rfl, hdeleted⟩
  obtain ⟨request, key', hid, hcreated, hunsaved⟩ := (h.handling e'.thread).of_deleted htrace
  obtain ⟨e'', he'', hthread, hmade⟩ := Process.mem_trace.1 hcreated
  -- the thread that has deleted it is the one that got it
  have hnew' : newKey? e''.made = some (headscale', key') :=
    hmade ▸ newKey?_keyCreated headscale' request key'
  have heq : e = e'' := h.eq_of_same he he'' hnew hnew' (.inr ⟨hinst.symm, hid.symm⟩)
  obtain ⟨e₀, he₀, hthread₀, child, name, hsaved⟩ :=
    h.saved t ht key hkey e he headscale new hnew hsame
  refine hunsaved child name new (Process.mem_trace.2 ⟨e₀, he₀, ?_, hsaved⟩)
  rw [hthread₀, heq, hthread]

/-- What a thread saves is the key that it has got. -/
theorem Handling.of_saves {tr : List (Made sig)} {child : ChildApplier} {name : String}
    {data : List (String × Bytes)} {r : Except KubeError Unit}
    (h : Handling (keyCalls (⟨.apply child (.secret name data), r⟩ :: tr)))
    (hsaves : Op.savesKey (.apply child (.secret name data)) = true) :
    ∃ headscale request key, keyCreated headscale request key ∈ tr ∧
      data = [("key", .utf8 key.key)] := by
  rw [keyCalls_cons (by exact hsaves)] at h
  generalize hl : (⟨.apply child (.secret name data), r⟩ : Made sig) :: keyCalls tr = l at h
  cases h with
  | none => cases hl
  | refused => cases (List.cons.inj hl).1
  | created => cases (List.cons.inj hl).1
  | deleted => cases (List.cons.inj hl).1
  | saved headscale request key child' name' r' =>
    obtain ⟨hcall, htrace⟩ := List.cons.inj hl
    refine ⟨headscale, request, key, (mem_keyCalls rfl).1 ?_, ?_⟩
    · rw [htrace]
      exact List.mem_singleton_self _
    · exact (Child.secret.inj (Op.apply.inj (congrArg Made.op hcall)).2).2

/-- The key that is saved is the only one that is there after. -/
theorem eq_of_authKey_setSecret {w : Cluster} {names : ProxyNames} {key saved : String}
    (h : key ∈ (w.setSecret names.configSecretName (some (w.appliedSecret names.configSecretName
      [("key", .utf8 saved)]))).authKey names) : key = saved := by
  rw [Cluster.authKey, Cluster.secrets_setSecret, Option.bind_some, extractAuthKey,
    readSecretString_appliedSecret] at h
  exact (Option.some.inj (Option.filter_eq_some_iff.1 h).1).symm

/-- A save that does not report an error after its effect leaves the old key, or says so. -/
theorem authKey_of_save {f : Fate} {w : Cluster} {names : ProxyNames} {child : ChildApplier}
    {key saved : String} (htold : f.failure ≠ some true)
    (h : key ∈ (cluster.act f (.apply child (.secret names.configSecretName
      [("key", .utf8 saved)])) w).2.authKey names) :
    key ∈ w.authKey names ∨ key = saved ∧
      (cluster.act f (.apply child (.secret names.configSecretName [("key", .utf8 saved)])) w).1 =
        .ok () := by
  change key ∈ Cluster.authKey (f.serve w _ (.ok ())).2 names at h
  change _ ∨ key = saved ∧ (f.serve w _ (.ok ())).1 = .ok ()
  rw [Fate.serve] at h ⊢
  cases hfailure : f.failure with
  | none =>
    rw [hfailure] at h
    exact .inr ⟨eq_of_authKey_setSecret h, rfl⟩
  | some told =>
    rw [hfailure] at h htold
    cases told with
    | true => exact absurd rfl htold
    | false => exact .inl h

theorem KeysKept.step (h : KeysKept digest turns s) {e : Process.Event Fate (Cluster → Cluster)}
    (hnew : KeysNew digest turns s e) (hleft : KeysLeft digest turns s e) (htold : SavesTold s e)
    (hst : cluster.step s e = some s') : KeysKept digest turns s' := by
  rcases Process.Machine.step_cases hst with ⟨i, f, o, k, rfl, hi, -, rfl⟩ | ⟨g, rfl, rfl⟩
  · have hnext : o ∈ s.threads[i]?.bind Prog.next? := by
      rw [hi]
      rfl
    -- A call of some reconcile: only a save changes the key of a proxy, to what it saves.
    let entry : Entry sig Cluster := ⟨i, o, (cluster.act f o s.world).1, s.world⟩
    have hhandling : Handling (keyCalls (entry.made :: trace i s.history)) := (h.courses i _ hi).1 _
    refine ⟨fun j => (h.courses j).advance hi, fun j => ?_, List.pairwise_cons.2 ⟨?_, h.differ⟩, ?_⟩
    · rcases eq_or_ne i j with rfl | hne
      · exact Process.trace_cons_self entry s.history ▸ hhandling
      · exact Process.trace_cons_of_ne (e := entry) hne s.history ▸ h.handling j
    · exact (hnew o hnext).1
    · intro t ht key hkey e he headscale new hmint hsame
      have hold (hkey : key ∈ s.world.authKey (t.names digest)) :
          ∃ e' ∈ entry :: s.history, e'.thread = e.thread ∧
            ∃ child name, e'.made = keySaved child name new (.ok ()) := by
        rcases List.mem_cons.1 he with rfl | he
        · -- a key that is new is in no Secret
          exact absurd (hsame ▸ hkey) ((hnew o hnext).2 t ht _ hmint)
        · obtain ⟨e', he', hsaved⟩ := h.saved t ht key hkey e he headscale new hmint hsame
          exact ⟨e', List.mem_cons_of_mem _ he', hsaved⟩
      rcases authKey_act f o s.world (t.names digest) with
        (hkept | hgone) | ⟨child, data, rfl, hsaves⟩
      · exact hold (hkept ▸ hkey)
      · exact nomatch hgone ▸ hkey
      · obtain ⟨_, _, key', hcreated, rfl⟩ := hhandling.of_saves hsaves
        rcases authKey_of_save (htold _ hnext hsaves) hkey with hkey | ⟨heq, hok⟩
        · exact hold hkey
        · -- it is the key of the thread, as there is no other of its kind
          rcases List.mem_cons.1 he with rfl | he
          · cases hmint
          · obtain ⟨e', he', hthread, hmade⟩ := Process.mem_trace.1 hcreated
            have hkey' : newKey? e'.made = some (_, key') := hmade ▸ newKey?_keyCreated _ _ key'
            obtain rfl := h.eq_of_same he he' hmint hkey' (.inl (hsame.trans heq))
            obtain rfl : new = key' := (Prod.mk.inj (Option.some.inj (hmint.symm.trans hkey'))).2
            have hsaved : entry.made =
                keySaved child (t.names digest).configSecretName new (.ok ()) :=
              congrArg (Made.mk _) hok
            exact ⟨entry, List.mem_cons_self, hthread.symm, child, _, hsaved⟩
  · refine ⟨h.courses, h.handling, h.differ, fun t ht key hkey => h.saved t ht key ?_⟩
    rcases hleft t ht with hsame | hnone
    · exact hsame ▸ hkey
    · exact nomatch hnone ▸ hkey

variable {read : Reader} {dep : Deployment} {w : Cluster}
  {events : List (Process.Event Fate (Cluster → Cluster))}

theorem keysKept_reconciles : KeysKept digest turns (reconciles read digest dep turns w) where
  courses i p hi := by
    rw [reconciles, List.getElem?_map, Option.map_eq_some_iff] at hi
    obtain ⟨t, _, rfl⟩ := hi
    exact Prog.wp_mono (fun _ _ _ => trivial) (keyWalk_onCourse.reconcile [] rfl)
  handling _ := .none
  differ := .nil
  saved _ _ _ _ _ he := nomatch he

theorem keysKept_of_told
    (hnew : cluster.Along (KeysNew digest turns) (reconciles read digest dep turns w) events)
    (hleft : cluster.Along (KeysLeft digest turns) (reconciles read digest dep turns w) events)
    (htold : cluster.Along SavesTold (reconciles read digest dep turns w) events)
    (hexec : cluster.exec (reconciles read digest dep turns w) events = some s) :
    KeysKept digest turns s :=
  Process.Machine.exec_induction_along (P := KeysKept digest turns)
    (fun _ _ _ h he hst => h.step he.1 he.2.1 he.2.2 hst) keysKept_reconciles
    (hnew.and (hleft.and htold)) hexec

/-- A reconcile that is about to write the state Secret has just got a key, or found one. -/
theorem ready_of_savesRef
    (hexec : cluster.exec (reconciles read digest dep turns w) events = some s) {i : ℕ} {t : Turn}
    (ht : turns[i]? = some t) {o : Op}
    (ho : o ∈ s.threads[i]?.bind Prog.next?) (hsaves : o.savesRef = true) :
    ∃ mid, EnsureReturned (t.names digest) (t.reconcile read digest dep) (trace i s.history) mid
      (.ok .ready) := by
  have hi : (reconciles read digest dep turns w).threads[i]? =
      some (t.reconcile read digest dep) := by
    rw [reconciles, List.getElem?_map, ht, Option.map_some]
  obtain ⟨q, hq, hleads⟩ := Process.Machine.exec_leads rfl hexec hi
  rw [hq, Option.bind_some] at ho
  cases q with
  | ret _ => cases ho
  | call _ k =>
    obtain rfl := Option.some.inj ho
    exact keyWalk_savesRefWithKey.reconcile _ _ k hleads hsaves

/-- As long as no save of a key reports an error when it has had its effect: when `ensureAuthKey`
    returns with a key, it is not one that the operator has deleted, and when it fails, the key
    that it has got is deleted. -/
theorem liveKey_of_told
    (hnew : cluster.Along (KeysNew digest turns) (reconciles read digest dep turns w) events)
    (hleft : cluster.Along (KeysLeft digest turns) (reconciles read digest dep turns w) events)
    (htold : cluster.Along SavesTold (reconciles read digest dep turns w) events)
    (hexec : cluster.exec (reconciles read digest dep turns w) events = some s) :
    ∀ i, ∀ t ∈ turns[i]?, ∀ mid r,
      EnsureReturned (t.names digest) (t.reconcile read digest dep) (trace i s.history) mid r →
        (r = .ok .ready → ∀ key ∈ s.world.authKey (t.names digest), ¬Deleted s.history key) ∧
        ∀ e, r = .error e → KeysDropped mid := by
  rintro i t ht mid r ⟨_, _, _, _, _, _, _, _, _, _, _, _, _, hmid⟩
  refine ⟨fun _ key hkey => ?_, fun e he => ?_⟩
  · exact (keysKept_of_told hnew hleft htold hexec).not_deleted (List.mem_of_getElem? ht) hkey
  · have hnil : keyCalls [] = [] := rfl
    have hends := hmid.wp (ensureAuthKey_ends hnil)
    rw [List.append_nil] at hends
    intro headscale request new hmem
    obtain ⟨r', hr'⟩ := hends.2 e he headscale request new ((mem_keyCalls rfl).2 hmem)
    exact ⟨r', (mem_keyCalls rfl).1 hr'⟩

end Runs

namespace Savings

open Orphans (sha256 deployment)
open Shop (reader main fresh working succeeds fails)

/-! ### A Service whose key is not saved -/

/-- The Service is reconciled again. -/
def twice : List Turn := [.service (Shop.external main), .service (Shop.external main)]

def names : ProxyNames := (Shop.external main).names sha256

/-- Headscale gives out another key. -/
def mintsOther (i : ℕ) : Process.Event Fate (Cluster → Cluster) :=
  .act i { working with answer := fun
    | .createPreAuthKey _ _ => .ok (some ⟨2, "other"⟩)
    | o => working.answer o }

/-- The next request has its effect, and is said to have failed. -/
def loses (i : ℕ) : Process.Event Fate (Cluster → Cluster) :=
  .act i { working with failure := some true }

def start : Pool sig Error Action Cluster := reconciles reader sha256 deployment twice fresh

/-- The key is not saved, and the next reconcile saves another one. -/
def again : List (Process.Event Fate (Cluster → Cluster)) :=
  succeeds 0 11 ++ fails 0 :: succeeds 0 1 ++ (succeeds 1 10 ++ mintsOther 1 :: succeeds 1 1)

/-- The key is saved, though it is said not to be. -/
def lost : List (Process.Event Fate (Cluster → Cluster)) :=
  succeeds 0 11 ++ loses 0 :: succeeds 0 1 ++ succeeds 1 10

/-- The id of a key that headscale has deleted. -/
def deletedId? : Made sig → Option (AuthenticatedClient × Nat)
  | ⟨.deletePreAuthKey headscale id, .ok ()⟩ => some (headscale, id)
  | _ => none

theorem deletedId?_eq_some {c : Made sig} {headscale : AuthenticatedClient} {key : PreAuthKey}
    (h : deletedId? c = some (headscale, key.id)) : c = keyDeleted headscale key (.ok ()) := by
  rw [deletedId?.eq_def] at h
  split at h
  · cases h
    rfl
  · cases h

end Savings

open Orphans (sha256 deployment) in
open Shop (reader main fresh) in
open Savings (twice names again) in
/-- The first reconcile deletes the key that it could not save, and the second one saves another. -/
theorem liveKey_of_told_again : ∃ s,
    cluster.exec (reconciles reader sha256 deployment twice fresh) again = some s ∧
    s.world.authKey names = some "other" ∧
    (∃ mid, EnsureReturned names
      ((Turn.service (Shop.external main)).reconcile reader sha256 deployment) (trace 1 s.history)
      mid (.ok .ready)) ∧ ¬Deleted s.history "other" := by
  have hnew : cluster.Along (KeysNew sha256 twice) (reconciles reader sha256 deployment twice fresh)
      again := by decide +kernel
  have hleft : cluster.Along (KeysLeft sha256 twice)
      (reconciles reader sha256 deployment twice fresh) again := by decide +kernel
  have htold : cluster.Along SavesTold (reconciles reader sha256 deployment twice fresh) again := by
    decide +kernel
  have hrun : (cluster.exec (reconciles reader sha256 deployment twice fresh) again).any (fun s =>
      s.world.authKey names == some "other" &&
        (s.threads[1]?.bind Prog.next?).any Op.savesRef) = true := by
    decide +kernel
  obtain ⟨s, hs, hcheck⟩ := Option.any_eq_true _ _ |>.1 hrun
  rw [Bool.and_eq_true, beq_iff_eq] at hcheck
  obtain ⟨o, ho, hsaves⟩ := Option.any_eq_true _ _ |>.1 hcheck.2
  obtain ⟨mid, hready⟩ := ready_of_savesRef hs (i := 1) rfl ho hsaves
  refine ⟨s, hs, hcheck.1, ⟨mid, hready⟩, ?_⟩
  exact (liveKey_of_told hnew hleft htold hs 1 _ rfl mid _ hready).1 rfl "other" hcheck.1

open Orphans (sha256 deployment) in
open Shop (reader main fresh) in
open Savings (twice names lost deletedId? deletedId?_eq_some) in
/-- The first reconcile deletes the key that it has saved, and the second one goes on with it. -/
theorem deadKey_of_lost : ∃ s,
    cluster.Along (KeysNew sha256 twice) (reconciles reader sha256 deployment twice fresh) lost ∧
    cluster.Along (KeysLeft sha256 twice) (reconciles reader sha256 deployment twice fresh) lost ∧
    cluster.exec (reconciles reader sha256 deployment twice fresh) lost = some s ∧
    (∃ e ∈ s.history, ∃ headscale, e.made = keyDeleted headscale ⟨1, "key"⟩ (.ok ())) ∧
    ¬∀ i, ∀ t ∈ twice[i]?, ∀ mid r,
      EnsureReturned (t.names sha256) (t.reconcile reader sha256 deployment) (trace i s.history) mid
        r →
        (r = .ok .ready → ∀ key ∈ s.world.authKey (t.names sha256), ¬Deleted s.history key) ∧
        ∀ e, r = .error e → KeysDropped mid := by
  have hnew : cluster.Along (KeysNew sha256 twice) (reconciles reader sha256 deployment twice fresh)
      lost := by decide +kernel
  have hleft : cluster.Along (KeysLeft sha256 twice)
      (reconciles reader sha256 deployment twice fresh) lost := by decide +kernel
  have hrun : (cluster.exec (reconciles reader sha256 deployment twice fresh) lost).any (fun s =>
      (s.history.any fun e => (newKey? e.made).any fun new =>
        new.1.instanceName == "main" && new.2.id == 1 && new.2.key == "key") &&
      (s.history.any fun e => (deletedId? e.made).any fun dropped =>
        dropped.1.instanceName == "main" && dropped.2 == 1) &&
      s.world.authKey names == some "key" &&
      (s.threads[1]?.bind Prog.next?).any Op.savesRef) = true := by
    decide +kernel
  obtain ⟨s, hs, hcheck⟩ := Option.any_eq_true _ _ |>.1 hrun
  simp only [Bool.and_eq_true, List.any_eq_true, Option.any_eq_true, beq_iff_eq] at hcheck
  obtain ⟨⟨⟨hminted, hdropped⟩, hauth⟩, o, ho, hsaves⟩ := hcheck
  obtain ⟨e, he, ⟨headscale, key⟩, hmint, ⟨hinst, hid⟩, hkey⟩ := hminted
  obtain ⟨e', he', ⟨headscale', id⟩, hdelete, hinst', hid'⟩ := hdropped
  obtain rfl : key = ⟨1, "key"⟩ := congr (congrArg PreAuthKey.mk hid) hkey
  obtain rfl : id = 1 := hid'
  have hdeleted : e'.made = keyDeleted headscale' ⟨1, "key"⟩ (.ok ()) := deletedId?_eq_some hdelete
  obtain ⟨mid, hready⟩ := ready_of_savesRef hs (i := 1) rfl ho hsaves
  refine ⟨s, hnew, hleft, hs, ⟨e', he', headscale', hdeleted⟩, fun hall => ?_⟩
  refine (hall 1 _ rfl mid _ hready).1 rfl "key" hauth ?_
  exact ⟨e, he, headscale, _, hmint, rfl, e', he', headscale', _, hinst'.trans hinst.symm, hdeleted⟩

end Headmaster.Operator.Proxy
