import Headmaster.Settings

/-!
# The configuration of headscale

The configuration file of an instance is what its author adds (`extraConfig`),
with the settings that the operator pins over it (`build_config` in
`src/operator/src/controllers/headscale_instance/builders.rs`). The webhook
rejects what sets one of these itself (`check_reserved_keys`).

headscale reads the file by the rules of `Settings.reads`: it takes a name in
another case for the same, and a name with dots for a path. With these the
pinned settings are read as the operator sets them exactly when nothing that was
added is another spelling of one, with another value (`pinned_read_iff`).

The file has all that was added and accepted, exactly when what was added under
`dns` is an object (`keepsAdded_iff`): the check looks only into objects, and
the operator sets its own in place of anything else.
-/

namespace Headmaster.Operator

open Settings (dotted valuesAt OnlyReads)

/-! ## The check -/

/-- A map of settings. No name repeats, at any depth. -/
structure ExtraConfig where
  entries : List (String × Json)
  distinct : (Json.object entries).Distinct

/-- The keys that the operator pins. -/
def reservedTopLevel : List String :=
  ["server_url", "listen_addr", "grpc_listen_addr", "grpc_allow_insecure", "metrics_listen_addr",
    "unix_socket", "unix_socket_permission", "noise", "database", "policy"]

/-- The keys under `dns` that the operator pins. -/
def reservedDnsKeys : List String := ["magic_dns", "base_domain"]

variable (serverUrl dnsBaseDomain : String) (extraConfig : ExtraConfig)

/-- The settings under `dns`, if it is an object. -/
def ExtraConfig.userDns : List (String × Json) :=
  match extraConfig.entries.lookup "dns" with
  | some (.object userDns) => userDns
  | _ => []

/-- The message lists every violation. -/
def checkReservedKeys : Except String Unit :=
  let top := reservedTopLevel.filter fun k => (extraConfig.entries.lookup k).isSome
  let dns := reservedDnsKeys.filter fun k => (extraConfig.userDns.lookup k).isSome
  if top.isEmpty && dns.isEmpty then
    .ok ()
  else
    let parts :=
      (if !top.isEmpty then
        ["spec.extraConfig must not set operator-managed keys: " ++ ", ".intercalate top]
      else []) ++
      if !dns.isEmpty then
        ["spec.extraConfig.dns must not set operator-managed keys: " ++ ", ".intercalate dns]
      else []
    .error ("; ".intercalate parts)

/-! ## The file -/

def noiseConfig : List (String × Json) :=
  [("private_key_path", .string "/var/lib/headscale/noise_private.key")]

def sqliteConfig : List (String × Json) :=
  [("path", .string "/var/lib/headscale/db.sqlite"), ("write_ahead_log", .bool true)]

def databaseConfig : List (String × Json) :=
  [("sqlite", .object sqliteConfig), ("type", .string "sqlite")]

def policyConfig : List (String × Json) := [("mode", .string "database")]

/-- What the operator pins, but for `dns`. -/
def reservedConfig : List (String × Json) :=
  [("server_url", .string serverUrl),
    ("listen_addr", .string "0.0.0.0:8080"),
    ("grpc_listen_addr", .string "0.0.0.0:50443"),
    ("grpc_allow_insecure", .bool true),
    ("metrics_listen_addr", .string "0.0.0.0:9090"),
    ("unix_socket", .string "/var/run/headscale/headscale.sock"),
    ("unix_socket_permission", .string "0770"),
    ("noise", .object noiseConfig),
    ("database", .object databaseConfig),
    ("policy", .object policyConfig)]

/-- The defaults, then what was added, then what the operator pins. -/
def dnsConfig : List (String × Json) :=
  Props.extend [("override_local_dns", .bool false)] extraConfig.userDns
    |> Props.insert "magic_dns" (.bool true)
    |> Props.insert "base_domain" (.string dnsBaseDomain)

def operatorConfig : List (String × Json) :=
  reservedConfig serverUrl ++ [("dns", .object (dnsConfig dnsBaseDomain extraConfig))]

/-- The keys of the operator overwrite those that were added. -/
def buildConfig : List (String × Json) :=
  Props.extend extraConfig.entries (operatorConfig serverUrl dnsBaseDomain extraConfig)

/-! ## Pinned settings -/

/-- A setting that the operator pins, by its path. -/
structure Setting where
  key : String
  names : List String
  value : Json

/-- The reserved keys, and the settings under them. -/
def reservedSettings : List Setting :=
  (reservedConfig serverUrl).map (fun p => ⟨p.1, [], p.2⟩) ++
    [⟨"noise", ["private_key_path"], .string "/var/lib/headscale/noise_private.key"⟩,
      ⟨"database", ["type"], .string "sqlite"⟩,
      ⟨"database", ["sqlite"], .object sqliteConfig⟩,
      ⟨"database", ["sqlite", "path"], .string "/var/lib/headscale/db.sqlite"⟩,
      ⟨"database", ["sqlite", "write_ahead_log"], .bool true⟩,
      ⟨"policy", ["mode"], .string "database"⟩]

def dnsSettings : List (String × Json) :=
  [("magic_dns", .bool true), ("base_domain", .string dnsBaseDomain)]

variable (lower : String → String)

/-- However the file is read, each pinned setting is read as the operator sets it. -/
structure PinnedRead : Prop where
  reserved : ∀ s ∈ reservedSettings serverUrl,
    OnlyReads lower s.key s.names (buildConfig serverUrl dnsBaseDomain extraConfig) s.value
  dns : ∀ p ∈ dnsSettings dnsBaseDomain,
    OnlyReads lower "dns" [p.1] (buildConfig serverUrl dnsBaseDomain extraConfig) p.2

/-- Nothing that was added is another spelling of a pinned setting, with another value. -/
structure Unshadowed : Prop where
  /-- No key, with dots or in another case. -/
  reserved : ∀ s ∈ reservedSettings serverUrl, ∀ p ∈ extraConfig.entries,
    lower p.1 = dotted s.key s.names → p.2.meaning = s.value.meaning
  dns : ∀ s ∈ dnsSettings dnsBaseDomain, ∀ p ∈ extraConfig.entries,
    lower p.1 = dotted "dns" [s.1] → p.2.meaning = s.2.meaning
  /-- No name under `dns`, and no `dns` in another case, unless a key with the whole path comes
      before them. -/
  underDns : ∀ s ∈ dnsSettings dnsBaseDomain,
    (∃ p ∈ extraConfig.entries, lower p.1 = dotted "dns" [s.1]) ∨
      (∀ q ∈ extraConfig.userDns, lower q.1 = s.1 → q.2.meaning = s.2.meaning) ∧
      ∀ p ∈ extraConfig.entries, p.1 ≠ "dns" → lower p.1 = "dns" →
        ∃ qs, p.2 = .object qs ∧ (∃ q ∈ qs, lower q.1 = s.1) ∧
          ∀ q ∈ qs, lower q.1 = s.1 → q.2.meaning = s.2.meaning

/-- Names without upper-case letters stay as they are. -/
def FixesLowercase : Prop :=
  ∀ s : String, (∀ c ∈ s.toList, c.isLower = true ∨ c = '_') → lower s = s

section Reading

variable {serverUrl dnsBaseDomain} {extraConfig} {lower}

theorem checkReservedKeys_eq_ok : checkReservedKeys extraConfig = .ok () ↔
    (∀ k ∈ reservedTopLevel, extraConfig.entries.lookup k = none) ∧
      ∀ k ∈ reservedDnsKeys, extraConfig.userDns.lookup k = none := by
  have hnone (ps : List (String × Json)) (ks : List String) :
      (ks.filter fun k => (ps.lookup k).isSome).isEmpty = true ↔ ∀ k ∈ ks, ps.lookup k = none := by
    rw [List.isEmpty_iff, List.filter_eq_nil_iff]
    simp only [Option.isSome_iff_ne_none, ne_eq, not_not]
  rw [← hnone, ← hnone, ← Bool.and_eq_true_iff, checkReservedKeys]
  dsimp only
  split
  · rename_i h
    exact ⟨fun _ => h, fun _ => rfl⟩
  · rename_i h
    exact ⟨nofun, fun h' => absurd h' h⟩

theorem names_operatorConfig : (operatorConfig serverUrl dnsBaseDomain extraConfig).map Prod.fst =
    reservedTopLevel ++ ["dns"] := rfl

/-- All names that the operator sets, at any depth. -/
def operatorNames : List String :=
  reservedTopLevel ++ ["dns", "private_key_path", "type", "sqlite", "path", "write_ahead_log", "mode",
    "override_local_dns", "magic_dns", "base_domain"]

theorem FixesLowercase.eq_self (h : FixesLowercase lower) {k : String} (hk : k ∈ operatorNames) :
    lower k = k := by
  have hnames : (operatorNames.all fun k => k.toList.all fun c => c.isLower || c == '_') = true := by
    decide
  refine h k fun c hc => ?_
  have hchar := List.all_eq_true.1 (List.all_eq_true.1 hnames k hk) c hc
  rwa [Bool.or_eq_true, beq_iff_eq] at hchar

theorem FixesLowercase.fixed (h : FixesLowercase lower) {ps : List (String × Json)}
    (hps : ∀ k ∈ ps.map Prod.fst, k ∈ operatorNames) : ∀ p ∈ ps, lower p.1 = p.1 :=
  fun _ hp => h.eq_self (hps _ (List.mem_map_of_mem hp))

theorem nodup_operatorConfig :
    ((operatorConfig serverUrl dnsBaseDomain extraConfig).map Prod.fst).Nodup := by
  rw [names_operatorConfig]
  decide

theorem lookup_buildConfig (k : String) :
    (buildConfig serverUrl dnsBaseDomain extraConfig).lookup k =
      ((operatorConfig serverUrl dnsBaseDomain extraConfig).lookup k).or
        (extraConfig.entries.lookup k) := by
  rw [buildConfig, Props.lookup_extend,
    Props.lookup_eq_last (Props.once_of_nodup nodup_operatorConfig k)]

theorem lookup_operatorConfig_eq_none {k : String} :
    (operatorConfig serverUrl dnsBaseDomain extraConfig).lookup k = none ↔
      k ∉ reservedTopLevel ∧ k ≠ "dns" := by
  rw [Props.lookup_eq_none_iff, names_operatorConfig, List.mem_append, List.mem_singleton, not_or]

/-- The values under a name in the file: that of the operator, and those that were added under
    other spellings. -/
theorem mem_valuesAt_buildConfig (hlower : FixesLowercase lower)
    (haccepted : checkReservedKeys extraConfig = .ok ()) {key : String} {v : Json} :
    v ∈ valuesAt lower key (buildConfig serverUrl dnsBaseDomain extraConfig) ↔
      (operatorConfig serverUrl dnsBaseDomain extraConfig).lookup key = some v ∨
      ∃ k, (k, v) ∈ extraConfig.entries ∧ k ≠ "dns" ∧ lower k = key := by
  have hnodup := Props.nodup_extend (operatorConfig serverUrl dnsBaseDomain extraConfig)
    extraConfig.distinct.nodup
  -- the operator's own keys are lower case already
  have hfixed {k : String} {v : Json}
      (h : (operatorConfig serverUrl dnsBaseDomain extraConfig).lookup k = some v) : lower k = k := by
    have hmem := Props.mem_names_of_lookup h
    rw [names_operatorConfig] at hmem
    refine hlower.eq_self ((List.mem_append.1 hmem).elim (List.mem_append_left _) fun hk => ?_)
    exact List.mem_append_right _ (List.mem_singleton.1 hk ▸ List.mem_cons_self)
  rw [Settings.mem_valuesAt]
  constructor
  · rintro ⟨k, hmem, rfl⟩
    rw [buildConfig, Props.mem_iff_lookup hnodup, ← buildConfig, lookup_buildConfig,
      Option.or_eq_some_iff] at hmem
    rcases hmem with h | ⟨hnone, h⟩
    · exact .inl (by rw [hfixed h, h])
    · exact .inr ⟨k, (Props.mem_iff_lookup extraConfig.distinct.nodup).2 h,
        (lookup_operatorConfig_eq_none.1 hnone).2, rfl⟩
  · rintro (h | ⟨k, hmem, hdns, rfl⟩)
    · refine ⟨key, ?_, hfixed h⟩
      rw [buildConfig, Props.mem_iff_lookup hnodup, ← buildConfig, lookup_buildConfig, h,
        Option.some_or]
    · -- an accepted key that is none of the operator's survives the merge
      refine ⟨k, ?_, rfl⟩
      have hlookup := (Props.mem_iff_lookup extraConfig.distinct.nodup).1 hmem
      have hnone : (operatorConfig serverUrl dnsBaseDomain extraConfig).lookup k = none := by
        refine lookup_operatorConfig_eq_none.2 ⟨fun hk => ?_, hdns⟩
        rw [(checkReservedKeys_eq_ok.1 haccepted).1 k hk] at hlookup
        cases hlookup
      rw [buildConfig, Props.mem_iff_lookup hnodup, ← buildConfig, lookup_buildConfig, hnone,
        Option.none_or, hlookup]

/-! ### The settings under `dns` -/

theorem distinct_userDns : (Json.object extraConfig.userDns).Distinct := by
  rw [ExtraConfig.userDns]
  split
  · rename_i userDns h
    exact extraConfig.distinct.of_lookup h
  · exact .object List.nodup_nil fun _ h => absurd h List.not_mem_nil

theorem lookup_dnsConfig_of_not_reserved {k : String} (hk : k ∉ reservedDnsKeys) :
    (dnsConfig dnsBaseDomain extraConfig).lookup k =
      (extraConfig.userDns.lookup k).or ([("override_local_dns", Json.bool false)].lookup k) := by
  simp only [reservedDnsKeys, List.mem_cons, List.not_mem_nil, or_false, not_or] at hk
  rw [dnsConfig, Props.lookup_insert, if_neg hk.2, Props.lookup_insert, if_neg hk.1,
    Props.lookup_extend, Props.lookup_eq_last (distinct_userDns.once k)]

theorem lookup_dnsConfig {s : String × Json} (hs : s ∈ dnsSettings dnsBaseDomain) :
    (dnsConfig dnsBaseDomain extraConfig).lookup s.1 = some s.2 := by
  rw [dnsConfig, Props.lookup_insert, Props.lookup_insert]
  rcases List.mem_pair.1 hs with rfl | rfl <;> rfl

theorem mem_reservedDnsKeys {s : String × Json} (hs : s ∈ dnsSettings dnsBaseDomain) :
    s.1 ∈ reservedDnsKeys := by
  rcases List.mem_pair.1 hs with rfl | rfl
  · exact List.mem_cons_self
  · exact List.mem_cons_of_mem _ List.mem_cons_self

theorem nodup_dnsConfig : ((dnsConfig dnsBaseDomain extraConfig).map Prod.fst).Nodup := by
  have hdefault : ([("override_local_dns", Json.bool false)].map Prod.fst).Nodup := by simp
  exact Props.nodup_alter _ (Props.nodup_alter _ (Props.nodup_extend _ hdefault))

/-- The values under a pinned name: that of the operator, and those that were added under other
    spellings. -/
theorem mem_valuesAt_dnsConfig (hlower : FixesLowercase lower)
    (haccepted : checkReservedKeys extraConfig = .ok ()) {s : String × Json}
    (hs : s ∈ dnsSettings dnsBaseDomain) {v : Json} :
    v ∈ valuesAt lower s.1 (dnsConfig dnsBaseDomain extraConfig) ↔
      v = s.2 ∨ ∃ k, (k, v) ∈ extraConfig.userDns ∧ lower k = s.1 := by
  have hfixed : ∀ k ∈ reservedDnsKeys, lower k = k := by
    intro k hk
    refine hlower.eq_self (List.mem_append_right _ ?_)
    revert k
    decide
  have hreserved := mem_reservedDnsKeys hs
  rw [Settings.mem_valuesAt]
  constructor
  · rintro ⟨k, hmem, hk⟩
    rw [Props.mem_iff_lookup nodup_dnsConfig] at hmem
    by_cases hmemk : k ∈ reservedDnsKeys
    · rw [hfixed k hmemk] at hk
      rw [hk, lookup_dnsConfig hs, Option.some.injEq] at hmem
      exact .inl hmem.symm
    · rw [lookup_dnsConfig_of_not_reserved hmemk, Option.or_eq_some_iff] at hmem
      rcases hmem with h | ⟨_, h⟩
      · exact .inr ⟨k, (Props.mem_iff_lookup distinct_userDns.nodup).2 h, hk⟩
      · -- the default has another name
        obtain rfl : k = "override_local_dns" := List.mem_singleton.1 (Props.mem_names_of_lookup h)
        rw [hlower.eq_self (by decide)] at hk
        rw [← hk] at hreserved
        exact absurd hreserved (by decide)
  · rintro (rfl | ⟨k, hmem, hk⟩)
    · exact ⟨s.1, (Props.mem_iff_lookup nodup_dnsConfig).2 (lookup_dnsConfig hs), hfixed _ hreserved⟩
    · have hlookup := (Props.mem_iff_lookup distinct_userDns.nodup).1 hmem
      have hmemk : k ∉ reservedDnsKeys := by
        intro hk'
        rw [(checkReservedKeys_eq_ok.1 haccepted).2 k hk'] at hlookup
        cases hlookup
      refine ⟨k, (Props.mem_iff_lookup nodup_dnsConfig).2 ?_, hk⟩
      rw [lookup_dnsConfig_of_not_reserved hmemk, hlookup, Option.some_or]

/-! ### The pinned settings -/

/-- The operator sets the reserved keys, and what is under them in objects. -/
theorem lookup_operatorConfig_dotted {s : Setting} (hs : s ∈ reservedSettings serverUrl) :
    (operatorConfig serverUrl dnsBaseDomain extraConfig).lookup (dotted s.key s.names) =
      if s.names.isEmpty then some s.value else none := by
  revert s
  simp only [reservedSettings, reservedConfig, List.map_cons, List.map_nil, List.forall_mem_append,
    List.forall_mem_cons]
  exact ⟨⟨rfl, rfl, rfl, rfl, rfl, rfl, rfl, rfl, rfl, rfl, nofun⟩, rfl, rfl, rfl, rfl, rfl, rfl,
    nofun⟩

/-- The values under the whole path of a reserved setting: its own at the top, and those that were
    added. -/
theorem meaning_of_mem_valuesAt (hlower : FixesLowercase lower)
    (haccepted : checkReservedKeys extraConfig = .ok ())
    (h : Unshadowed serverUrl dnsBaseDomain extraConfig lower) {s : Setting}
    (hs : s ∈ reservedSettings serverUrl) {v : Json}
    (hv : v ∈ valuesAt lower (dotted s.key s.names)
      (buildConfig serverUrl dnsBaseDomain extraConfig)) : v.meaning = s.value.meaning := by
  rcases (mem_valuesAt_buildConfig hlower haccepted).1 hv with hv | ⟨k, hmem, _, hk⟩
  · -- Under a name with dots the operator itself has set nothing.
    rw [lookup_operatorConfig_dotted hs] at hv
    split at hv
    · rw [Option.some.inj hv]
    · cases hv
  · exact h.reserved s hs _ hmem hk

/-- What is under the whole path of a reserved object is an object in which the same is read. -/
theorem exists_object_of_mem_valuesAt (hlower : FixesLowercase lower)
    (haccepted : checkReservedKeys extraConfig = .ok ())
    (h : Unshadowed serverUrl dnsBaseDomain extraConfig lower) {s : Setting}
    (hs : s ∈ reservedSettings serverUrl) {ts : List (String × Json)} (hts : s.value = .object ts)
    (hdistinct : (Json.object ts).Distinct) {name : String} {names : List String} {v : Json}
    (hreads : OnlyReads lower name names ts v) :
    ∀ v' ∈ valuesAt lower (dotted s.key s.names)
      (buildConfig serverUrl dnsBaseDomain extraConfig),
      ∃ qs, v' = .object qs ∧ OnlyReads lower name names qs v := by
  intro v' hv'
  have hmeaning := meaning_of_mem_valuesAt hlower haccepted h hs hv'
  have hv'distinct : v'.Distinct := by
    rcases (mem_valuesAt_buildConfig hlower haccepted).1 hv' with hv' | ⟨k, hmem, _, _⟩
    · rw [lookup_operatorConfig_dotted hs] at hv'
      split at hv'
      · rwa [← Option.some.inj hv', hts]
      · cases hv'
    · exact extraConfig.distinct.of_prop hmem
  rw [hts] at hmeaning
  -- equal meaning forces an object, since the setting's value is one
  match v', hmeaning, hv'distinct with
  | .object qs, hmeaning, hv'distinct =>
    exact ⟨qs, rfl, hreads.of_meaning hv'distinct hdistinct hmeaning⟩
  | .null, hmeaning, _ | .bool _, hmeaning, _ | .number _, hmeaning, _ | .string _, hmeaning, _
  | .array _, hmeaning, _ => simp [Json.meaning] at hmeaning

/-- A reserved key, by itself. -/
theorem mem_reservedSettings {p : String × Json} (hp : p ∈ reservedConfig serverUrl) :
    ⟨p.1, [], p.2⟩ ∈ reservedSettings serverUrl :=
  List.mem_append_left _ (List.mem_map_of_mem hp)

theorem valuesAt_ne_nil (hlower : FixesLowercase lower)
    (haccepted : checkReservedKeys extraConfig = .ok ()) {p : String × Json}
    (hp : p ∈ operatorConfig serverUrl dnsBaseDomain extraConfig) :
    valuesAt lower p.1 (buildConfig serverUrl dnsBaseDomain extraConfig) ≠ [] :=
  List.ne_nil_of_mem ((mem_valuesAt_buildConfig hlower haccepted).2
    (.inl ((Props.mem_iff_lookup nodup_operatorConfig).1 hp)))

section Under

variable (hlower : FixesLowercase lower) (haccepted : checkReservedKeys extraConfig = .ok ())
  (h : Unshadowed serverUrl dnsBaseDomain extraConfig lower)

include hlower haccepted h

/-- A setting in a reserved object is read there, if what is under its longer names agrees. -/
theorem onlyReads_under {key : String} {ts : List (String × Json)}
    (hp : (key, .object ts) ∈ reservedConfig serverUrl) (hdistinct : (Json.object ts).Distinct)
    {name : String} {names : List String} {v : Json}
    (hagrees : Settings.Agrees lower (key ++ "." ++ name) names
      (buildConfig serverUrl dnsBaseDomain extraConfig) v)
    (hreads : OnlyReads lower name names ts v) :
    OnlyReads lower key (name :: names) (buildConfig serverUrl dnsBaseDomain extraConfig) v :=
  Settings.onlyReads_of_agrees
    ⟨hagrees, exists_object_of_mem_valuesAt hlower haccepted h (mem_reservedSettings hp) rfl
      hdistinct hreads⟩
    (valuesAt_ne_nil hlower haccepted (List.mem_append_left _ hp))

variable {s : Setting} (hs : s ∈ reservedSettings serverUrl) {ts us : List (String × Json)}
  (hp : (s.key, .object ts) ∈ reservedConfig serverUrl) (hdistinct : (Json.object ts).Distinct)

include hs hp hdistinct

/-- A setting right under a reserved key. -/
theorem onlyReads_under_one {name : String} (hnames : s.names = [name])
    (hreads : OnlyReads lower name [] ts s.value) :
    OnlyReads lower s.key s.names (buildConfig serverUrl dnsBaseDomain extraConfig) s.value := by
  have hwhole : Settings.Agrees lower (dotted s.key s.names) []
      (buildConfig serverUrl dnsBaseDomain extraConfig) s.value :=
    fun v hv => meaning_of_mem_valuesAt hlower haccepted h hs hv
  rw [hnames] at hwhole ⊢
  exact onlyReads_under hlower haccepted h hp hdistinct hwhole hreads

/-- A setting two names under a reserved key, where the object between is a setting as well. -/
theorem onlyReads_under_two {name name' : String} (hnames : s.names = [name, name'])
    (hbetween : ⟨s.key, [name], .object us⟩ ∈ reservedSettings serverUrl)
    (hdistinct' : (Json.object us).Distinct) (hreads' : OnlyReads lower name' [] us s.value)
    (hreads : OnlyReads lower name [name'] ts s.value) :
    OnlyReads lower s.key s.names (buildConfig serverUrl dnsBaseDomain extraConfig) s.value := by
  have hwhole : Settings.Agrees lower (dotted s.key s.names) []
      (buildConfig serverUrl dnsBaseDomain extraConfig) s.value :=
    fun v hv => meaning_of_mem_valuesAt hlower haccepted h hs hv
  rw [hnames] at hwhole ⊢
  refine onlyReads_under hlower haccepted h hp hdistinct ⟨hwhole, ?_⟩ hreads
  exact exists_object_of_mem_valuesAt hlower haccepted h hbetween rfl hdistinct' hreads'

end Under

theorem distinct_noiseConfig : (Json.object noiseConfig).Distinct :=
  .object (by decide) (List.forall_mem_singleton.2 (.string _))

theorem distinct_policyConfig : (Json.object policyConfig).Distinct :=
  .object (by decide) (List.forall_mem_singleton.2 (.string _))

theorem distinct_sqliteConfig : (Json.object sqliteConfig).Distinct := by
  refine .object (by decide) fun p hp => ?_
  rcases List.mem_pair.1 hp with rfl | rfl
  · exact .string _
  · exact .bool _

theorem distinct_databaseConfig : (Json.object databaseConfig).Distinct := by
  refine .object (by decide) fun p hp => ?_
  rcases List.mem_pair.1 hp with rfl | rfl
  · exact distinct_sqliteConfig
  · exact .string _

/-- Where nothing shadows them, the reserved settings are read as the operator sets them. -/
theorem onlyReads_reserved (hlower : FixesLowercase lower)
    (haccepted : checkReservedKeys extraConfig = .ok ())
    (h : Unshadowed serverUrl dnsBaseDomain extraConfig lower) {s : Setting}
    (hs : s ∈ reservedSettings serverUrl) :
    OnlyReads lower s.key s.names (buildConfig serverUrl dnsBaseDomain extraConfig) s.value := by
  rcases List.mem_append.1 hs with hs' | hs'
  · obtain ⟨p, hp, rfl⟩ := List.mem_map.1 hs'
    exact Settings.onlyReads_nil_iff.2 ⟨valuesAt_ne_nil hlower haccepted (List.mem_append_left _ hp),
      fun v hv => meaning_of_mem_valuesAt hlower haccepted h hs hv⟩
  · -- the objects of the operator are read as they are
    have hnoise : ∀ p ∈ noiseConfig, lower p.1 = p.1 := hlower.fixed (by decide)
    have hpolicy : ∀ p ∈ policyConfig, lower p.1 = p.1 := hlower.fixed (by decide)
    have hdatabase : ∀ p ∈ databaseConfig, lower p.1 = p.1 := hlower.fixed (by decide)
    have hsqlite : ∀ p ∈ sqliteConfig, lower p.1 = p.1 := hlower.fixed (by decide)
    have hdatabaseMem : ("database", .object databaseConfig) ∈ reservedConfig serverUrl := by
      simp [reservedConfig]
    have hbetween : ⟨"database", ["sqlite"], .object sqliteConfig⟩ ∈ reservedSettings serverUrl := by
      simp [reservedSettings]
    have hpath : OnlyReads lower "path" [] sqliteConfig (.string "/var/lib/headscale/db.sqlite") :=
      Settings.onlyReads_nil_of_fixed hsqlite distinct_sqliteConfig.nodup List.mem_cons_self
    have hlog : OnlyReads lower "write_ahead_log" [] sqliteConfig (.bool true) :=
      Settings.onlyReads_nil_of_fixed hsqlite distinct_sqliteConfig.nodup
        (List.mem_cons_of_mem _ List.mem_cons_self)
    simp only [List.mem_cons, List.not_mem_nil, or_false] at hs'
    rcases hs' with rfl | rfl | rfl | rfl | rfl | rfl
    · exact onlyReads_under_one hlower haccepted h hs (by simp [reservedConfig])
        distinct_noiseConfig rfl
        (Settings.onlyReads_nil_of_fixed hnoise distinct_noiseConfig.nodup List.mem_cons_self)
    · exact onlyReads_under_one hlower haccepted h hs hdatabaseMem distinct_databaseConfig rfl
        (Settings.onlyReads_nil_of_fixed hdatabase distinct_databaseConfig.nodup
          (List.mem_cons_of_mem _ List.mem_cons_self))
    · exact onlyReads_under_one hlower haccepted h hs hdatabaseMem distinct_databaseConfig rfl
        (Settings.onlyReads_nil_of_fixed hdatabase distinct_databaseConfig.nodup List.mem_cons_self)
    · exact onlyReads_under_two hlower haccepted h hs hdatabaseMem distinct_databaseConfig rfl
        hbetween distinct_sqliteConfig hpath
        (Settings.onlyReads_pair_of_fixed hdatabase distinct_databaseConfig.nodup
          List.mem_cons_self (by decide) hpath)
    · exact onlyReads_under_two hlower haccepted h hs hdatabaseMem distinct_databaseConfig rfl
        hbetween distinct_sqliteConfig hlog
        (Settings.onlyReads_pair_of_fixed hdatabase distinct_databaseConfig.nodup
          List.mem_cons_self (by decide) hlog)
    · exact onlyReads_under_one hlower haccepted h hs (by simp [reservedConfig])
        distinct_policyConfig rfl
        (Settings.onlyReads_nil_of_fixed hpolicy distinct_policyConfig.nodup List.mem_cons_self)

/-- What was added under another spelling of a path is under the whole path in the file. -/
theorem mem_valuesAt_of_added (hlower : FixesLowercase lower)
    (haccepted : checkReservedKeys extraConfig = .ok ()) {p : String × Json}
    (hp : p ∈ extraConfig.entries) {key : String} (hkey : lower p.1 = key) (hdns : key ≠ "dns") :
    p.2 ∈ valuesAt lower key (buildConfig serverUrl dnsBaseDomain extraConfig) := by
  refine (mem_valuesAt_buildConfig hlower haccepted).2 (.inr ⟨p.1, hp, fun hp' => hdns ?_, hkey⟩)
  rw [← hkey, hp', hlower.eq_self (by decide)]

/-- Only what was added is under the whole path of a setting of `dns`. -/
theorem mem_valuesAt_dotted_dns (hlower : FixesLowercase lower)
    (haccepted : checkReservedKeys extraConfig = .ok ()) {s : String × Json}
    (hs : s ∈ dnsSettings dnsBaseDomain) {v : Json} :
    v ∈ valuesAt lower (dotted "dns" [s.1]) (buildConfig serverUrl dnsBaseDomain extraConfig) ↔
      ∃ p ∈ extraConfig.entries, lower p.1 = dotted "dns" [s.1] ∧ p.2 = v := by
  have hnone : (operatorConfig serverUrl dnsBaseDomain extraConfig).lookup (dotted "dns" [s.1]) =
      none := by
    rcases List.mem_pair.1 hs with rfl | rfl <;> rfl
  have hdns : dotted "dns" [s.1] ≠ "dns" := by
    rcases List.mem_pair.1 hs with rfl | rfl
    · decide
    · change "dns.base_domain" ≠ "dns"
      decide
  constructor
  · intro hv
    rcases (mem_valuesAt_buildConfig hlower haccepted).1 hv with h | ⟨k, hmem, _, hk⟩
    · rw [hnone] at h
      cases h
    · exact ⟨_, hmem, hk, rfl⟩
  · rintro ⟨p, hp, hk, rfl⟩
    exact mem_valuesAt_of_added hlower haccepted hp hk hdns

/-- The objects under `dns` in the file: that of the operator, and those that were added under
    other spellings. -/
theorem mem_valuesAt_dns (hlower : FixesLowercase lower)
    (haccepted : checkReservedKeys extraConfig = .ok ()) {v : Json} :
    v ∈ valuesAt lower "dns" (buildConfig serverUrl dnsBaseDomain extraConfig) ↔
      v = .object (dnsConfig dnsBaseDomain extraConfig) ∨
      ∃ p ∈ extraConfig.entries, p.1 ≠ "dns" ∧ lower p.1 = "dns" ∧ p.2 = v := by
  rw [mem_valuesAt_buildConfig hlower haccepted]
  have hlookup : (operatorConfig serverUrl dnsBaseDomain extraConfig).lookup "dns" =
      some (.object (dnsConfig dnsBaseDomain extraConfig)) := rfl
  rw [hlookup, Option.some.injEq]
  constructor
  · rintro (rfl | ⟨k, hmem, hne, hk⟩)
    · exact .inl rfl
    · exact .inr ⟨_, hmem, hne, hk, rfl⟩
  · rintro (rfl | ⟨p, hp, hne, hk, rfl⟩)
    · exact .inl rfl
    · exact .inr ⟨p.1, hp, hne, hk⟩

/-- A setting of `dns` is read as the operator sets it exactly when no other spelling, found before
    or beside it, has another value. -/
theorem onlyReads_dns_iff (hlower : FixesLowercase lower)
    (haccepted : checkReservedKeys extraConfig = .ok ()) {s : String × Json}
    (hs : s ∈ dnsSettings dnsBaseDomain) :
    OnlyReads lower "dns" [s.1] (buildConfig serverUrl dnsBaseDomain extraConfig) s.2 ↔
      (∀ p ∈ extraConfig.entries, lower p.1 = dotted "dns" [s.1] → p.2.meaning = s.2.meaning) ∧
      ((∃ p ∈ extraConfig.entries, lower p.1 = dotted "dns" [s.1]) ∨
        (∀ q ∈ extraConfig.userDns, lower q.1 = s.1 → q.2.meaning = s.2.meaning) ∧
        ∀ p ∈ extraConfig.entries, p.1 ≠ "dns" → lower p.1 = "dns" →
          ∃ qs, p.2 = .object qs ∧ (∃ q ∈ qs, lower q.1 = s.1) ∧
            ∀ q ∈ qs, lower q.1 = s.1 → q.2.meaning = s.2.meaning) := by
  have hwhole : "dns" ++ "." ++ s.1 = dotted "dns" [s.1] := rfl
  have hconfig : OnlyReads lower s.1 [] (dnsConfig dnsBaseDomain extraConfig) s.2 ↔
      ∀ q ∈ extraConfig.userDns, lower q.1 = s.1 → q.2.meaning = s.2.meaning := by
    rw [Settings.onlyReads_nil_iff]
    constructor
    · intro h q hq hkey
      exact h.2 _ ((mem_valuesAt_dnsConfig hlower haccepted hs).2 (.inr ⟨q.1, hq, hkey⟩))
    · intro h
      refine ⟨List.ne_nil_of_mem ((mem_valuesAt_dnsConfig hlower haccepted hs).2 (.inl rfl)), ?_⟩
      intro v hv
      rcases (mem_valuesAt_dnsConfig hlower haccepted hs).1 hv with rfl | ⟨k, hmem, hk⟩
      · rfl
      · exact h _ hmem hk
  rw [Settings.onlyReads_pair_iff, hwhole, ← hconfig]
  have hlonger : valuesAt lower (dotted "dns" [s.1])
      (buildConfig serverUrl dnsBaseDomain extraConfig) ≠ [] ↔
        ∃ p ∈ extraConfig.entries, lower p.1 = dotted "dns" [s.1] := by
    rw [← List.length_pos_iff, List.length_pos_iff_exists_mem]
    simp only [mem_valuesAt_dotted_dns hlower haccepted hs]
    exact ⟨fun ⟨_, p, hp, hk, _⟩ => ⟨p, hp, hk⟩, fun ⟨p, hp, hk⟩ => ⟨_, p, hp, hk, rfl⟩⟩
  refine and_congr ?_ (or_congr hlonger ?_)
  · simp only [mem_valuesAt_dotted_dns hlower haccepted hs]
    exact ⟨fun h p hp hk => h _ ⟨p, hp, hk, rfl⟩, fun h _ ⟨p, hp, hk, hv⟩ => hv ▸ h p hp hk⟩
  · -- the object of the operator, and the others
    have hdns : valuesAt lower "dns" (buildConfig serverUrl dnsBaseDomain extraConfig) ≠ [] :=
      List.ne_nil_of_mem ((mem_valuesAt_dns hlower haccepted).2 (.inl rfl))
    constructor
    · rintro ⟨_, h⟩
      refine ⟨?_, fun p hp hne hk => ?_⟩
      · obtain ⟨qs, hqs, hreads⟩ := h _ ((mem_valuesAt_dns hlower haccepted).2 (.inl rfl))
        obtain rfl := Json.object.inj hqs
        exact hreads
      · obtain ⟨qs, hqs, hreads⟩ := h _ ((mem_valuesAt_dns hlower haccepted).2
          (.inr ⟨p, hp, hne, hk, rfl⟩))
        exact ⟨qs, hqs, Settings.onlyReads_nil_iff_forall.1 hreads⟩
    · rintro ⟨hoperator, hadded⟩
      refine ⟨hdns, fun v hv => ?_⟩
      rcases (mem_valuesAt_dns hlower haccepted).1 hv with rfl | ⟨p, hp, hne, hk, rfl⟩
      · exact ⟨_, rfl, hoperator⟩
      · obtain ⟨qs, hqs, hreads⟩ := hadded p hp hne hk
        exact ⟨qs, hqs, Settings.onlyReads_nil_iff_forall.2 hreads⟩

theorem dotted_ne_dns {s : Setting} (hs : s ∈ reservedSettings serverUrl) :
    dotted s.key s.names ≠ "dns" := by
  have hkeys : ∀ k ∈ (reservedSettings serverUrl).map fun s => dotted s.key s.names, k ≠ "dns" := by
    change ∀ k ∈ (reservedSettings "").map fun s => dotted s.key s.names, k ≠ "dns"
    decide
  exact hkeys _ (List.mem_map_of_mem hs)

/-- For what the webhook accepts, the pinned settings are read as the operator sets them exactly
    when nothing that was added is another spelling of one, with another value. -/
theorem pinned_read_iff (hlower : FixesLowercase lower)
    (haccepted : checkReservedKeys extraConfig = .ok ()) :
    PinnedRead serverUrl dnsBaseDomain extraConfig lower ↔
      Unshadowed serverUrl dnsBaseDomain extraConfig lower := by
  constructor
  · intro h
    refine ⟨fun s hs p hp hkey => ?_, fun s hs => ((onlyReads_dns_iff hlower haccepted hs).1
      (h.dns s hs)).1, fun s hs => ((onlyReads_dns_iff hlower haccepted hs).1 (h.dns s hs)).2⟩
    have hdns := dotted_ne_dns hs
    have hread := h.reserved s hs _ (Settings.mem_reads_of_dotted
      (mem_valuesAt_of_added hlower haccepted hp hkey hdns))
    exact Option.some.inj hread
  · intro h
    exact ⟨fun s hs => onlyReads_reserved hlower haccepted h hs, fun s hs =>
      (onlyReads_dns_iff hlower haccepted hs).2 ⟨h.dns s hs, h.underDns s hs⟩⟩

end Reading

/-! ### Spellings that the check lets through -/

namespace Config

/-- Lower case, for the letters of English. -/
def asciiLower (s : String) : String := String.ofList (s.toList.map Char.toLower)

theorem fixesLowercase_asciiLower : FixesLowercase asciiLower := by
  intro s hs
  have hmap : s.toList.map Char.toLower = s.toList := by
    refine (List.map_congr_left fun c hc => ?_).trans (List.map_id _)
    change (if _ : c.val ≥ 'A'.val ∧ c.val ≤ 'Z'.val then _ else c) = c
    rw [dif_neg]
    rintro ⟨hmin, hmax⟩
    rcases hs c hc with h | rfl
    · have hlower := of_decide_eq_true (Bool.and_eq_true_iff.1 h).1
      exact absurd (UInt32.le_trans hlower hmax) (by decide)
    · exact absurd hmax (by decide)
  rw [asciiLower, hmap, String.ofList_toList]

/-- One key with a dot in it. -/
def policyMode : ExtraConfig where
  entries := [("policy.mode", .string "file")]
  distinct := .object (by decide) (List.forall_mem_singleton.2 (.string _))

def logLevel : ExtraConfig where
  entries := [("log", .object [("level", .string "debug")])]
  distinct := .object (by decide) (List.forall_mem_singleton.2
    (.object (by decide) (List.forall_mem_singleton.2 (.string _))))

end Config

/-- The check accepts the key `policy.mode`, and headscale reads its value. -/
theorem not_pinned_read_policy_mode :
    FixesLowercase Config.asciiLower ∧ checkReservedKeys Config.policyMode = .ok () ∧
      ¬PinnedRead "https://headscale.test" "tail.test" Config.policyMode Config.asciiLower := by
  have haccepted : checkReservedKeys Config.policyMode = .ok () := rfl
  refine ⟨Config.fixesLowercase_asciiLower, haccepted, fun h => ?_⟩
  have hsetting : ⟨"policy", ["mode"], .string "database"⟩ ∈
      reservedSettings "https://headscale.test" := by simp [reservedSettings]
  have hfile : Json.string "file" ∈ valuesAt Config.asciiLower (dotted "policy" ["mode"])
      (buildConfig "https://headscale.test" "tail.test" Config.policyMode) :=
    mem_valuesAt_of_added Config.fixesLowercase_asciiLower haccepted (List.mem_singleton_self _)
      (by decide) (by decide)
  have hread := h.reserved _ hsetting _ (Settings.mem_reads_of_dotted hfile)
  simp [Json.meaning] at hread

/-- Other keys do not shadow a pinned setting. -/
theorem pinned_read_log_level :
    PinnedRead "https://headscale.test" "tail.test" Config.logLevel Config.asciiLower := by
  have haccepted : checkReservedKeys Config.logLevel = .ok () := rfl
  have hlog : Config.asciiLower "log" = "log" := by decide
  have hdns : ∀ s ∈ dnsSettings "tail.test", "log" ≠ dotted "dns" [s.1] := by decide
  refine (pinned_read_iff Config.fixesLowercase_asciiLower haccepted).2
    ⟨fun s hs p hp hkey => ?_, fun s hs p hp hkey => ?_, fun s hs => .inr ⟨nofun, ?_⟩⟩
  · obtain rfl := List.mem_singleton.1 hp
    have hreserved : ∀ s ∈ reservedSettings "https://headscale.test",
        "log" ≠ dotted s.key s.names := by decide
    exact absurd (hlog.symm.trans hkey) (hreserved s hs)
  · obtain rfl := List.mem_singleton.1 hp
    exact absurd (hlog.symm.trans hkey) (hdns s hs)
  · intro p hp _ hkey
    obtain rfl := List.mem_singleton.1 hp
    rw [hlog] at hkey
    exact absurd hkey (by decide)

/-! ## What was added is kept -/

section Kept

variable (serverUrl dnsBaseDomain : String) (extraConfig : ExtraConfig)

/-- Settings that are those given, those pinned, and a default for each name that is in neither. -/
structure Overlaid (given pinned defaults settings : List (String × Json)) : Prop where
  nodup : (settings.map Prod.fst).Nodup
  keeps : given ⊆ settings
  pins : pinned ⊆ settings
  fills : ∀ p ∈ defaults, given.lookup p.1 = none → pinned.lookup p.1 = none → p ∈ settings
  only : ∀ p ∈ settings, p ∈ given ∨ p ∈ pinned ∨
    p ∈ defaults ∧ given.lookup p.1 = none ∧ pinned.lookup p.1 = none

/-- A value is in another: it is the same, or an object with each of its settings. -/
def KeptIn (v w : Json) : Prop :=
  w = v ∨ ∃ ps qs, v = .object ps ∧ w = .object qs ∧ ps ⊆ qs

def dnsDefaults : List (String × Json) := [("override_local_dns", .bool false)]

/-- All that was added is in the file, with what the operator sets, and nothing else. -/
structure KeepsAdded : Prop where
  top : Overlaid (Props.others "dns" extraConfig.entries)
    (operatorConfig serverUrl dnsBaseDomain extraConfig) []
    (buildConfig serverUrl dnsBaseDomain extraConfig)
  dns : Overlaid extraConfig.userDns (dnsSettings dnsBaseDomain) dnsDefaults
    (dnsConfig dnsBaseDomain extraConfig)
  kept : ∀ v, extraConfig.entries.lookup "dns" = some v →
    KeptIn v (.object (dnsConfig dnsBaseDomain extraConfig))

variable {serverUrl dnsBaseDomain} {extraConfig}

/-- A merge in which no pinned name is given. -/
theorem overlaid_of_lookup {given pinned defaults settings : List (String × Json)}
    (hnodup : (settings.map Prod.fst).Nodup) (hgiven : (given.map Prod.fst).Nodup)
    (hpinned : (pinned.map Prod.fst).Nodup) (hdefaults : (defaults.map Prod.fst).Nodup)
    (hdisjoint : ∀ p ∈ pinned, given.lookup p.1 = none)
    (hlookup : ∀ k, settings.lookup k =
      ((pinned.lookup k).or (given.lookup k)).or (defaults.lookup k)) :
    Overlaid given pinned defaults settings := by
  refine ⟨hnodup, fun p hp => ?_, fun p hp => ?_, fun p hp hgiven' hpinned' => ?_, fun p hp => ?_⟩
  · have hp' : given.lookup p.1 = some p.2 := (Props.mem_iff_lookup hgiven).1 hp
    have hnone : pinned.lookup p.1 = none := by
      by_contra h
      obtain ⟨v, hv⟩ := Option.ne_none_iff_exists'.1 h
      have hnone := hdisjoint (p.1, v) ((Props.mem_iff_lookup hpinned).2 hv)
      rw [hp'] at hnone
      cases hnone
    refine (Props.mem_iff_lookup hnodup).2 ?_
    rw [hlookup, hnone, Option.none_or, hp', Option.some_or]
  · have hp' : pinned.lookup p.1 = some p.2 := (Props.mem_iff_lookup hpinned).1 hp
    refine (Props.mem_iff_lookup hnodup).2 ?_
    rw [hlookup, hp', Option.some_or, Option.some_or]
  · refine (Props.mem_iff_lookup hnodup).2 ?_
    rw [hlookup, hgiven', hpinned', Option.none_or, Option.none_or]
    exact (Props.mem_iff_lookup hdefaults).1 hp
  · have hp' := (Props.mem_iff_lookup hnodup).1 hp
    rw [hlookup, Option.or_eq_some_iff, Option.or_eq_some_iff, Option.or_eq_none_iff] at hp'
    rcases hp' with (h | ⟨_, h⟩) | ⟨⟨hpinned', hgiven'⟩, h⟩
    · exact .inr (.inl ((Props.mem_iff_lookup hpinned).2 h))
    · exact .inl ((Props.mem_iff_lookup hgiven).2 h)
    · exact .inr (.inr ⟨(Props.mem_iff_lookup hdefaults).2 h, hgiven', hpinned'⟩)

/-- At the top, what is accepted is merged under the operator's settings. -/
theorem overlaid_buildConfig (haccepted : checkReservedKeys extraConfig = .ok ()) :
    Overlaid (Props.others "dns" extraConfig.entries)
      (operatorConfig serverUrl dnsBaseDomain extraConfig) []
      (buildConfig serverUrl dnsBaseDomain extraConfig) := by
  have hdns : (Props.others "dns" extraConfig.entries).lookup "dns" = none := by
    refine Props.lookup_eq_none_iff.2 fun hmem => ?_
    obtain ⟨p, hp, hname⟩ := List.mem_map.1 hmem
    exact of_decide_eq_true (List.mem_filter.1 hp).2 hname
  refine overlaid_of_lookup (Props.nodup_extend _ extraConfig.distinct.nodup)
    (extraConfig.distinct.nodup.sublist ((List.filter_sublist).map _)) nodup_operatorConfig
    List.nodup_nil (fun p hp => ?_) fun k => ?_
  · have hname : p.1 ∈ reservedTopLevel ++ ["dns"] := List.mem_map_of_mem hp
    rcases List.mem_append.1 hname with hname | hname
    · have hne : p.1 ≠ "dns" := fun h => absurd (h ▸ hname) (by decide)
      rw [Props.lookup_others hne]
      exact (checkReservedKeys_eq_ok.1 haccepted).1 p.1 hname
    · rw [List.mem_singleton.1 hname, hdns]
  · rw [lookup_buildConfig, List.lookup_nil, Option.or_none]
    by_cases hk : k = "dns"
    · rw [hk]
      rfl
    · rw [Props.lookup_others hk]

/-- Under `dns`, what is accepted is merged under the operator's settings and over the default. -/
theorem overlaid_dnsConfig (haccepted : checkReservedKeys extraConfig = .ok ()) :
    Overlaid extraConfig.userDns (dnsSettings dnsBaseDomain) dnsDefaults
      (dnsConfig dnsBaseDomain extraConfig) := by
  have hpinned : ((dnsSettings dnsBaseDomain).map Prod.fst).Nodup := by
    change reservedDnsKeys.Nodup
    decide
  refine overlaid_of_lookup nodup_dnsConfig distinct_userDns.nodup hpinned
    (List.nodup_singleton _) (fun p hp => ?_) fun k => ?_
  · exact (checkReservedKeys_eq_ok.1 haccepted).2 p.1 (mem_reservedDnsKeys hp)
  · by_cases hk : k ∈ reservedDnsKeys
    · have hmem : k ∈ (dnsSettings dnsBaseDomain).map Prod.fst := hk
      obtain ⟨s, hs, rfl⟩ := List.mem_map.1 hmem
      rw [lookup_dnsConfig hs, (Props.mem_iff_lookup hpinned).1 hs, Option.some_or, Option.some_or]
    · have hnone : (dnsSettings dnsBaseDomain).lookup k = none := Props.lookup_eq_none_iff.2 hk
      rw [lookup_dnsConfig_of_not_reserved hk, hnone, Option.none_or, dnsDefaults]

/-- Unless an object is added under `dns`, the check looks at no key there. -/
theorem userDns_eq_nil {v : Json} (hdns : extraConfig.entries.lookup "dns" = some v)
    (hobject : ∀ ps, v ≠ .object ps) : extraConfig.userDns = [] := by
  rw [ExtraConfig.userDns, hdns]
  cases v with
  | object ps => exact absurd rfl (hobject ps)
  | _ => rfl

/-- All that is accepted is kept exactly when an object, if anything, is added under `dns`, or some
    other key has it rejected. -/
theorem keepsAdded_iff :
    (checkReservedKeys extraConfig = .ok () → KeepsAdded serverUrl dnsBaseDomain extraConfig) ↔
      (∀ v, extraConfig.entries.lookup "dns" = some v → ∃ ps, v = .object ps) ∨
        ∃ k ∈ reservedTopLevel, extraConfig.entries.lookup k ≠ none := by
  constructor
  · intro h
    by_contra hnot
    push Not at hnot
    obtain ⟨⟨v, hdns, hobject⟩, htop⟩ := hnot
    have haccepted : checkReservedKeys extraConfig = .ok () := by
      refine checkReservedKeys_eq_ok.2 ⟨htop, fun k _ => ?_⟩
      rw [userDns_eq_nil hdns hobject, List.lookup_nil]
    rcases (h haccepted).kept v hdns with hsame | ⟨ps, _, hps, _⟩
    · exact hobject _ hsame.symm
    · exact hobject ps hps
  · rintro hor haccepted
    refine ⟨overlaid_buildConfig haccepted, overlaid_dnsConfig haccepted, fun v hdns => ?_⟩
    rcases hor with hobject | ⟨k, hk, hgiven⟩
    · obtain ⟨ps, rfl⟩ := hobject v hdns
      refine .inr ⟨ps, _, rfl, rfl, ?_⟩
      have huser : extraConfig.userDns = ps := by
        rw [ExtraConfig.userDns, hdns]
      exact huser ▸ (overlaid_dnsConfig haccepted).keeps
    · exact absurd ((checkReservedKeys_eq_ok.1 haccepted).1 k hk) hgiven

end Kept

/-- A list of servers, under `dns` itself. -/
def Config.dnsServers : ExtraConfig where
  entries := [("dns", .array [.string "1.1.1.1"])]
  distinct := .object (by decide) (List.forall_mem_singleton.2
    (.array (List.forall_mem_singleton.2 (.string _))))

/-- The check accepts a list under `dns`, and the file does not have it. -/
theorem not_keepsAdded_dns_servers : checkReservedKeys Config.dnsServers = .ok () ∧
    ¬KeepsAdded "https://headscale.test" "tail.test" Config.dnsServers := by
  refine ⟨rfl, fun h => ?_⟩
  rcases h.kept _ rfl with hsame | ⟨ps, _, hps, _⟩
  · cases hsame
  · cases hps

end Headmaster.Operator
