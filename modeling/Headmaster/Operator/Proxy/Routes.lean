import Mathlib.Data.List.ReduceOption
import Headmaster.Operator.Proxy.Runs

/-!
# What an Ingress proxy serves

The rules of an Ingress become routes (`collectIngressRoutes`), and these the
handlers of the serve configuration (`buildServeJson`).

* `handles_collectIngressRoutes`: there is one handler for each path that a rule
  declares, the longer paths first; of several routes for a path the last
  declared counts;
* `served_iff`: a rule whose port is looked up in vain is left out, so that a
  path has a handler exactly when the port of one of its rules is a number or
  was found. The other rules are served all the same, and the reconcile is not
  tried again (`dropped_on_missing`).
-/

namespace Headmaster.Operator.Proxy

open Process (Made Machine Pool trace)
open Process.Prog (Uses wp_bind wp_bind_op wp_mono)

/-! ## The order of the handlers -/

/-- The handlers of a serve configuration, by path. -/
def handlersOf : Json → List (String × Json)
  | .object [_, ("Web", .object [(_, .object [("Handlers", .object handlers)])])] => handlers
  | _ => []

/-- Handlers for the routes, as these were declared. -/
structure Handles (acceptAppCaps : List String) (routes : List ProxyRoute)
    (handlers : List (String × Json)) : Prop where
  once : (handlers.map Prod.fst).Nodup
  paths : ∀ path, path ∈ handlers.map Prod.fst ↔ ∃ r ∈ routes, r.path = path
  longer : (handlers.map Prod.fst).Pairwise fun p q => q.utf8ByteSize ≤ p.utf8ByteSize
  /-- No path comes before one that it is a proper prefix of. -/
  prefixes : (handlers.map Prod.fst).Pairwise fun p q => ¬p.toList <+: q.toList
  /-- The backend is that of the last route with the path. -/
  backend : ∀ before r after, routes = before ++ r :: after → (∀ s ∈ after, s.path ≠ r.path) →
    ∃ handler, handlers.lookup r.path = some (.object handler) ∧
      handler.lookup "Proxy" = some (.string r.backendUrl)
  caps : ∀ path h, (path, h) ∈ handlers → ∃ handler, h = .object handler ∧
    handler.lookup "AcceptAppCaps" =
      if acceptAppCaps = [] then none else some (.array (acceptAppCaps.map .string))

section Order

variable {routes : List ProxyRoute} {acceptAppCaps : List String} {tailnetFqdn : String}

theorem handlersOf_buildServeJson : handlersOf (buildServeJson tailnetFqdn routes acceptAppCaps) =
    Props.extend [] (routes.map fun r => (r.path, handlerOf acceptAppCaps r)) := rfl

theorem pairwise_longestFirst : (longestFirst routes).Pairwise fun r s =>
    s.path.utf8ByteSize ≤ r.path.utf8ByteSize :=
  have : Std.Total fun r s : ProxyRoute => s.path.utf8ByteSize ≤ r.path.utf8ByteSize :=
    ⟨fun _ _ => Nat.le_total _ _⟩
  have : IsTrans ProxyRoute fun r s => s.path.utf8ByteSize ≤ r.path.utf8ByteSize :=
    ⟨fun _ _ _ h h' => Nat.le_trans h' h⟩
  List.pairwise_insertionSort _ routes

/-- The routes with one path stay in order. -/
theorem filter_longestFirst (path : String) :
    (longestFirst routes).filter (·.path = path) = routes.filter (·.path = path) := by
  -- The sort is stable, and loses none of them.
  have hsub : (routes.filter (·.path = path)).Sublist (longestFirst routes) := by
    refine List.sublist_insertionSort ?_ List.filter_sublist
    refine List.pairwise_of_forall_mem_list fun r hr s hs => ?_
    rw [of_decide_eq_true (List.mem_filter.1 hr).2, of_decide_eq_true (List.mem_filter.1 hs).2]
  have hsub' := hsub.filter (·.path = path)
  simp only [List.filter_filter, Bool.and_self] at hsub'
  refine (hsub'.eq_of_length ?_).symm
  exact ((List.perm_insertionSort _ routes).filter _).length_eq.symm

theorem lookup_handlers (path : String) :
    (handlersOf (buildServeJson tailnetFqdn (longestFirst routes) acceptAppCaps)).lookup path =
      ((routes.filter (·.path = path)).getLast?).map (handlerOf acceptAppCaps) := by
  rw [handlersOf_buildServeJson, Props.lookup_extend, Props.last_eq_getLast?_filter, List.filter_map,
    List.getLast?_map, Option.map_map, List.lookup_nil, Option.or_none]
  change ((longestFirst routes).filter (·.path = path)).getLast?.map _ = _
  rw [filter_longestFirst]
  rfl

/-- A text that begins with another, and is not longer, is that. -/
theorem eq_of_begins {p q : String} (h : p.toList <+: q.toList)
    (hle : q.utf8ByteSize ≤ p.utf8ByteSize) : p = q := by
  obtain ⟨rest, hrest⟩ := h
  have hq : q = p ++ String.ofList rest := by
    rw [← String.toList_inj, String.toList_append, String.toList_ofList, hrest]
  have hempty : (String.ofList rest).utf8ByteSize = 0 := by
    rw [hq, String.utf8ByteSize_append] at hle
    omega
  rw [hq, String.utf8ByteSize_eq_zero_iff.1 hempty, String.append_empty]

/-- What the handlers are, for routes that are sorted. -/
theorem handles_longestFirst : Handles acceptAppCaps routes
    (handlersOf (buildServeJson tailnetFqdn (longestFirst routes) acceptAppCaps)) := by
  have hlookup : ∀ path, _ = _ := @lookup_handlers routes acceptAppCaps tailnetFqdn
  set handlers := handlersOf (buildServeJson tailnetFqdn (longestFirst routes) acceptAppCaps)
    with hhandlers
  have honce : (handlers.map Prod.fst).Nodup := Props.nodup_extend _ List.nodup_nil
  have hlonger : (handlers.map Prod.fst).Pairwise fun p q => q.utf8ByteSize ≤ p.utf8ByteSize := by
    obtain ⟨l, hsub, hl⟩ := @Props.names_extend Json []
      ((longestFirst routes).map fun r => (r.path, handlerOf acceptAppCaps r))
    rw [hhandlers, handlersOf_buildServeJson, hl]
    refine List.Pairwise.sublist hsub ?_
    rw [List.map_map]
    exact List.pairwise_map.2 pairwise_longestFirst
  refine ⟨honce, fun path => ?_, hlonger, ?_, ?_, ?_⟩
  · rw [← not_iff_not, ← Props.lookup_eq_none_iff, hlookup, Option.map_eq_none_iff,
      List.getLast?_eq_none_iff, List.filter_eq_nil_iff]
    simp
  · exact hlonger.imp₂ (fun _ _ hle hne hprefix => hne (eq_of_begins hprefix hle)) honce
  · -- The last route of a path is the one that its handler is for.
    rintro before r after rfl hafter
    have hnone : after.filter (·.path = r.path) = [] :=
      List.filter_eq_nil_iff.2 fun s hs => by simpa using hafter s hs
    have hlast : handlers.lookup r.path = some (handlerOf acceptAppCaps r) := by
      rw [hlookup, List.filter_append, List.filter_cons, if_pos (by simp), hnone,
        List.getLast?_append]
      rfl
    exact ⟨_, hlast, rfl⟩
  · intro path h hmem
    rw [Props.mem_iff_lookup honce, hlookup, Option.map_eq_some_iff] at hmem
    obtain ⟨r, _, rfl⟩ := hmem
    refine ⟨_, rfl, ?_⟩
    cases acceptAppCaps <;> rfl

end Order

/-! ## Which rules are served -/

/-- The number of the port, or the one that its name has in the answer. -/
def ServiceBackendPort.numberBy (ref : ServiceBackendPort) :
    Option (Except KubeError PortedService) → Option Int
  | some (.ok service) =>
    ref.number <|> (service.ports.find? fun q => q.name == ref.name).map (·.port)
  | _ => ref.number

namespace HTTPIngressPath

variable (p : HTTPIngressPath)

/-- The path of the route; without one it is all paths. -/
def routePath : String := p.path.getD "/"

/-- The backend is a Service with a port. -/
def hasPort : Bool :=
  p.service.any fun svc => svc.port.any fun ref => ref.number.isSome || ref.name.isSome

/-- The port is to be looked up. -/
def namesPort : Bool :=
  p.service.any fun svc => svc.port.any fun ref => ref.number.isNone && ref.name.isSome

/-- A lookup has found the port. -/
def findsPort : Except KubeError PortedService → Bool
  | .error _ => false
  | .ok service => p.service.any fun svc => svc.port.any fun ref =>
    service.ports.any fun q => q.name == ref.name

/-- The route to the Service, to the number of its port or to the one that the answer has. -/
def route (ns : String) (answer : Option (Except KubeError PortedService)) : Option ProxyRoute :=
  p.service.bind fun svc => svc.port.bind fun ref => (ref.numberBy answer).map fun port => {
    path := p.routePath
    backendUrl := "http://" ++ svc.name ++ "." ++ ns ++ ".svc.cluster.local:" ++ toString port }

end HTTPIngressPath

/-- The backends of the rules that name a port. -/
def namedBackends (ns : String) (paths : List HTTPIngressPath) : List (String × String) :=
  (paths.filter (·.namesPort)).filterMap fun p => p.service.map fun svc => (ns, svc.name)

/-- The routes of the rules, in their order. The answers are for the rules that name a port. -/
def declared (ns : String) : List HTTPIngressPath → List (Except KubeError PortedService) →
    List ProxyRoute
  | [], _ => []
  | p :: paths, answers =>
    if p.namesPort then (p.route ns answers.head?).toList ++ declared ns paths answers.tail
    else (p.route ns none).toList ++ declared ns paths answers

/-- The answer to the lookup of a backend. -/
def lookupOf : Made sig → Option (Except KubeError PortedService)
  | ⟨.getService _ _, a⟩ => some a
  | _ => none

/-- The Service that is looked up. -/
def backendOf : Op → Option (String × String)
  | .getService ns name => some (ns, name)
  | _ => none

/-- The backends that were looked up, in order. -/
def lookedUp (tr : List (Made sig)) : List (String × String) :=
  tr.reverse.filterMap fun c => backendOf c.op

/-- The answers to the lookups of backends, in the order of the lookups. -/
def lookups (tr : List (Made sig)) : List (Except KubeError PortedService) :=
  tr.reverse.filterMap lookupOf

/-- A rule for the path has a port that is a number, or was found. The lookups are those of the rules
    that name a port, in order. -/
def Routed (paths : List HTTPIngressPath) (answers : List (Except KubeError PortedService))
    (path : String) : Prop :=
  (∃ p ∈ paths, p.hasPort = true ∧ p.namesPort = false ∧ p.routePath = path) ∨
    ∃ x ∈ (paths.filter (·.namesPort)).zip answers, x.1.findsPort x.2 = true ∧ x.1.routePath = path

/-- The serve configuration that a request applies. -/
def renders : Op → Option Json
  | .apply _ (.configMap _ serveJson) => some serveJson
  | _ => none

section Routes

variable {paths : List HTTPIngressPath} {tr l : List (Made sig)} {ns path : String}

theorem lookups_append : lookups (l ++ tr) = lookups tr ++ lookups l := by
  rw [lookups, List.reverse_append, List.filterMap_append, lookups, lookups]

theorem lookedUp_append : lookedUp (l ++ tr) = lookedUp tr ++ lookedUp l := by
  rw [lookedUp, List.reverse_append, List.filterMap_append, lookedUp, lookedUp]

theorem lookups_eq_nil (h : ∀ c ∈ l, lookupOf c = none) : lookups l = [] :=
  List.filterMap_eq_nil_iff.2 fun c hc => h c (List.mem_reverse.1 hc)

/-- What one rule comes to: its route, after one lookup or none. -/
theorem wp_routeOf (p : HTTPIngressPath) :
    (routeOf ns p).wp (.tracing fun _ _ => True) (fun r tr' => ∃ answer l,
      r = .ok (p.route ns answer) ∧ tr' = l ++ tr ∧ (∀ c ∈ l, renders c.op = none) ∧
      answer.isSome = p.namesPort ∧ lookups l = answer.toList ∧
      lookedUp l = namedBackends ns [p]) tr := by
  match p with
  | ⟨_, none⟩ | ⟨_, some ⟨_, none⟩⟩ | ⟨_, some ⟨_, some ⟨none, none⟩⟩⟩
  | ⟨_, some ⟨_, some ⟨_, some _⟩⟩⟩ =>
    exact ⟨none, [], rfl, rfl, List.forall_mem_nil _, rfl, rfl, rfl⟩
  | ⟨_, some ⟨_, some ⟨some portName, none⟩⟩⟩ =>
    -- A port that has only a name is looked up.
    refine wp_bind_op.2 ⟨trivial, fun a => ?_⟩
    cases a with
    | error e => exact ⟨some (.error e), [_], rfl, rfl, List.forall_mem_singleton.2 rfl, rfl, rfl, rfl⟩
    | ok service =>
      exact ⟨some (.ok service), [_], rfl, rfl, List.forall_mem_singleton.2 rfl, rfl, rfl, rfl⟩

/-! ### The routes that are declared -/

section Declared

variable {p : HTTPIngressPath} {a : Except KubeError PortedService}
  {answers : List (Except KubeError PortedService)}

theorem path_of_route {answer : Option (Except KubeError PortedService)} {rt : ProxyRoute}
    (h : rt ∈ p.route ns answer) : rt.path = p.routePath := by
  obtain ⟨svc, _, h⟩ := Option.bind_eq_some_iff.1 h
  obtain ⟨ref, _, h⟩ := Option.bind_eq_some_iff.1 h
  obtain ⟨port, _, rfl⟩ := Option.map_eq_some_iff.1 h
  rfl

/-- A rule that names a port has a route exactly when the port was found. -/
theorem isSome_route_named (hp : p.namesPort = true) :
    (p.route ns (some a)).isSome = p.findsPort a := by
  match p, a with
  | ⟨_, some ⟨_, some ⟨some portName, none⟩⟩⟩, .error _ => rfl
  | ⟨_, some ⟨_, some ⟨some portName, none⟩⟩⟩, .ok service =>
    change (Option.map _ (Option.map _ _)).isSome = _
    rw [Option.isSome_map, Option.isSome_map, Bool.eq_iff_iff, List.find?_isSome]
    simp [HTTPIngressPath.findsPort]

/-- Any other rule has one when its port is a number. -/
theorem isSome_route_numbered (hp : p.namesPort = false) :
    (p.route ns none).isSome = p.hasPort := by
  match p with
  | ⟨_, none⟩ | ⟨_, some ⟨_, none⟩⟩ | ⟨_, some ⟨_, some ⟨none, none⟩⟩⟩
  | ⟨_, some ⟨_, some ⟨_, some _⟩⟩⟩ => rfl

theorem routed_cons_named (hp : p.namesPort = true) : Routed (p :: paths) (a :: answers) path ↔
    (p.findsPort a = true ∧ p.routePath = path) ∨ Routed paths answers path := by
  rw [Routed, Routed, List.filter_cons_of_pos hp, List.zip_cons_cons]
  simp only [List.mem_cons, exists_eq_or_imp, hp, Bool.true_eq_false, false_and, and_false,
    false_or]
  exact or_left_comm

theorem routed_cons_numbered (hp : p.namesPort = false) : Routed (p :: paths) answers path ↔
    (p.hasPort = true ∧ p.routePath = path) ∨ Routed paths answers path := by
  rw [Routed, Routed, List.filter_cons_of_neg (by simp [hp])]
  simp only [List.mem_cons, exists_eq_or_imp, hp, true_and, or_assoc]

theorem declared_cons {answer : Option (Except KubeError PortedService)}
    (h : answer.isSome = p.namesPort) : declared ns (p :: paths) (answer.toList ++ answers) =
      (p.route ns answer).toList ++ declared ns paths answers := by
  cases answer with
  | none => exact if_neg (by simp [← h])
  | some a => exact if_pos (by simp [← h])

/-- The paths that are declared are those of the rules that are served. -/
theorem mem_declared (hlength : answers.length = (paths.filter (·.namesPort)).length) :
    (∃ rt ∈ declared ns paths answers, rt.path = path) ↔ Routed paths answers path := by
  induction paths generalizing answers with
  | nil => simp [declared, Routed]
  | cons p paths ih =>
    have hcons (answer : Option (Except KubeError PortedService)) (answers) :
        (∃ rt ∈ (p.route ns answer).toList ++ declared ns paths answers, rt.path = path) ↔
          ((p.route ns answer).isSome = true ∧ p.routePath = path) ∨
            ∃ rt ∈ declared ns paths answers, rt.path = path := by
      cases hroute : p.route ns answer with
      | none => simp
      | some rt => simp [path_of_route hroute]
    cases hp : p.namesPort with
    | true =>
      rw [List.filter_cons_of_pos hp] at hlength
      obtain ⟨a, answers, rfl⟩ := List.exists_cons_of_length_eq_add_one hlength
      rw [declared, if_pos hp, List.head?_cons, List.tail_cons, hcons, isSome_route_named hp,
        routed_cons_named hp, ih (Nat.succ.inj hlength)]
    | false =>
      rw [List.filter_cons_of_neg (by simp [hp])] at hlength
      rw [declared, if_neg (by simp [hp]), hcons, isSome_route_numbered hp,
        routed_cons_numbered hp, ih hlength]

end Declared

theorem namedBackends_cons (p : HTTPIngressPath) :
    namedBackends ns (p :: paths) = namedBackends ns [p] ++ namedBackends ns paths := by
  simp only [namedBackends, ← List.filterMap_append, ← List.filter_append, List.singleton_append]

/-- The rules come to the routes that they declare. -/
theorem wp_mapM_routeOf :
    (paths.mapM (routeOf ns)).wp (.tracing fun _ _ => True) (fun r tr' => ∃ routes l, r = .ok routes ∧
      tr' = l ++ tr ∧ (∀ c ∈ l, renders c.op = none) ∧
      (lookups l).length = (paths.filter (·.namesPort)).length ∧
      lookedUp l = namedBackends ns paths ∧
      routes.reduceOption = declared ns paths (lookups l)) tr := by
  induction paths generalizing tr with
  | nil => exact ⟨[], [], rfl, rfl, List.forall_mem_nil _, rfl, rfl, rfl⟩
  | cons p paths ih =>
    rw [List.mapM_cons]
    refine wp_bind.2 (wp_mono ?_ (wp_routeOf p))
    rintro _ _ ⟨answer, l, rfl, rfl, hl, hanswer, hlookups, hlooked⟩
    -- The answers to the other rules come after the one to this rule, if it has one.
    refine wp_bind.2 (wp_mono ?_ ih)
    rintro _ _ ⟨routes, l', rfl, rfl, hl', hlength, hlooked', hroutes⟩
    refine ⟨p.route ns answer :: routes, l' ++ l, rfl, (List.append_assoc _ _ _).symm,
      fun c hc => (List.mem_append.1 hc).elim (hl' c) (hl c), ?_, ?_, ?_⟩
    · rw [lookups_append, hlookups, List.length_append, hlength]
      cases answer with
      | none => rw [List.filter_cons_of_neg (by simp [← hanswer]), Option.toList_none, List.length_nil,
          Nat.zero_add]
      | some a => rw [List.filter_cons_of_pos hanswer.symm, Option.toList_some, List.length_singleton,
          List.length_cons, Nat.add_comm]
    · rw [lookedUp_append, hlooked, hlooked', ← namedBackends_cons p]
    · rw [lookups_append, hlookups, declared_cons hanswer, ← hroutes]
      cases p.route ns answer <;> rfl

/-- What the calls for the routes of an Ingress come to: those that are declared, sorted. -/
structure Collected (ing : RoutedIngress) (calls : List (Made sig))
    (r : Except Error (Option (List ProxyRoute))) : Prop where
  quiet : ∀ c ∈ calls, renders c.op = none
  length : (lookups calls).length = (ing.paths.filter (·.namesPort)).length
  backends : lookedUp calls = namedBackends ing.ns ing.paths
  result : r = .ok (if ing.paths = [] then none
    else some (longestFirst (declared ing.ns ing.paths (lookups calls))))

theorem wp_collectIngressRoutes {ing : RoutedIngress} :
    (collectIngressRoutes ing).wp (.tracing fun _ _ => True)
      (fun r tr' => ∃ l, tr' = l ++ tr ∧ Collected ing l r) tr := by
  rw [collectIngressRoutes]
  by_cases hpaths : ing.paths = []
  · rw [if_pos (List.isEmpty_iff.2 hpaths)]
    refine ⟨[], rfl, List.forall_mem_nil _, ?_, ?_, by rw [if_pos hpaths]⟩
    all_goals rw [hpaths]; rfl
  · rw [if_neg (mt List.isEmpty_iff.1 hpaths)]
    refine wp_bind.2 (wp_mono ?_ wp_mapM_routeOf)
    rintro _ _ ⟨routes, l, rfl, rfl, hl, hlength, hlooked, hroutes⟩
    exact ⟨l, rfl, hl, hlength, hlooked, by rw [if_neg hpaths, ← hroutes]⟩

end Routes

/-- The routes that are collected, however the lookups are answered, make for handlers of the routes
    that the rules declare. -/
theorem handles_collectIngressRoutes {ing : RoutedIngress} {w : Cluster}
    {events : List (Process.Event Fate (Cluster → Cluster))}
    {s : Pool sig Error (Option (List ProxyRoute)) Cluster} {r : Except Error (Option (List ProxyRoute))}
    (hexec : cluster.exec { world := w, threads := [collectIngressRoutes ing] } events = some s)
    (hend : s.threads = [.ret r]) :
    lookedUp (trace 0 s.history) = namedBackends ing.ns ing.paths ∧
      (ing.paths = [] → r = .ok none) ∧
      (ing.paths ≠ [] → ∃ routes, r = .ok (some routes) ∧ ∀ tailnetFqdn acceptAppCaps,
        Handles acceptAppCaps (declared ing.ns ing.paths (lookups (trace 0 s.history)))
          (handlersOf (buildServeJson tailnetFqdn routes acceptAppCaps))) := by
  have hkeeps := Machine.exec_keeps (A := fun _ _ => True)
    (Q := fun r tr => ∃ l, tr = l ++ [] ∧ Collected ing l r) (i := 0) ?_ hexec
  · have hthread : s.threads[0]? = some (.ret r) := by rw [hend]; rfl
    obtain ⟨l, htrace, hcollected⟩ := hkeeps _ hthread
    rw [htrace, List.append_nil]
    have hr := hcollected.result
    refine ⟨hcollected.backends, fun hpaths => ?_, fun hpaths => ?_⟩
    · rw [hr, if_pos hpaths]
    · rw [if_neg hpaths] at hr
      exact ⟨_, hr, fun _ _ => handles_longestFirst⟩
  · intro p hp
    obtain rfl := Option.some.inj hp
    exact wp_collectIngressRoutes

namespace Routes

/-! ### An Ingress with a named port -/

def config : String := "\x7b\"headscale-ref\":\"main\",\"managed-key-tags\":[\"tag:web\"]\x7d"

def reader : Reader := fun s =>
  if s = config then
    some (.object [("headscale-ref", .string "main"), ("managed-key-tags", .array [.string "tag:web"])])
  else none

/-- All that is not for the administrators goes to the site. -/
def site : RoutedIngress where
  metadata := { name := "site", namespaceName := some "shop", annotations := [(annotationConfig, config)] }
  className := some ingressClassName
  paths := [
    { path := some "/", service := some { name := "web", port := some { number := some 80 } } },
    { path := some "/admin/", service := some { name := "admin", port := some { name := some "http" } } }]

/-- The next requests succeed, but for the lookups of backends. -/
def answers (backend : Except KubeError PortedService) (n : ℕ) :
    List (Process.Event Fate (Cluster → Cluster)) :=
  List.replicate n (.act 0 {
    answer := fun
      | .getService _ _ => backend
      | o => answerOf { name := "main", ready := true } o })

def admin : PortedService where
  metadata := { name := "admin" }
  ports := [{ name := some "http", port := 8080 }]

/-- Two rules are for the rest of the paths, and one is for a Service without a number for its port. -/
def shared : RoutedIngress :=
  { site with paths := site.paths ++ [
      { service := some { name := "shop", port := some { number := some 8080 } } },
      { path := some "/old/", service := some { name := "old", port := some {} } }] }

/-- The routes of the rules that have a port, in order. -/
def sharedRoutes : List ProxyRoute := [
  ⟨"/", "http://web.shop.svc.cluster.local:80"⟩,
  ⟨"/admin/", "http://admin.shop.svc.cluster.local:8080"⟩,
  ⟨"/", "http://shop.shop.svc.cluster.local:8080"⟩]

/-- The routes of which a collection has come to its end. -/
def collected (s : Pool sig Error (Option (List ProxyRoute)) Cluster) : Option (List ProxyRoute) :=
  match s.threads with
  | [.ret (.ok r)] => r
  | _ => none

theorem threads_of_collected {s : Pool sig Error (Option (List ProxyRoute)) Cluster}
    {routes : List ProxyRoute} (h : collected s = some routes) :
    s.threads = [.ret (.ok (some routes))] := by
  rw [collected] at h
  split at h
  · rename_i r hthreads
    rw [hthreads, h]
  · cases h

end Routes

open Routes (shared sharedRoutes answers admin) in
/-- The last of the two rules counts, and the longer path is first. -/
theorem handles_collectIngressRoutes_shared :
    ∃ (s : Pool sig Error (Option (List ProxyRoute)) Cluster) (routes : List ProxyRoute),
      cluster.exec { world := Shop.fresh, threads := [collectIngressRoutes shared] }
        (answers (.ok admin) 1) = some s ∧
      s.threads = [.ret (.ok (some routes))] ∧
      Handles ["example.com/cap/shop"] sharedRoutes
        (handlersOf (buildServeJson "site.ts.net" routes ["example.com/cap/shop"])) := by
  have hrun : (cluster.exec { world := Shop.fresh, threads := [collectIngressRoutes shared] }
      (answers (.ok admin) 1)).any (fun s => (Routes.collected s).isSome &&
        declared shared.ns shared.paths (lookups (trace 0 s.history)) == sharedRoutes) = true := by
    decide +kernel
  obtain ⟨s, hs, hcheck⟩ := Option.any_eq_true _ _ |>.1 hrun
  obtain ⟨hcollected, hdeclared⟩ := Bool.and_eq_true_iff.1 hcheck
  obtain ⟨routes, hroutes⟩ := Option.isSome_iff_exists.1 hcollected
  have hend := Routes.threads_of_collected hroutes
  obtain ⟨-, -, hhandles⟩ := handles_collectIngressRoutes hs hend
  obtain ⟨_, hr, hhandles⟩ := hhandles (by decide)
  obtain rfl := Option.some.inj (Except.ok.inj hr)
  exact ⟨s, routes, hs, hend, beq_iff_eq.1 hdeclared ▸ hhandles _ _⟩

/-! ## Whole applies -/

section Applies

variable {read : Reader} {digest : Digest} {dep : Deployment} {ing : RoutedIngress} {α : Type}
  {p : M α} {annotations : IngressAnnotations} {inst : Instance}

/-- A request that neither applies a serve configuration nor looks up a backend. -/
def Plain (o : Op) : Prop := renders o = none ∧ ∀ a, lookupOf ⟨o, a⟩ = none

/-- For each serve configuration that was applied: the paths that have a handler are those of the
    rules that are served. -/
def Faithful (paths : List HTTPIngressPath) (tr : List (Made sig)) : Prop :=
  ∀ c ∈ tr, ∀ serveJson, renders c.op = some serveJson →
    ∀ path, path ∈ (handlersOf serveJson).map Prod.fst ↔ Routed paths (lookups tr) path

theorem renders_of_within {o : Op} (ho : Within (· ≠ .configMap) o) : renders o = none := by
  by_contra hrenders
  obtain ⟨serveJson, hrenders⟩ := Option.ne_none_iff_exists'.1 hrenders
  match o, hrenders with
  | .apply _ (.configMap _ _), _ => exact ho _ rfl rfl

theorem uses_renders_of_within (hp : p.Uses (Within (· ≠ .configMap))) :
    p.Uses fun o => renders o = none := hp.mono fun _ => renders_of_within

theorem renders_cleanupProxyResources {names : ProxyNames} :
    (cleanupProxyResources names).Uses fun o => renders o = none :=
  uses_cleanupProxyResources rfl fun _ _ _ => rfl

theorem renders_deregisterAndCleanup {fallback : String} {names : ProxyNames}
    {parent : ObjectReference} :
    (deregisterAndCleanup dep names parent fallback).Uses fun o => renders o = none :=
  uses_deregisterAndCleanup
    (fun _ ho => renders_of_within (ho.mono fun _ ha => ha ▸ Area.noConfusion))
    renders_cleanupProxyResources

/-- What is rendered is for those routes. -/
def RendersFor (routes : List ProxyRoute) (o : Op) : Prop :=
  ∀ serveJson, renders o = some serveJson → ∃ tailnetFqdn acceptAppCaps,
    serveJson = buildServeJson tailnetFqdn routes acceptAppCaps

theorem rendersFor_provision {routes : List ProxyRoute} {hostNetwork : Bool} :
    (ing.provision read digest dep annotations inst hostNetwork routes).Uses (RendersFor routes) := by
  have hwithin {α : Type} {p : M α} (hp : p.Uses (Within (· ≠ .configMap))) :
      p.Uses (RendersFor routes) := hp.mono fun o ho serveJson hrenders => by
    rw [renders_of_within ho] at hrenders
    cases hrenders
  refine .bind (hwithin (.mapError (within_headscaleConnect _ _))) fun headscale => ?_
  refine .bind (hwithin (within_applyWireguardService nofun)) fun networking => ?_
  refine .bind (hwithin (within_resetIfRetargeted nofun nofun)) fun _ => ?_
  refine .bind (hwithin (within_rotateStaleAuthKey nofun nofun)) fun _ => ?_
  refine .bind (hwithin (within_ensureAuthKey nofun nofun)) fun status => ?_
  cases status with
  | waitingForUser => exact hwithin (within_pure _)
  | ready =>
    refine .bind (hwithin (within_ensureStateSecret nofun)) fun stateSecret => ?_
    refine .bind (.bind (Process.Prog.uses_op ?_) fun _ => trivial) fun _ => hwithin ?_
    · rintro _ ⟨⟩
      exact ⟨_, _, rfl⟩
    · refine .bind within_applyProxyRbac fun _ => .bind (within_apply rfl nofun) fun _ => ?_
      refine .bind (within_syncTags nofun) fun tagged => .bind RoutedIngress.within_report fun _ => ?_
      exact .bind (within_claim nofun) fun _ => within_pure _

/-! ### What comes before the routes -/

theorem plain_publishWarning {parent : ObjectReference} {reason note : String} :
    (publishWarning parent reason note).Uses Plain :=
  .bind ⟨⟨rfl, fun _ => rfl⟩, fun _ => trivial⟩ fun _ => trivial

theorem plain_ifFound (r : Except KubeError α) : (ifFound r).Uses Plain := by
  match r with
  | .ok _ | .error .notFound | .error .other => exact trivial

theorem plain_hostNetworkOf {parent : ObjectReference} :
    (hostNetworkOf parent annotations).Uses Plain := by
  rw [hostNetworkOf]
  split
  · exact .bind plain_publishWarning fun _ => trivial
  · exact trivial

theorem plain_namespaceIsDeleting {ns : String} : (namespaceIsDeleting ns).Uses Plain :=
  .bind ⟨⟨rfl, fun _ => rfl⟩, fun _ => trivial⟩ fun _ => .bind (plain_ifFound _) fun _ => trivial

theorem plain_instanceFor {parent : ObjectReference} : (instanceFor parent annotations).Uses Plain := by
  refine .bind ⟨⟨rfl, fun _ => rfl⟩, fun _ => trivial⟩ fun _ => .bind (plain_ifFound _) fun inst => ?_
  cases inst with
  | some inst => exact trivial
  | none => exact .bind plain_publishWarning fun _ => trivial

/-! ### Along an apply -/

/-- From where nothing was rendered or looked up, what is rendered is faithful. -/
def Serving (paths : List HTTPIngressPath) (p : M α) : Prop :=
  ∀ tr, (∀ c ∈ tr, Plain c.op) →
    p.wp (.tracing fun _ _ => True) (fun _ tr' => Faithful paths tr') tr

/-- What renders nothing is. -/
theorem faithful_of_uses {tr : List (Made sig)} (hp : p.Uses fun o => renders o = none)
    (htr : ∀ c ∈ tr, renders c.op = none) :
    p.wp (.tracing fun _ _ => True) (fun _ tr' => Faithful ing.paths tr') tr := by
  refine wp_mono ?_ (hp.wp_tracing (fun _ _ _ => trivial) tr)
  rintro _ _ ⟨l, rfl, hl⟩ c hc serveJson hrenders
  have hnone : renders c.op = none := (List.mem_append.1 hc).elim (hl c) (htr c)
  rw [hnone] at hrenders
  cases hrenders

theorem Serving.of_uses (hp : p.Uses fun o => renders o = none) : Serving ing.paths p :=
  fun _ htr => faithful_of_uses hp fun c hc => (htr c hc).1

theorem Serving.bind {β : Type} {f : α → M β} {paths : List HTTPIngressPath} (hp : p.Uses Plain)
    (hf : ∀ a, Serving paths (f a)) : Serving paths (p >>= f) := by
  intro tr htr
  refine wp_bind.2 (wp_mono ?_ (hp.wp_tracing (fun _ _ _ => trivial) tr))
  rintro (e | a) _ ⟨l, rfl, hl⟩
  all_goals
    have hplain : ∀ c ∈ l ++ tr, Plain c.op := fun c hc =>
      (List.mem_append.1 hc).elim (hl c) (htr c)
  · intro c hc serveJson hrenders
    rw [(hplain c hc).1] at hrenders
    cases hrenders
  · exact hf a _ hplain

/-- A proxy for routes that were collected, after the lookups for them. -/
theorem faithful_provision {tr : List (Made sig)} {hostNetwork : Bool}
    (htr : ∀ c ∈ tr, renders c.op = none)
    (hlength : (lookups tr).length = (ing.paths.filter (·.namesPort)).length) :
    (ing.provision read digest dep annotations inst hostNetwork
      (longestFirst (declared ing.ns ing.paths (lookups tr)))).wp
      (.tracing fun _ _ => True) (fun _ tr' => Faithful ing.paths tr') tr := by
  refine wp_mono ?_ (rendersFor_provision.wp_tracing (fun _ _ _ => trivial) tr)
  rintro _ _ ⟨l, rfl, hl⟩ c hc serveJson hrenders path
  rcases List.mem_append.1 hc with hc | hc
  · obtain ⟨tailnetFqdn, acceptAppCaps, rfl⟩ := hl c hc serveJson hrenders
    -- no answer that comes later belongs to a rule
    have hzip : (ing.paths.filter (·.namesPort)).zip (lookups (l ++ tr)) =
        (ing.paths.filter (·.namesPort)).zip (lookups tr) := by
      conv_lhs => rw [lookups_append, ← List.append_nil (ing.paths.filter _)]
      rw [List.zip_append hlength.symm, List.zip_nil_left, List.append_nil]
    rw [handles_longestFirst.paths, mem_declared hlength, Routed, Routed, hzip]
  · rw [htr c hc] at hrenders
    cases hrenders

theorem serving_applyReady {hostNetwork : Bool} :
    Serving ing.paths (ing.applyReady read digest dep annotations inst hostNetwork) := by
  have hnoRules : (do
      publishWarning ing.parent "NoPathRules"
        "Ingress has no HTTP path rules; add spec.rules with at least one backend"
      deregisterAndCleanup dep (ing.names digest) ing.parent
        annotations.headscaleRef
      return .awaitChange : M Action).Uses fun o => renders o = none := by
    exact .bind (uses_renders_of_within within_publishWarning) fun _ =>
      .bind renders_deregisterAndCleanup fun _ => trivial
  rw [RoutedIngress.applyReady]
  split
  · exact .of_uses (uses_renders_of_within (.bind within_publishWarning fun _ => within_pure _))
  · intro tr htr
    refine wp_bind.2 (wp_mono ?_ wp_collectIngressRoutes)
    rintro _ _ ⟨l, rfl, hl, hlength, _, rfl⟩
    have hnone : ∀ c ∈ l ++ tr, renders c.op = none := fun c hc =>
      (List.mem_append.1 hc).elim (hl c) fun hc => (htr c hc).1
    -- Before the rules, no backend was looked up.
    have hlookups : lookups (l ++ tr) = lookups l := by
      rw [lookups_append, lookups_eq_nil fun c hc => (htr c hc).2 c.ans, List.nil_append]
    have hprovision := @faithful_provision read digest dep ing annotations inst _ hostNetwork hnone
      (hlookups.symm ▸ hlength)
    rw [hlookups] at hprovision
    simp only [Process.Post.andThen_ok]
    by_cases hpaths : ing.paths = []
    · rw [if_pos hpaths]
      exact faithful_of_uses hnoRules hnone
    · rw [if_neg hpaths]
      cases hsorted : longestFirst (declared ing.ns ing.paths (lookups l)) with
      | nil =>
        exact faithful_of_uses
          (uses_renders_of_within (.bind within_publishWarning fun _ => within_pure _)) hnone
      | cons route rest =>
        rw [hsorted] at hprovision
        exact hprovision

/-- Whatever the answers are, an apply is faithful in what it renders. -/
theorem serving_apply : Serving ing.paths (ing.apply read digest dep) := by
  have hrelease {q : M Unit} (hq : q.Uses fun o => renders o = none) :
      (q >>= fun _ => ing.release dep >>= fun _ => pure .awaitChange : M Action).Uses
        fun o => renders o = none :=
    .bind hq fun _ => .bind (uses_renders_of_within RoutedIngress.within_release) fun _ => trivial
  rw [RoutedIngress.apply]
  split
  · refine .of_uses (hrelease ?_)
    rw [takeDown]
    split
    · exact renders_deregisterAndCleanup
    · exact renders_cleanupProxyResources
  · split
    · exact .of_uses trivial
    · rw [RoutedIngress.applyConfigured]
      split
      · exact .of_uses (uses_renders_of_within (.bind within_publishWarning fun _ => within_pure _))
      · refine .bind plain_hostNetworkOf fun hostNetwork => ?_
        refine .bind plain_namespaceIsDeleting fun deleting => ?_
        split
        · exact .of_uses trivial
        · refine .bind plain_instanceFor fun inst => ?_
          cases inst with
          | none => exact .of_uses trivial
          | some inst =>
            dsimp only
            split
            · refine .of_uses (.bind (uses_renders_of_within within_publishWarning) fun _ => ?_)
              exact hrelease renders_deregisterAndCleanup
            · split
              · exact .of_uses
                  (uses_renders_of_within (.bind within_publishWarning fun _ => within_pure _))
              · exact serving_applyReady

/-- An apply of an Ingress, about to be made. -/
def applying (read : Reader) (digest : Digest) (dep : Deployment) (ing : RoutedIngress) (w : Cluster) :
    Pool sig Error Action Cluster where
  world := w
  threads := [ing.apply read digest dep]

/-- Every rule with a port is served exactly when each port that is named was found, or the path is
    served by another rule. -/
theorem served_iff {w : Cluster} {events : List (Process.Event Fate (Cluster → Cluster))}
    {s : Pool sig Error Action Cluster}
    (hexec : cluster.exec (applying read digest dep ing w) events = some s)
    (hend : s.threads = [.ret (.ok .awaitChange)]) {c : Made sig} (hc : c ∈ trace 0 s.history)
    {serveJson : Json} (hrenders : renders c.op = some serveJson) :
    (∀ p ∈ ing.paths, p.hasPort = true → p.routePath ∈ (handlersOf serveJson).map Prod.fst) ↔
      ∀ p ∈ ing.paths, p.namesPort = true →
        Routed ing.paths (lookups (trace 0 s.history)) p.routePath := by
  have hkeeps := Machine.exec_keeps (A := fun _ _ => True)
    (Q := fun _ tr => Faithful ing.paths tr) (i := 0) ?_ hexec
  · have hthread : s.threads[0]? = some (.ret (.ok .awaitChange)) := by rw [hend]; rfl
    have hall : Faithful ing.paths (trace 0 s.history) := hkeeps _ hthread
    have hfaithful := hall c hc serveJson hrenders
    simp only [hfaithful]
    constructor
    · intro h p hp hnames
      refine h p hp ?_
      match p, hnames with
      | ⟨_, some ⟨_, some ⟨some _, none⟩⟩⟩, _ => rfl
    · intro h p hp hport
      cases hnames : p.namesPort with
      | true => exact h p hp hnames
      | false => exact .inl ⟨p, hp, hport, hnames, rfl⟩
  · intro p hp
    obtain rfl := Option.some.inj hp
    exact serving_apply [] (List.forall_mem_nil _)

end Applies

namespace Routes

/-- The apply is through, and waits for a change. -/
def isOver (s : Pool sig Error Action Cluster) : Bool :=
  match s.threads with
  | [.ret (.ok .awaitChange)] => true
  | _ => false

theorem threads_of_isOver {s : Pool sig Error Action Cluster} (h : isOver s = true) :
    s.threads = [.ret (.ok .awaitChange)] := by
  rw [isOver] at h
  split at h
  · assumption
  · cases h

/-- The serve configurations that were applied. -/
def rendered (s : Pool sig Error Action Cluster) : List Json :=
  (trace 0 s.history).filterMap fun c => renders c.op

end Routes

open Orphans (sha256 deployment) in
open Shop (fresh) in
open Routes (reader site answers admin isOver threads_of_isOver rendered) in
/-- The port of the administration is found: both paths are served. -/
theorem served_iff_found : ∃ s serveJson,
    cluster.exec (applying reader sha256 deployment site fresh) (answers (.ok admin) 25) = some s ∧
    s.threads = [.ret (.ok .awaitChange)] ∧ serveJson ∈ rendered s ∧
    ∀ p ∈ site.paths, p.hasPort = true → p.routePath ∈ (handlersOf serveJson).map Prod.fst := by
  have hrun : (cluster.exec (applying reader sha256 deployment site fresh)
      (answers (.ok admin) 25)).any (fun s =>
        isOver s && !(rendered s).isEmpty &&
        ((site.paths.filter (·.namesPort)).zip (lookups (trace 0 s.history))).any fun x =>
          x.1.findsPort x.2 && x.1.routePath == "/admin/") = true := by
    decide +kernel
  obtain ⟨s, hs, hcheck⟩ := Option.any_eq_true _ _ |>.1 hrun
  simp only [Bool.and_eq_true, Bool.not_eq_true', List.isEmpty_eq_false_iff_exists_mem,
    List.any_eq_true, beq_iff_eq] at hcheck
  obtain ⟨⟨hover, serveJson, hmem⟩, x, hx, hfinds, hpath⟩ := hcheck
  obtain ⟨c, hc, hrenders⟩ := List.mem_filterMap.1 hmem
  refine ⟨s, serveJson, hs, threads_of_isOver hover, hmem, ?_⟩
  refine (served_iff hs (threads_of_isOver hover) hc hrenders).2 fun p hp hnames => .inr ?_
  rcases List.mem_pair.1 hp with rfl | rfl
  · cases hnames
  · exact ⟨x, hx, hfinds, hpath⟩

open Orphans (sha256 deployment) in
open Shop (fresh) in
open Routes (reader site answers isOver threads_of_isOver rendered) in
/-- There is no Service for the administration: its path is left to the site, for good. -/
theorem dropped_on_missing : ∃ s serveJson,
    cluster.exec (applying reader sha256 deployment site fresh) (answers (.error .notFound) 25) =
      some s ∧
    s.threads = [.ret (.ok .awaitChange)] ∧ serveJson ∈ rendered s ∧
    (handlersOf serveJson).map Prod.fst = ["/"] ∧
    ¬∀ p ∈ site.paths, p.hasPort = true → p.routePath ∈ (handlersOf serveJson).map Prod.fst := by
  have hrun : (cluster.exec (applying reader sha256 deployment site fresh)
      (answers (.error .notFound) 25)).any (fun s =>
        isOver s && (rendered s).any fun serveJson => (handlersOf serveJson).map Prod.fst == ["/"]) =
      true := by
    decide +kernel
  obtain ⟨s, hs, hcheck⟩ := Option.any_eq_true _ _ |>.1 hrun
  simp only [Bool.and_eq_true, List.any_eq_true, beq_iff_eq] at hcheck
  obtain ⟨hover, serveJson, hmem, hpaths⟩ := hcheck
  refine ⟨s, serveJson, hs, threads_of_isOver hover, hmem, hpaths, fun hserved => ?_⟩
  have hadmin := hserved _ (List.mem_cons_of_mem _ List.mem_cons_self) rfl
  rw [hpaths] at hadmin
  exact absurd (List.mem_singleton.1 hadmin) (by decide)

end Headmaster.Operator.Proxy
