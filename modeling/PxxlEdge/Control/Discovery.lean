import PxxlEdge.Common.Validate
import PxxlEdge.Lib.NestedMap

/-!
The routes of the containers.  A poll lists the containers of a provider; those
that carry the labels of the edge ask for routes, which are grouped by domain and
path and checked one by one.

The answer of the socket is taken as it comes out of the JSON decoder.
-/

namespace PxxlEdge

open RustStd

inductive ContainerProvider where
  | docker | podman
deriving DecidableEq, Repr

def ContainerProvider.label : ContainerProvider → Text
  | docker => "docker"
  | podman => "podman"

def ContainerProvider.routeSource : ContainerProvider → RouteSource
  | docker => .docker
  | podman => .podman

/-! ### Containers -/

structure DockerPort where
  privatePort : ℕ
  publicPort : Option ℕ := none
deriving DecidableEq, Repr

structure DockerContainerSummary where
  names : List Text := []
  labels : Map Text Text := ∅
  ports : List DockerPort := []

namespace DockerContainerSummary

def primaryName (container : DockerContainerSummary) : Text :=
  ((container.names.head?.map (Text.trimStartMatches '/')).filter fun name =>
    name ≠ []).getD "localhost"

def publishedPortFor (container : DockerContainerSummary) (privatePort : ℕ) : Option ℕ :=
  (container.ports.find? fun port =>
    port.privatePort == privatePort && port.publicPort.isSome).bind DockerPort.publicPort

end DockerContainerSummary

structure LabelRouteConfig where
  domains : List Text
  path : Text
  scheme : Text
  host : Option Text
  port : ℕ
deriving DecidableEq, Repr

def labelRouteConfig (labels : Map Text Text) : Option LabelRouteConfig := do
  let enabled := (labels.get "pxxl.enable").any fun value =>
    Text.eqIgnoreAsciiCase value "true"
  if ¬ enabled then none
  else
    let domainLabel ← (labels.get "pxxl.domains").or (labels.get "pxxl.domain")
    let domains := ((domainLabel.splitOn ',').map Text.trim).filter fun value => value ≠ []
    if domains = [] then none
    else
      let port ← (labels.get "pxxl.port").bind (parseUnsigned 10 16)
      return {
        domains
        path := (labels.get "pxxl.path").getD "/"
        scheme := (labels.get "pxxl.scheme").getD "http"
        host := labels.get "pxxl.host"
        port }

/-! ### Targets -/

structure DockerRouteTarget where
  domain : Text
  path : Text
  upstream : Upstream
deriving DecidableEq, Repr

def routeTargetsFromLabelConfig (labelConfig : LabelRouteConfig) (host : Text) (port : ℕ) :
    List DockerRouteTarget :=
  labelConfig.domains.map fun domain =>
    { domain := normalizeDomain domain
      path := normalizePathPrefix labelConfig.path
      upstream := Upstream.new (labelConfig.scheme ++ "://" ++ host ++ ":" ++
        Nat.toDigits 10 port) }

def routeTargetsFromContainer (container : DockerContainerSummary) (containerName : Text)
    (publishedPortHost : Option Text) : List DockerRouteTarget :=
  match labelRouteConfig container.labels with
  | none => []
  | some labelConfig =>
    match labelConfig.host, publishedPortHost with
    | some host, _ => routeTargetsFromLabelConfig labelConfig host labelConfig.port
    | none, some host =>
      routeTargetsFromLabelConfig labelConfig host
        ((container.publishedPortFor labelConfig.port).getD labelConfig.port)
    | none, none => routeTargetsFromLabelConfig labelConfig containerName labelConfig.port

abbrev Grouped := BTreeMap Text (BTreeMap Text (List Upstream))

def groupTarget (grouped : Grouped) (target : DockerRouteTarget) : Grouped :=
  if ¬ grouped.contains target.domain ∧ maxRoutesPerSource ≤ grouped.size then grouped
  else
    let paths := grouped[target.domain]?.getD ∅
    if ¬ paths.contains target.path ∧ maxPathsPerRoute ≤ paths.size then
      grouped.insert target.domain paths
    else
      let upstreams := paths[target.path]?.getD []
      if maxUpstreamsPerRoute ≤ upstreams.length ∨
          upstreams.any fun existing => existing.url == target.upstream.url then
        grouped.insert2 (target.domain, target.path) upstreams
      else grouped.insert2 (target.domain, target.path) (upstreams ++ [target.upstream])

def containerRouteId (provider : ContainerProvider) (domain : Text) : Text :=
  provider.label ++ "-" ++ domain

def groupRoute (now : Int) (provider : ContainerProvider) (domain : Text)
    (pathsByPrefix : BTreeMap Text (List Upstream)) : Route :=
  Route.new (containerRouteId provider domain) now domain
    (pathsByPrefix.toList.map fun e => PathRoute.new e.1 <| e.2.insertionSort fun left right =>
      Text.isLe left.url right.url = true)
    provider.routeSource

section Discover

variable (U : UrlParser) (vars : EnvVars)

def routesFromTargets (now : Int) (provider : ContainerProvider)
    (targets : List DockerRouteTarget) : List Route :=
  (targets.foldl groupTarget ∅).toList.filterMap fun e =>
    match (groupRoute now provider e.1 e.2).validateForDynamicControlPlane U vars with
    | .ok () => some (groupRoute now provider e.1 e.2)
    | .error _ => none

def discoverOnce (now : Int) (provider : ContainerProvider) (publishedPortHost : Option Text)
    (answer : Except Text (List DockerContainerSummary)) : Except Text (List Route) := do
  let containers ← answer
  return routesFromTargets U vars now provider <| containers.flatMap fun container =>
    routeTargetsFromContainer container container.primaryName publishedPortHost

variable {U vars} {now : Int} {provider : ContainerProvider} {route : Route}

lemma mem_routesFromTargets {targets : List DockerRouteTarget}
    (h : route ∈ routesFromTargets U vars now provider targets) :
    route.source = provider.routeSource ∧
      route.validateForDynamicControlPlane U vars = .ok () := by
  obtain ⟨e, -, he⟩ := List.mem_filterMap.mp h
  cases hvalid : (groupRoute now provider e.1 e.2).validateForDynamicControlPlane U vars with
  | error reason => simp [hvalid] at he
  | ok u =>
    simp only [hvalid, Option.some.injEq] at he
    subst he
    exact ⟨rfl, hvalid⟩

lemma mem_discoverOnce {publishedPortHost : Option Text}
    {answer : Except Text (List DockerContainerSummary)} {routes : List Route}
    (h : discoverOnce U vars now provider publishedPortHost answer = .ok routes)
    (hroute : route ∈ routes) :
    route.source = provider.routeSource ∧
      route.validateForDynamicControlPlane U vars = .ok () := by
  cases answer with
  | error error => cases h
  | ok containers =>
    obtain rfl := Except.ok.inj h
    exact mem_routesFromTargets hroute

end Discover

end PxxlEdge
