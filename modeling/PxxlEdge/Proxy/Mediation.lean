import PxxlEdge.Proxy.Handle

/-!
Complete mediation: nothing reaches an upstream or a mirror around the checks.
-/

namespace PxxlEdge

open RustStd Http

variable {G : Grammar} {W : World G} {conn : Connection} {req : Request G} {s : EdgeState}

/-- **Complete mediation.**  A message to an upstream or a mirror is only sent for a
request that all checks let through. -/
theorem forwarded_only_if_checked {ip : IpAddr} (hip : remoteIp W conn req = some ip)
    {o : Outgoing G} (ho : .forwarded o ∈ (handle W conn req s).log) :
    ∃ host path m, requestHost req = some host ∧ canonicalizePath req.uri.path = .ok path ∧
      find s.table host path = some m ∧
      s.security.Allows (W.unixMs .security) (W.clock .security) (normalizeDomain host) ip ∧
      RulesHold W s.policy req m.route.rules (targetContext W conn req host path) ∧
      (∀ config, m.middleware.basicAuth = some config → config.enabled = true →
        BasicAccepts W req config) ∧
      (∀ config, m.middleware.digestAuth = some config → config.enabled = true →
        DigestAccepts W req s.policy config path) ∧
      (∀ config, m.middleware.forwardAuth = some config → config.enabled = true →
        ForwardAuthAccepts W req config) := by
  obtain ⟨adm, upstream, hsent⟩ := handle_sends ho
  have hadm := hsent.admitted
  exact ⟨adm.host, adm.path, adm.matched, hadm.host, hadm.path, hadm.matched,
    hadm.security ip hip, hadm.rules, hadm.basicAuth, hadm.digestAuth, hadm.forwardAuth⟩

def guardedRules : DomainRules where
  ipAllowlist := [⟨.v4 ⟨9, 9, 9, 0⟩, 24⟩]
  rateLimit := some {}
  middlewares := Map.ofList
    [("auth", { basicAuth := some { users := Map.ofList [("u", "p")] } })]

def guardedRequest : Request .http1 :=
  sampleRequest "/admin" (by decide) [(Header.authorization, "Basic dTpw")]

/-- The request is forwarded, and so its password was checked. -/
theorem forwarded_only_if_checked_guarded :
    remoteIp sampleWorld sampleConnection guardedRequest = some (.v4 ⟨9, 9, 9, 9⟩) ∧
      ∃ o, .forwarded o ∈ (handle sampleWorld sampleConnection guardedRequest
        (sampleState guardedRules ["auth"])).log ∧
      ∃ m : RouteMatch, find (sampleState guardedRules ["auth"]).table "a.io" "/admin" = some m ∧
        RulesHold sampleWorld {} guardedRequest m.route.rules
          (targetContext sampleWorld sampleConnection guardedRequest "a.io" "/admin") ∧
        ∀ config, m.middleware.basicAuth = some config → config.enabled = true →
          BasicAccepts sampleWorld guardedRequest config := by
  have hip : remoteIp sampleWorld sampleConnection guardedRequest = some (.v4 ⟨9, 9, 9, 9⟩) := by
    decide
  have hsent : 0 < (sentMessages (handle sampleWorld sampleConnection guardedRequest
      (sampleState guardedRules ["auth"])).log).length := by decide +kernel
  obtain ⟨o, ho⟩ := List.exists_mem_of_length_pos hsent
  rw [mem_sentMessages] at ho
  obtain ⟨host, path, m, hhost, hpath, hm, -, hrules, hbasic, -, -⟩ :=
    forwarded_only_if_checked hip ho
  obtain rfl : "a.io".toList = host := by
    have hhost' : requestHost guardedRequest = some "a.io".toList := by decide
    exact Option.some.inj (hhost'.symm.trans hhost)
  obtain rfl : "/admin".toList = path := by
    have hpath' : canonicalizePath guardedRequest.uri.path = .ok "/admin".toList := by
      decide +kernel
    exact Except.ok.inj (hpath'.symm.trans hpath)
  exact ⟨hip, o, ho, m, hm, hrules, hbasic⟩

end PxxlEdge
