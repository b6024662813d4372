import PxxlEdge.Proxy.PathsAgree

/-!
Websocket handshakes on their way to an upstream.

The headers of a handshake are hop-by-hop headers: both forwarding paths remove them, and only
the streaming path writes them again.  Which path a request takes is decided by the features of
its route, whether or not it is a handshake.
-/

namespace PxxlEdge

open RustStd Http Handlers

section Upgrade

variable {G : Grammar} {W : World G} {conn : Connection} {req : Request G} {s : EdgeState}
  {adm : Admission} {o : Outgoing G}

def upgradeHeaders : List (Text × HeaderValue) :=
  [(Header.connection, .fromStatic "Upgrade"), (Header.upgrade, .fromStatic "websocket")]

def CarriesUpgrade (o : Outgoing G) : Prop := ∀ e ∈ upgradeHeaders, o.headers.getAll e.1 = [e.2]

def RuledUpgrade (req : Request G) (adm : Admission) : Prop :=
  isWebsocketUpgrade G (applyRequestRules G req.headers adm.matched.route.rules) = true

instance : Decidable (RuledUpgrade req adm) := inferInstanceAs (Decidable (_ = true))

def CertKeepsUpgrade (cert : Option (Text × HeaderValue)) : Prop :=
  ∀ e ∈ upgradeHeaders, ∀ v, valueFor e.1 cert = some v → v = e.2

lemma forall_mem_upgradeHeaders {p : Text × HeaderValue → Prop} :
    (∀ e ∈ upgradeHeaders, p e) ↔ p (Header.connection, .fromStatic "Upgrade") ∧
      p (Header.upgrade, .fromStatic "websocket") := by
  simp [upgradeHeaders]

lemma isWebsocketUpgrade_congr {h h' : HeaderMap}
    (hnames : ∀ e ∈ upgradeHeaders, h.getAll e.1 = h'.getAll e.1) :
    isWebsocketUpgrade G h = isWebsocketUpgrade G h' := by
  obtain ⟨hconnection, hupgrade⟩ := forall_mem_upgradeHeaders.mp hnames
  rw [isWebsocketUpgrade, isWebsocketUpgrade, headerText, headerText, headerText, headerText,
    HeaderMap.get, HeaderMap.get, HeaderMap.get, HeaderMap.get, hconnection, hupgrade]

lemma isWebsocketUpgrade_preparedHeaders :
    isWebsocketUpgrade G (preparedHeaders W req adm none) = true ↔ RuledUpgrade req adm := by
  have hplain : ∀ e ∈ upgradeHeaders, e.1 ∉
      [Header.authorization, Header.contentType, Header.requestId, Header.traceparent] :=
    forall_mem_upgradeHeaders.mpr ⟨by decide, by decide⟩
  rw [RuledUpgrade, isWebsocketUpgrade_congr fun e he => ?_]
  rw [getAll_preparedHeaders, preparedValues_plain none (hplain e he), getAll_applyRequestRules]

lemma getAll_preserveWebsocketUpgradeHeaders (h : HeaderMap) :
    ∀ e ∈ upgradeHeaders, (preserveWebsocketUpgradeHeaders h).getAll e.1 = [e.2] := by
  rw [forall_mem_upgradeHeaders, preserveWebsocketUpgradeHeaders]
  constructor
  · rw [HeaderMap.getAll_insert, if_neg (by decide), HeaderMap.getAll_insert, if_pos rfl]
  · rw [HeaderMap.getAll_insert, if_pos rfl]

lemma getAll_passed_upgrade
    (hbuffered : (forwardedBody adm.matched req.body).isSome = buffers adm.matched)
    {e : Text × HeaderValue} (he : e ∈ upgradeHeaders) :
    (passedHeaders W req adm (forwardedBody adm.matched req.body)).getAll e.1 =
      if buffers adm.matched = false ∧ RuledUpgrade req adm then [e.2] else [] := by
  have hremoved : ∀ e ∈ upgradeHeaders, e.1 ∈ strippedRequestHeaders :=
    forall_mem_upgradeHeaders.mpr ⟨by decide, by decide⟩
  have hkept : ∀ names values, keptValues names e.1 values = [] :=
    fun names values => if_pos (.inl (hremoved e he))
  cases hbody : forwardedBody adm.matched req.body with
  | none =>
    rw [hbody] at hbuffered
    by_cases hup : RuledUpgrade req adm
    · rw [if_pos ⟨hbuffered.symm, hup⟩, passedHeaders, streamedHeaders,
        if_pos (isWebsocketUpgrade_preparedHeaders.mpr hup),
        getAll_preserveWebsocketUpgradeHeaders _ e he]
    · rw [if_neg fun h => hup h.2, passedHeaders, getAll_streamedHeaders_of_not_upgrade, hkept]
      exact fun h => hup (isWebsocketUpgrade_preparedHeaders.mp h)
  | some body =>
    have hlength : ∀ e ∈ upgradeHeaders, e.1 ≠ Header.contentLength :=
      forall_mem_upgradeHeaders.mpr ⟨by decide, by decide⟩
    rw [hbody] at hbuffered
    rw [if_neg (by simp [← hbuffered]), passedHeaders, getAll_bufferedHeaders,
      if_neg (hlength e he), hkept]

lemma written_upgrade {destination : Destination} {upstream : Upstream}
    {e : Text × HeaderValue} (he : e ∈ upgradeHeaders) :
    (sendContext W conn req adm destination upstream).written W e.1 =
      valueFor e.1 (sentCert G conn adm.matched destination) := by
  have hother : ∀ e ∈ upgradeHeaders, e.1 ≠ Header.xForwardedFor ∧
      e.1 ≠ Header.xForwardedProto ∧ e.1 ≠ Header.xForwardedHost ∧ e.1 ≠ Header.host :=
    forall_mem_upgradeHeaders.mpr ⟨by decide, by decide⟩
  obtain ⟨hfor, hproto, hfhost, hhost⟩ := hother e he
  rw [ForwardContext.written, certHeader_sendContext, if_neg hfor, if_neg hproto, if_neg hfhost,
    if_neg (fun h => hhost h.1), Option.or_none]

lemma not_forall_valueFor (cert : Option (Text × HeaderValue)) :
    ¬ ∀ e ∈ upgradeHeaders, (valueFor e.1 cert).elim [] (fun v => [v]) = [e.2] := by
  intro h
  have hcert : ∀ e ∈ upgradeHeaders, cert = some e := by
    intro e he
    refine valueFor_eq_some.mp ?_
    have hvalue := h e he
    cases hv : valueFor e.1 cert with
    | none =>
      rw [hv] at hvalue
      cases hvalue
    | some v =>
      rw [hv] at hvalue
      exact congrArg some (List.singleton_inj.mp hvalue)
  obtain ⟨hconnection, hupgrade⟩ := forall_mem_upgradeHeaders.mp hcert
  have hsame := congrArg Prod.fst (Option.some.inj (hconnection.symm.trans hupgrade))
  exact absurd hsame (by decide)

/-- **Which messages carry a handshake.** -/
theorem upgrade_carried_iff (hr : Routed s req adm)
    (ho : .forwarded o ∈ (handle W conn req s).log) :
    CarriesUpgrade o ↔ buffers adm.matched = false ∧ RuledUpgrade req adm ∧
      CertKeepsUpgrade (sentCert G conn adm.matched o.destination) := by
  obtain ⟨upstream, hsent⟩ := handle_sends_routed hr ho
  have hvalues : ∀ e ∈ upgradeHeaders, o.headers.getAll e.1 =
      (valueFor e.1 (sentCert G conn adm.matched o.destination)).elim
        (if buffers adm.matched = false ∧ RuledUpgrade req adm then [e.2] else [])
        fun v => [v] := by
    intro e he
    rw [hsent.relayed.getAll, written_upgrade he, getAll_passed_upgrade hsent.buffered he]
  rw [CarriesUpgrade, forall₂_congr fun e he => by rw [hvalues e he], ← and_assoc]
  by_cases hstreamed : buffers adm.matched = false ∧ RuledUpgrade req adm
  · rw [and_iff_right hstreamed, CertKeepsUpgrade]
    refine forall₂_congr fun e he => ?_
    rw [if_pos hstreamed]
    cases valueFor e.1 (sentCert G conn adm.matched o.destination) with
    | none => simp
    | some v => simp
  · refine iff_of_false ?_ fun h => hstreamed h.1
    rw [forall₂_congr fun e he => by rw [if_neg hstreamed]]
    exact not_forall_valueFor _

end Upgrade

/-! ### A handshake -/

def handshake : Request .http1 :=
  rootRequest [("connection", "keep-alive, Upgrade"),
    ("upgrade", "websocket")]

/-- A route without further features passes it on. -/
theorem upgrade_carried_plain :
    ∃ o, .forwarded o ∈ (handle sampleWorld sampleConnection handshake (sampleState {} [])).log ∧
      CarriesUpgrade o := by
  obtain ⟨o, ho, hd⟩ := exists_sent (d := .upstream)
    (l := (handle sampleWorld sampleConnection handshake (sampleState {} [])).log)
    (by decide +kernel)
  have hcert : sentCert .http1 sampleConnection (sampleMatch {} []) o.destination = none := by
    rw [hd]
    decide
  refine ⟨o, ho, (upgrade_carried_iff (routed_sample {} [] _) ho).mpr
    ⟨by decide, by decide, fun e _ v hv => ?_⟩⟩
  have hsome := valueFor_eq_some.mp hv
  rw [hcert] at hsome
  cases hsome

def featureRules : List DomainRules :=
  [{ compression := { enabled := true } },
    { retry := { enabled := true } },
    { requestBuffering := { enabled := true } },
    { responseBuffering := { enabled := true } },
    { contentTypeAutodetect := { enabled := true } },
    { trafficMirroring :=
        { enabled := true, upstreams := [{ url := "http://mirror:80" }], percent := 100 } },
    { maxBodyBytes := some 1 }]

/-- With any of them, the same handshake reaches its upstream as an ordinary request. -/
theorem upgrade_lost_with_feature :
    isWebsocketUpgrade .http1 handshake.headers = true ∧
      ∀ rules ∈ featureRules, rules.allowWebsocket = true ∧
        (((sentMessages (handle sampleWorld sampleConnection handshake
            (sampleState rules [])).log).filter fun o => o.destination = .upstream).map fun o =>
              (o.headers.getAll Header.connection, o.headers.getAll Header.upgrade)) =
          [([], [])] := by
  decide +kernel

end PxxlEdge
