import PxxlEdge.Proxy.Observation
import PxxlEdge.Common.Validate

/-!
Spellings of a host.  Clients write a host name in any letter case, with dots behind it,
a port and white space around it; all of these are one domain for the edge.
-/

namespace PxxlEdge

open RustStd Http

def SpellsHost (domain host : Text) : Prop :=
  ∃ before name dots port after, host = before ++ (name ++ dots ++ port ++ after) ∧
    (∀ c ∈ before, Text.isWhitespace c = true) ∧ (∀ c ∈ after, Text.isWhitespace c = true) ∧
    name.toAsciiLowercase = domain ∧ (∀ c ∈ dots, c = '.') ∧
    (port = [] ∨ ∃ p, port = ':' :: p)

section Spelling

variable {domain name dots : Text}

lemma ValidDomain.name_chars (h : ValidDomain domain) (hname : name.toAsciiLowercase = domain)
    {c : Char} (hc : c ∈ name) : Text.isWhitespace c = false ∧ c ≠ '[' ∧ c ≠ ':' := by
  have hlower : c.toLower ∈ domain := hname ▸ List.mem_map_of_mem hc
  have hchar := h.isLabelChar hlower
  refine ⟨?_, ?_, ?_⟩
  · rw [← Text.isWhitespace_toLower]
    rcases hchar with hdot | hlabel
    · rw [hdot]
      decide
    · rw [IsLabelChar] at hlabel
      simp only [Text.isWhitespace, Bool.or_eq_false_iff, Bool.and_eq_false_iff,
        decide_eq_false_iff_not, beq_eq_false_iff_ne]
      omega
  · rintro rfl
    exact absurd hchar (by decide)
  · rintro rfl
    exact absurd hchar (by decide)

lemma ValidDomain.name_trimmed (h : ValidDomain domain) (hname : name.toAsciiLowercase = domain) :
    name.trimEndMatches '.' = name := by
  have htrimmed : domain.trimEndMatches '.' = domain := by
    conv_lhs => rw [← h.normal]
    conv_rhs => rw [← h.normal]
    rw [normalizeDomain, Text.trimEndMatches_toAsciiLowercase (by decide) (by decide),
      Text.trimEndMatches, Text.trimEndMatches, List.rdropWhile_idempotent]
  -- lower case keeps the length, and a part of the name at its start as long as it is all of it
  have hlower : (name.trimEndMatches '.').toAsciiLowercase = name.toAsciiLowercase := by
    rw [← Text.trimEndMatches_toAsciiLowercase (by decide) (by decide), hname, htrimmed]
  refine (List.rdropWhile_prefix _ name).eq_of_length ?_
  simpa [Text.toAsciiLowercase, Text.trimEndMatches] using congrArg List.length hlower

end Spelling

lemma normalizeDomain_of_spellsHost {domain host : Text} (h : ValidDomain domain)
    (hhost : SpellsHost domain host) : normalizeDomain host = domain := by
  obtain ⟨before, name, dots, port, after, rfl, hbefore, hafter, hname, hdots, hport⟩ := hhost
  have hne : name ≠ [] := by
    rintro rfl
    exact h.ne_nil hname.symm
  have hhost : hostWithoutPort (before ++ (name ++ dots ++ port ++ after)) =
      some (name ++ dots) := by
    refine hostWithoutPort_eq (by simp [hne]) hbefore hafter (fun c hc => ?_) hport
    rcases List.mem_append.mp hc with hc | hc
    · exact h.name_chars hname hc
    · rw [hdots c hc]
      decide
  rw [normalizeDomain, hhost, Option.getD_some, Text.trimEndMatches,
    Text.rdropWhile_append_of_all (by simpa using hdots), ← Text.trimEndMatches,
    h.name_trimmed hname, hname]

/-- **Spellings of a host.**  Every spelling of a valid domain finds the same routes as the domain,
and the request is checked, limited and recorded under the domain itself. -/
theorem spellings_agree {domain host : Text} (h : ValidDomain domain)
    (hhost : SpellsHost domain host) :
    normalizeDomain host = domain ∧
      (∀ table path, find table host path = find table domain path) ∧
      ∀ {G : Grammar} (W : World G) (conn : Connection) (req : Request G),
        (∀ path, targetContext W conn req host path = targetContext W conn req domain path ∧
          (targetContext W conn req host path).domain = domain) ∧
        (requestHost req = some host → (∃ path, canonicalizePath req.uri.path = .ok path) →
          observedDomain req = domain) := by
  have hnormal := normalizeDomain_of_spellsHost h hhost
  refine ⟨hnormal, fun table path => ?_, fun {G} W conn req => ⟨fun path => ⟨?_, hnormal⟩, ?_⟩⟩
  · rw [find, find, hnormal, h.normal]
  · rw [targetContext, targetContext, hnormal, h.normal]
  · rintro hreq ⟨path, hpath⟩
    rw [observedDomain_eq hpath hreq, hnormal]

theorem spellings_agree_example :
    ValidDomain "a.io" ∧ SpellsHost "a.io" " A.Io..:80 " ∧
      ∀ table path, find table " A.Io..:80 " path = find table "a.io" path := by
  have hvalid : ValidDomain "a.io" := ⟨by decide, by decide⟩
  have hspace : Text.isWhitespace ' ' = true := rfl
  have hspells : SpellsHost "a.io" " A.Io..:80 " :=
    ⟨[' '], ['A', '.', 'I', 'o'], ['.', '.'], [':', '8', '0'], [' '], rfl, by simp [hspace],
      by simp [hspace], by decide, by simp, .inr ⟨_, rfl⟩⟩
  exact ⟨hvalid, hspells, (spellings_agree hvalid hspells).2.1⟩

end PxxlEdge
