import TaskGraph.Declaration.Settings

namespace TaskGraph

namespace Text

variable {p : Char → Bool} {cs : List Char} {c : Char}

theorem of_head?_dropWhile (h : (cs.dropWhile p).head? = some c) : p c = false := by
  have hfirst := List.head?_dropWhile_not p cs
  rwa [h] at hfirst

theorem of_getLast?_dropEndWhile (h : (dropEndWhile p cs).getLast? = some c) : p c = false := by
  rw [dropEndWhile, List.getLast?_reverse] at h
  exact of_head?_dropWhile h

theorem dropWhile_eq_self_of_head? (hhead : cs.head? = some c) (hc : p c = false) :
    cs.dropWhile p = cs := by
  obtain ⟨rest, rfl⟩ := List.head?_eq_some_iff.1 hhead
  exact List.dropWhile_cons_of_neg (ne_true_of_eq_false hc)

theorem dropEndWhile_eq_self (hlast : cs.getLast? = some c) (hc : p c = false) :
    dropEndWhile p cs = cs := by
  rw [← List.head?_reverse] at hlast
  rw [dropEndWhile, dropWhile_eq_self_of_head? hlast hc, List.reverse_reverse]

/-- Nothing is trimmed off a text that starts and ends with no blank. -/
theorem trimChars_eq_self {first last : Char} (hhead : cs.head? = some first)
    (hfirst : isBlankChar first = false) (hlast : cs.getLast? = some last)
    (hblank : isBlankChar last = false) : trimChars cs = cs := by
  rw [trimChars, dropWhile_eq_self_of_head? hhead hfirst, dropEndWhile_eq_self hlast hblank]

end Text

namespace BaseUrl

open Text

/-- Whether an address starts with a scheme. -/
def HasScheme (url : String) : Prop :=
  ∃ scheme ∈ ["http://", "https://"], ∃ rest, url = scheme ++ rest

/-- An address to which paths can be added. -/
structure Usable (url : String) : Prop where
  server : ∃ scheme ∈ ["http://", "https://"], ∃ server, server ≠ "" ∧ url = scheme ++ server
  no_slash : url.toList.getLast? ≠ some '/'
  trimmed : Text.trim url = url
  settled : baseUrl url = url

/-- What is left of an endpoint without the blanks around it and then the slashes at its end. -/
def stripped (endpoint : String) : String :=
  String.ofList (dropEndWhile (· == '/') (trimChars endpoint.toList))

variable {endpoint url : String} {c : Char}

theorem hasScheme_iff : HasScheme url ↔
    "http://".toList.isPrefixOf url.toList || "https://".toList.isPrefixOf url.toList := by
  rw [Bool.or_eq_true, List.isPrefixOf_iff_prefix, List.isPrefixOf_iff_prefix]
  have hstart : ∀ scheme : String,
      (∃ rest, url = scheme ++ rest) ↔ scheme.toList <+: url.toList := by
    intro scheme
    constructor
    · rintro ⟨rest, rfl⟩
      rw [String.toList_append]
      exact List.prefix_append _ _
    · rintro ⟨rest, hrest⟩
      refine ⟨String.ofList rest, String.toList_inj.1 ?_⟩
      rw [String.toList_append, String.toList_ofList, hrest]
  simp only [HasScheme, hstart]
  simp

theorem baseUrl_of_hasScheme (h : HasScheme (stripped endpoint)) :
    baseUrl endpoint = stripped endpoint := by
  rw [hasScheme_iff] at h
  unfold baseUrl
  exact if_pos h

theorem baseUrl_of_not_hasScheme (h : ¬HasScheme (stripped endpoint)) :
    baseUrl endpoint = "http://" ++ stripped endpoint := by
  rw [hasScheme_iff] at h
  unfold baseUrl
  exact if_neg h

/-- Every address starts with a scheme. -/
theorem hasScheme_baseUrl (endpoint : String) : HasScheme (baseUrl endpoint) := by
  by_cases h : HasScheme (stripped endpoint)
  · rwa [baseUrl_of_hasScheme h]
  · rw [baseUrl_of_not_hasScheme h]
    exact ⟨_, List.mem_cons_self, _, rfl⟩

theorem HasScheme.head?_eq (h : HasScheme url) : url.toList.head? = some 'h' := by
  obtain ⟨scheme, hscheme, rest, rfl⟩ := h
  rw [String.toList_append, List.head?_append]
  simp only [List.mem_cons, List.not_mem_nil, or_false] at hscheme
  rcases hscheme with rfl | rfl <;> rfl

theorem baseUrl_of_stripped_eq_empty (h : stripped endpoint = "") :
    baseUrl endpoint = "http://" := by
  have hscheme : ¬HasScheme (stripped endpoint) := by
    intro hscheme
    have hhead := hscheme.head?_eq
    rw [h] at hhead
    cases hhead
  rw [baseUrl_of_not_hasScheme hscheme, h]
  rfl

/-- An address ends as what is left of the endpoint, or in the slashes of its scheme. -/
theorem getLast?_baseUrl (endpoint : String) : (baseUrl endpoint).toList.getLast? =
    (stripped endpoint).toList.getLast?.or (some '/') := by
  by_cases h : HasScheme (stripped endpoint)
  · rw [baseUrl_of_hasScheme h]
    cases hlast : (stripped endpoint).toList.getLast? with
    | none =>
      have hhead := h.head?_eq
      rw [List.getLast?_eq_none_iff.1 hlast] at hhead
      cases hhead
    | some last => rfl
  · rw [baseUrl_of_not_hasScheme h, String.toList_append, List.getLast?_append]
    rfl

theorem slash_ne_of_stripped (h : (stripped endpoint).toList.getLast? = some c) : c ≠ '/' := by
  rw [stripped, String.toList_ofList] at h
  simpa using of_getLast?_dropEndWhile h

/-- An address that ends in neither a blank nor a slash is usable. -/
theorem HasScheme.usable (h : HasScheme url) (hlast : url.toList.getLast? = some c)
    (hblank : isBlankChar c = false) (hslash : c ≠ '/') : Usable url := by
  have htrim : trimChars url.toList = url.toList :=
    trimChars_eq_self h.head?_eq (by decide) hlast hblank
  have hstripped : stripped url = url := by
    rw [stripped, htrim, dropEndWhile_eq_self hlast (by simpa using hslash), String.ofList_toList]
  refine ⟨?_, ?_, ?_, ?_⟩
  · obtain ⟨scheme, hscheme, server, rfl⟩ := h
    refine ⟨scheme, hscheme, server, ?_, rfl⟩
    rintro rfl
    rw [String.append_empty] at hlast
    simp only [List.mem_cons, List.not_mem_nil, or_false] at hscheme
    rcases hscheme with rfl | rfl <;> exact hslash (Option.some.inj hlast).symm
  · rw [hlast]
    simpa using hslash
  · rw [Text.trim, htrim, String.ofList_toList]
  · rw [baseUrl_of_hasScheme (hstripped.symm ▸ h), hstripped]

/-- What ends in a blank is not trimmed. -/
theorem trim_ne (hlast : url.toList.getLast? = some c) (hblank : isBlankChar c) :
    Text.trim url ≠ url := by
  intro h
  have htrim := congrArg String.toList h
  rw [Text.trim, String.toList_ofList] at htrim
  rw [← htrim] at hlast
  rw [of_getLast?_dropEndWhile hlast] at hblank
  cases hblank

theorem stripped_eq_empty_iff :
    stripped endpoint = "" ↔ ∀ c ∈ (Text.trim endpoint).toList, c = '/' := by
  rw [stripped, String.ofList_eq_empty_iff, dropEndWhile, List.reverse_eq_nil_iff,
    dropWhile_eq_nil_iff, Text.trim, String.toList_ofList]
  simp only [List.mem_reverse, beq_iff_eq]

theorem isBlank_endpoint {s : Settings} (h : s.validate = .ok ()) :
    isBlank s.endpoint = false := by
  unfold Settings.validate at h
  split at h
  · next hmissing =>
    rw [List.isEmpty_iff, Settings.missing, List.map_eq_nil_iff, List.filter_eq_nil_iff] at hmissing
    exact eq_false_of_ne_true (hmissing ("endpoint", s.endpoint) List.mem_cons_self)
  · cases h

/-- Of accepted settings nothing is left of the endpoint when that is made up of slashes. -/
theorem stripped_eq_empty_iff_of_validate {s : Settings} (h : s.validate = .ok ()) :
    stripped s.endpoint = "" ↔
      ∃ n, Text.trim s.endpoint = String.ofList (List.replicate (n + 1) '/') := by
  rw [stripped_eq_empty_iff]
  constructor
  · intro hslashes
    have htrim : Text.trim s.endpoint ≠ "" := by
      rw [Ne, trim_eq_empty_iff, isBlank_endpoint h]
      exact Bool.false_ne_true
    obtain ⟨n, hn⟩ : ∃ n, (Text.trim s.endpoint).toList.length = n + 1 := by
      refine Nat.exists_eq_succ_of_ne_zero ?_
      simpa using htrim
    refine ⟨n, String.toList_inj.1 ?_⟩
    rw [String.toList_ofList]
    exact List.eq_replicate_iff.2 ⟨hn, hslashes⟩
  · rintro ⟨n, htrim⟩ c hc
    rw [htrim, String.toList_ofList] at hc
    exact List.eq_of_mem_replicate hc

/-- An endpoint gives a usable address exactly when something is left of it that does not end in a
    blank. Every address has a scheme, but that is all there is of it when nothing is left of the
    endpoint, as with accepted settings when the endpoint is made up of slashes; and a blank at the
    end of what is left is there at the end of the address. -/
theorem usable_iff (s : Settings) :
    (Usable (baseUrl s.endpoint) ↔
      ∃ c, (stripped s.endpoint).toList.getLast? = some c ∧ isBlankChar c = false) ∧
    HasScheme (baseUrl s.endpoint) ∧
    (s.validate = .ok () → (stripped s.endpoint = "" ↔
      ∃ n, Text.trim s.endpoint = String.ofList (List.replicate (n + 1) '/'))) ∧
    (stripped s.endpoint = "" → baseUrl s.endpoint = "http://") ∧
    ∀ c, (stripped s.endpoint).toList.getLast? = some c → isBlankChar c →
      Text.trim (baseUrl s.endpoint) ≠ baseUrl s.endpoint := by
  have hlast := getLast?_baseUrl s.endpoint
  have hscheme := hasScheme_baseUrl s.endpoint
  refine ⟨⟨?_, ?_⟩, hscheme, stripped_eq_empty_iff_of_validate, baseUrl_of_stripped_eq_empty, ?_⟩
  · intro h
    cases hstripped : (stripped s.endpoint).toList.getLast? with
    | none =>
      rw [hstripped] at hlast
      exact absurd hlast h.no_slash
    | some c =>
      rw [hstripped, Option.some_or] at hlast
      refine ⟨c, rfl, ?_⟩
      cases hblank : isBlankChar c with
      | false => rfl
      | true => exact absurd h.trimmed (trim_ne hlast hblank)
  · rintro ⟨c, hc, hblank⟩
    rw [hc, Option.some_or] at hlast
    exact hscheme.usable hlast hblank (slash_ne_of_stripped hc)
  · intro c hc hblank
    rw [hc, Option.some_or] at hlast
    exact trim_ne hlast hblank

/-- Settings are accepted with an endpoint that has a blank before its slash, and with one that is
    no more than a slash. -/
theorem unusable_accepted :
    let settings (endpoint : String) : Settings :=
      ⟨endpoint, ⟨"p", "d", "v"⟩, ⟨"i", [], "/in", "/out", "t"⟩⟩
    ((settings "x /").validate = .ok () ∧ baseUrl "x /" = "http://x " ∧ ¬Usable "http://x ") ∧
      (settings "/").validate = .ok () ∧ baseUrl "/" = "http://" ∧ ¬Usable "http://" := by
  have hblank : ¬Usable "http://x " := fun h => absurd h.trimmed (by decide)
  have hslash : ¬Usable "http://" := fun h => absurd h.no_slash (by decide)
  exact ⟨⟨rfl, by decide, hblank⟩, rfl, by decide, hslash⟩

end BaseUrl

end TaskGraph
