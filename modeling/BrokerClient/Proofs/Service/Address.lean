import BrokerClient.Service.Request
import Mathlib.Data.List.DropRight

/-!
# Spellings of an address

An address can be spelled with a scheme, from the service path on, relative to it, or relative to
it behind one slash. The rules that tell these apart are tried in order, and they overlap in one
place only: behind a slash, a relative address that repeats the service path without its first
slash is taken for one from the service path on. Under an absolute base URL what was resolved is
absolute, so that to resolve it again changes nothing.
-/
namespace BrokerClient.Service

/-- A text starts with a part. -/
def StartsWith (part text : String) : Prop := ∃ rest, text = part ++ rest

/-- An address starts with a scheme, a letter and what may follow it, and then `://`. -/
def IsAbsolute (address : String) : Prop :=
  ∃ (first : Char) (more : List Char) (rest : String), first.isAlpha = true ∧
    (∀ c ∈ more, isSchemeChar c = true) ∧ address = String.ofList (first :: more) ++ "://" ++ rest

/-- A text of slashes alone. -/
def slashes (n : Nat) : String := String.ofList (List.replicate n '/')

variable {base address path : String}

theorem startsWith_iff {part text : String} :
    StartsWith part text ↔ part.toList.isPrefixOf text.toList = true := by
  rw [List.isPrefixOf_iff_prefix]
  constructor
  · rintro ⟨rest, rfl⟩
    exact ⟨rest.toList, String.toList_append.symm⟩
  · rintro ⟨rest, hrest⟩
    refine ⟨String.ofList rest, String.toList_inj.mp ?_⟩
    rw [String.toList_append, String.toList_ofList, hrest]

/-! ## Addresses with a scheme -/

/-- None of the characters of a scheme is a colon, so a scheme ends at the first one. -/
theorem hasScheme_iff : hasScheme address = true ↔ IsAbsolute address := by
  constructor
  · intro h
    unfold hasScheme at h
    split at h
    · cases h
    · rename_i first rest htext
      obtain ⟨hfirst, hprefix⟩ := Bool.and_eq_true_iff.mp h
      obtain ⟨tail, htail⟩ := List.isPrefixOf_iff_prefix.mp hprefix
      refine ⟨first, rest.takeWhile isSchemeChar, String.ofList tail, hfirst,
        fun c => List.mem_takeWhile_imp, String.toList_inj.mp ?_⟩
      calc address.toList = first :: rest := htext
        _ = first :: (rest.takeWhile isSchemeChar ++ rest.dropWhile isSchemeChar) := by
          rw [List.takeWhile_append_dropWhile]
        _ = _ := by simp [← htail]
  · rintro ⟨first, more, rest, hfirst, hmore, rfl⟩
    have hdrop : (more ++ ':' :: '/' :: '/' :: rest.toList).dropWhile isSchemeChar =
        ':' :: '/' :: '/' :: rest.toList := by
      rw [List.dropWhile_append_of_pos hmore]
      rfl
    simp [hasScheme, hfirst, hdrop]

theorem IsAbsolute.append (h : IsAbsolute base) (path : String) : IsAbsolute (base ++ path) := by
  obtain ⟨first, more, rest, hfirst, hmore, rfl⟩ := h
  exact ⟨first, more, rest ++ path, hfirst, hmore, by simp only [String.append_assoc]⟩

theorem IsAbsolute.ne_empty (h : IsAbsolute address) : address ≠ "" := by
  rintro rfl
  exact absurd (hasScheme_iff.mpr h) (by decide)

/-- A scheme starts with a letter. -/
theorem not_isAbsolute_slash (path : String) : ¬IsAbsolute ("/" ++ path) := by
  have hslash : Char.isAlpha '/' = false := by decide
  rw [← hasScheme_iff]
  simp [hasScheme, hslash]

/-! ## The base URL -/

theorem trimSlashes_append_slashes (url : String) (n : Nat) :
    trimSlashes (url ++ slashes n) = trimSlashes url := by
  induction n with
  | zero => simp [slashes]
  | succ n ih =>
    rw [← ih, trimSlashes, trimSlashes, slashes, slashes, List.replicate_succ',
      String.toList_append, String.toList_append, String.toList_ofList, String.toList_ofList,
      ← List.append_assoc, Text.dropEnd_concat _ _ rfl]

theorem exists_slashes (url : String) : ∃ n, url = trimSlashes url ++ slashes n := by
  let taken := url.toList.rtakeWhile (· == '/')
  have htaken : taken = List.replicate taken.length '/' :=
    List.eq_replicate_of_mem fun c hc => by simpa using List.mem_rtakeWhile_imp hc
  refine ⟨taken.length, String.toList_inj.mp ?_⟩
  calc url.toList = url.toList.rdropWhile (· == '/') ++ taken :=
        (List.rdropWhile_append_rtakeWhile ..).symm
    _ = _ := by
      rw [String.toList_append, slashes, String.toList_ofList, ← htaken, trimSlashes,
        String.toList_ofList]
      rfl

theorem trimSlashes_ne_append_slash (url front : String) : trimSlashes url ≠ front ++ "/" := by
  intro h
  have hlist : url.toList.rdropWhile (· == '/') = front.toList ++ ['/'] := by
    have := congrArg String.toList h
    rwa [trimSlashes, String.toList_ofList, String.toList_append] at this
  have hne : url.toList.rdropWhile (· == '/') ≠ [] := by simp [hlist]
  exact List.rdropWhile_last_not _ _ hne (by simp [hlist])

/-! ## Each spelling -/

theorem resolve_empty (base : String) : resolve base "" = .error (.invalidRequest .emptyUrl) := rfl

theorem resolve_of_isAbsolute (h : IsAbsolute address) : resolve base address = .ok address := by
  rw [resolve, if_neg h.ne_empty, if_pos (hasScheme_iff.mpr h)]

/-- What an address without a scheme comes to depends on the service path in front of it. -/
theorem resolve_of_not_isAbsolute (hne : address ≠ "") (h : ¬IsAbsolute address) :
    resolve base address = .ok (base ++
      if servicePath.toList.isPrefixOf address.toList then address
      else servicePath ++ dropSlash address) := by
  rw [resolve, if_neg hne, if_neg (hasScheme_iff.not.mpr h)]
  split <;> simp only [String.append_assoc]

theorem servicePath_append (path : String) :
    servicePath ++ path = "/" ++ ("broker/rest/" ++ path) := by
  rw [← String.append_assoc]
  rfl

theorem resolve_rooted (base path : String) :
    resolve base (servicePath ++ path) = .ok (base ++ (servicePath ++ path)) := by
  have h : ¬IsAbsolute (servicePath ++ path) := by
    rw [servicePath_append]
    exact not_isAbsolute_slash _
  rw [resolve_of_not_isAbsolute (by simp [servicePath]) h, if_pos (startsWith_iff.mp ⟨path, rfl⟩)]

/-- One slash in front of a relative address does not count. -/
theorem resolve_slash (h : ¬StartsWith "broker/rest/" path) :
    resolve base ("/" ++ path) = .ok (base ++ (servicePath ++ path)) := by
  have hroot : ¬servicePath.toList.isPrefixOf ("/" ++ path).toList = true := by
    rw [startsWith_iff] at h
    simpa [servicePath] using h
  have hdrop : dropSlash ("/" ++ path) = path := by simp [dropSlash]
  rw [resolve_of_not_isAbsolute (by simp) (not_isAbsolute_slash path), if_neg hroot, hdrop]

theorem resolve_relative (hne : path ≠ "") (hslash : ¬StartsWith "/" path)
    (h : ¬IsAbsolute path) : resolve base path = .ok (base ++ (servicePath ++ path)) := by
  have hroot : ¬servicePath.toList.isPrefixOf path.toList = true := by
    intro hroot
    obtain ⟨rest, rfl⟩ := startsWith_iff.mpr hroot
    exact hslash ⟨_, servicePath_append rest⟩
  have hdrop : dropSlash path = path := by
    unfold dropSlash
    split
    · rename_i rest htext
      exact absurd (startsWith_iff.mpr (by simp [htext])) hslash
    · rfl
  rw [resolve_of_not_isAbsolute hne h, if_neg hroot, hdrop]

theorem resolve_slash_root (base rest : String) :
    resolve base ("/" ++ ("broker/rest/" ++ rest)) = .ok (base ++ (servicePath ++ rest)) := by
  rw [← servicePath_append, resolve_rooted]

theorem resolve_eq_error {e : ClientError} :
    resolve base address = .error e ↔ address = "" ∧ e = .invalidRequest .emptyUrl := by
  by_cases hne : address = ""
  · subst hne
    rw [resolve_empty]
    simp [eq_comm]
  · by_cases habsolute : IsAbsolute address
    · simp [resolve_of_isAbsolute habsolute, hne]
    · simp [resolve_of_not_isAbsolute hne habsolute, hne]

/-- An address that is resolved under an absolute base URL is absolute. -/
theorem exists_resolve (h : IsAbsolute base) (hne : address ≠ "") :
    ∃ full, resolve base address = .ok full ∧ IsAbsolute full := by
  by_cases habsolute : IsAbsolute address
  · exact ⟨address, resolve_of_isAbsolute habsolute, habsolute⟩
  · exact ⟨_, resolve_of_not_isAbsolute hne habsolute, h.append _⟩

/-! ## All spellings -/

/-- How a service under a URL resolves addresses. -/
structure ResolvesUnder (url clientId : String) (depth : Nat) : Prop where
  /-- The base URL is the URL without the slashes at its end. -/
  trimmed : (∃ n, url = (ofUrl url clientId depth).baseUrl ++ slashes n) ∧
    ∀ front, (ofUrl url clientId depth).baseUrl ≠ front ++ "/"
  /-- More slashes at the end of the URL change nothing. -/
  unchanged : ∀ n address,
    (ofUrl (url ++ slashes n) clientId depth).resolveUrl address =
      (ofUrl url clientId depth).resolveUrl address
  /-- A relative address can be spelled from the service path on. -/
  relative : ∀ path, path ≠ "" → ¬StartsWith "/" path → ¬IsAbsolute path →
    (ofUrl url clientId depth).resolveUrl path =
        .ok ((ofUrl url clientId depth).baseUrl ++ "/broker/rest/" ++ path) ∧
      (ofUrl url clientId depth).resolveUrl ("/broker/rest/" ++ path) =
        .ok ((ofUrl url clientId depth).baseUrl ++ "/broker/rest/" ++ path)
  /-- It can be spelled behind a slash, but for the one exception. -/
  slashed : ∀ path, path ≠ "" → ¬StartsWith "/" path → ¬IsAbsolute path →
    ((ofUrl url clientId depth).resolveUrl ("/" ++ path) =
        (ofUrl url clientId depth).resolveUrl path ↔
      ¬StartsWith "broker/rest/" path)
  /-- An address with a scheme is used as it is. -/
  absolute : ∀ address, IsAbsolute address →
    (ofUrl url clientId depth).resolveUrl address = .ok address
  /-- Under an absolute base URL, what was resolved is absolute and resolved for good. -/
  settled : IsAbsolute (ofUrl url clientId depth).baseUrl → ∀ address, address ≠ "" →
    ∃ full, (ofUrl url clientId depth).resolveUrl address = .ok full ∧ IsAbsolute full ∧
      (ofUrl url clientId depth).resolveUrl full = .ok full
  /-- Only the empty address is refused. -/
  refused : ∀ address e, (ofUrl url clientId depth).resolveUrl address = .error e ↔
    address = "" ∧ e = .invalidRequest .emptyUrl

/-- The spellings of an address agree under every URL, but for the one exception. -/
theorem spellings_agree (url clientId : String) (depth : Nat) :
    ResolvesUnder url clientId depth where
  trimmed := ⟨exists_slashes url, trimSlashes_ne_append_slash url⟩
  unchanged n address := by rw [ofUrl, ofUrl, trimSlashes_append_slashes]
  relative path hne hslash habsolute := by
    rw [String.append_assoc]
    exact ⟨resolve_relative hne hslash habsolute, resolve_rooted _ path⟩
  slashed path hne hslash habsolute := by
    rw [resolveUrl, resolveUrl, resolve_relative hne hslash habsolute]
    constructor
    · rintro h ⟨rest, rfl⟩
      rw [resolve_slash_root] at h
      -- The longer one has the service path twice.
      have hlength := congrArg String.length (Except.ok.inj h)
      simp only [String.length_append, show "broker/rest/".length = 12 from rfl] at hlength
      omega
    · exact resolve_slash
  absolute address h := resolve_of_isAbsolute h
  settled h address hne := by
    obtain ⟨full, hfull, habsolute⟩ := exists_resolve h hne
    exact ⟨full, hfull, habsolute, resolve_of_isAbsolute habsolute⟩
  refused _ _ := resolve_eq_error

/-- The exception: with a slash the service path counts once, without one it counts twice. -/
example :
    (ofUrl "https://b//" "c" 990).resolveUrl "/broker/rest/x" = .ok "https://b/broker/rest/x" ∧
      (ofUrl "https://b//" "c" 990).resolveUrl "broker/rest/x" =
        .ok "https://b/broker/rest/broker/rest/x" :=
  ⟨rfl, rfl⟩

end BrokerClient.Service
