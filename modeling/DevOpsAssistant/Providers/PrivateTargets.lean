import DevOpsAssistant.Services.UrlValidation

/-!
# The targets of base URLs

* `NoPrivateTargets`: a deployment without the settings that permit private targets.
* `ResolvesTo`: the addresses that a host stands for.
* **`validateLlmBaseUrl_ok`**: a base URL that is accepted has no private target.
-/

namespace DevOps

open Net UrlValidation

/-- The settings permit neither private networks nor insecure connections. -/
structure UrlSettings.NoPrivateTargets (settings : UrlSettings) : Prop where
  allowPrivateLlmNetworks : settings.allowPrivateLlmNetworks = false
  allowInsecureLlmHttp : settings.allowInsecureLlmHttp = false

/-- A host stands for an address: for the one that it writes, or, if it writes none, for those that the
resolver returns. -/
inductive ResolvesTo (lib : UrlLibrary) (host : List Char) : IPAddress → Prop where
  | literal {address : IPAddress} : ipAddress host = some address → ResolvesTo lib host address
  | resolved {addrInfos : List (Option (List Char))} {ipStr : List Char} {address : IPAddress} :
    ipAddress host = none → lib.getaddrinfo host = .ok addrInfos → some ipStr ∈ addrInfos →
    ipAddress ipStr = some address → ResolvesTo lib host address

variable {settings : UrlSettings} {lib : UrlLibrary} {provider : String}

/-! ## The checks of a URL -/

/-- What an action and the next return. -/
theorem ok_of_bind {ε α β : Type} {x : Except ε α} {f : α → Except ε β} {b : β}
    (h : x >>= f = .ok b) : ∃ a, x = .ok a ∧ f a = .ok b := by
  cases x with
  | error e => cases h
  | ok a => exact ⟨a, rfl, h⟩

theorem checkParts_ok {parsed : SplitResult} (h : checkParts provider parsed = .ok ()) :
    (parsed.scheme = "http".toList ∨ parsed.scheme = "https".toList) ∧
      parsed.username.getD [] = [] ∧ parsed.password.getD [] = [] ∧ parsed.fragment = [] := by
  unfold checkParts at h
  by_cases hscheme : parsed.scheme ∉ ["http".toList, "https".toList]
  · rw [if_pos hscheme] at h
    cases h
  rw [if_neg hscheme] at h
  by_cases huser : (truthy parsed.username || truthy parsed.password) = true
  · rw [if_pos huser] at h
    cases h
  rw [if_neg huser] at h
  by_cases hnetloc : parsed.netloc = []
  · rw [if_pos hnetloc] at h
    cases h
  rw [if_neg hnetloc] at h
  by_cases hfragment : parsed.fragment ≠ []
  · rw [if_pos hfragment] at h
    cases h
  unfold truthy at huser
  simp only [Bool.or_eq_true, decide_eq_true_eq, not_or, not_not] at huser
  exact ⟨by simpa [or_iff_not_imp_left] using hscheme, huser.1, huser.2, not_not.mp hfragment⟩

theorem checkInsecureHttp_ok (hs : settings.NoPrivateTargets) {parsed : SplitResult} {isLocal : Bool}
    (h : checkInsecureHttp settings provider parsed isLocal = .ok ()) :
    parsed.scheme ≠ "http".toList := by
  intro hhttp
  unfold checkInsecureHttp at h
  rw [if_pos hhttp, if_pos (by simp [hs.allowInsecureLlmHttp])] at h
  cases h

/-! ## The addresses of a host -/

theorem rejectBlockedAddress_ok (hs : settings.NoPrivateTargets) {address : IPAddress}
    {isLocal : Bool} (h : rejectBlockedAddress settings provider address isLocal = .ok ()) :
    address.Unrestricted := by
  unfold rejectBlockedAddress at h
  rw [hs.allowPrivateLlmNetworks, hs.allowInsecureLlmHttp, Bool.or_false, Bool.and_false,
    if_neg Bool.false_ne_true] at h
  by_cases hblocked : (address.isPrivate || address.isLoopback || address.isLinkLocal ||
      address.isMulticast || address.isReserved || address.isUnspecified) = true
  · rw [if_pos hblocked] at h
    cases h
  · simp only [Bool.or_eq_true, not_or, Bool.not_eq_true] at hblocked
    obtain ⟨⟨⟨⟨⟨hprivate, hloopback⟩, hlink⟩, hmulticast⟩, hreserved⟩, hunspecified⟩ := hblocked
    exact ⟨hprivate, hloopback, hlink, hmulticast, hreserved, hunspecified⟩

/-- **The loop over the addresses** lets none pass that is in a special range, be it seen before. -/
theorem resolveAddresses_ok (hs : settings.NoPrivateTargets) {isLocal : Bool}
    {addrInfos : List (Option (List Char))} : ∀ {seen : List (List Char)},
    resolveAddresses settings provider isLocal seen addrInfos = .ok () →
    (∀ ipStr ∈ seen, ∀ address, ipAddress ipStr = some address → address.Unrestricted) →
    ∀ ipStr, some ipStr ∈ addrInfos → ∀ address, ipAddress ipStr = some address →
      address.Unrestricted := by
  induction addrInfos with
  | nil =>
    intro seen h hseen ipStr hmem
    exact absurd hmem List.not_mem_nil
  | cons info addrInfos ih =>
    intro seen h hseen ipStr hmem address haddress
    cases info with
    | none =>
      rw [resolveAddresses] at h
      exact ih h hseen ipStr (by simpa using hmem) address haddress
    | some first =>
      rw [resolveAddresses] at h
      by_cases hfirst : first ∈ seen
      · rw [if_pos hfirst] at h
        by_cases heq : ipStr = first
        · exact hseen ipStr (heq ▸ hfirst) address haddress
        · exact ih h hseen ipStr (by simpa [heq] using hmem) address haddress
      · rw [if_neg hfirst] at h
        -- what is seen from here on is checked in this turn, or no address
        have hturn : (∀ a, ipAddress first = some a → a.Unrestricted) ∧
            resolveAddresses settings provider isLocal (first :: seen) addrInfos = .ok () := by
          cases hip : ipAddress first with
          | none =>
            rw [hip] at h
            exact ⟨fun _ => nofun, h⟩
          | some resolved =>
            rw [hip] at h
            obtain ⟨_, hreject, h⟩ := ok_of_bind h
            refine ⟨fun a ha => ?_, h⟩
            cases ha
            exact rejectBlockedAddress_ok hs hreject
        have hseen' : ∀ ip ∈ first :: seen, ∀ a, ipAddress ip = some a → a.Unrestricted := by
          intro ip hip
          rw [List.mem_cons] at hip
          obtain rfl | hip := hip
          · exact hturn.1
          · exact hseen ip hip
        by_cases heq : ipStr = first
        · exact hseen' ipStr (by simp [heq]) address haddress
        · exact ih hturn.2 hseen' ipStr (by simpa [heq] using hmem) address haddress

/-- A host that is accepted is allowed, and stands for addresses outside the special ranges only. -/
theorem validateHost_ok (hs : settings.NoPrivateTargets) {host : List Char} {isLocal : Bool}
    (h : validateHost settings lib provider host isLocal = .ok ()) :
    (settings.allowedLlmHostList lib ≠ [] → host ∈ settings.allowedLlmHostList lib) ∧
      (ipAddress host = none → ∃ addrInfos, lib.getaddrinfo host = .ok addrInfos) ∧
      ∀ address, ResolvesTo lib host address → address.Unrestricted := by
  unfold validateHost at h
  dsimp only at h
  by_cases hallowed : settings.allowedLlmHostList lib ≠ [] ∧
      host ∉ settings.allowedLlmHostList lib
  · rw [if_pos hallowed] at h
    cases h
  rw [if_neg hallowed, hs.allowInsecureLlmHttp, Bool.and_false, if_neg Bool.false_ne_true,
    hs.allowPrivateLlmNetworks, if_neg Bool.false_ne_true] at h
  refine ⟨fun hne => not_not.mp fun hnot => hallowed ⟨hne, hnot⟩, ?_⟩
  cases hip : ipAddress host with
  | some literalIp =>
    rw [hip] at h
    refine ⟨nofun, fun address haddress => ?_⟩
    cases haddress with
    | literal hliteral =>
      rw [hip] at hliteral
      cases hliteral
      exact rejectBlockedAddress_ok hs h
    | resolved hnone =>
      rw [hip] at hnone
      cases hnone
  | none =>
    rw [hip] at h
    cases hinfos : lib.getaddrinfo host with
    | error e =>
      rw [hinfos] at h
      cases e with
      | gaierror => cases h
      | other e => cases h
    | ok addrInfos =>
      rw [hinfos] at h
      refine ⟨fun _ => ⟨addrInfos, rfl⟩, fun address haddress => ?_⟩
      cases haddress with
      | literal hliteral =>
        rw [hip] at hliteral
        cases hliteral
      | resolved _ hinfos' hmem haddress =>
        rw [hinfos] at hinfos'
        cases hinfos'
        exact resolveAddresses_ok hs h (fun _ hmem => absurd hmem List.not_mem_nil) _ hmem _ haddress

/-! ## The URL -/

variable (settings lib provider) in
/-- **A base URL that is accepted has no private target**: it uses `https`, names no user and no
password, has no fragment, and its host is allowed and stands for addresses outside the special ranges
only, if what the resolver returns are addresses. -/
theorem validateLlmBaseUrl_ok (hs : settings.NoPrivateTargets)
    (hresolver : ∀ host addrInfos, lib.getaddrinfo host = .ok addrInfos →
      ∀ ipStr, some ipStr ∈ addrInfos → (ipAddress ipStr).isSome)
    (baseUrl url : String) (h : validateLlmBaseUrl settings lib baseUrl provider = .ok url) :
    ∃ parsed, urlsplit lib.nfkc url.toList = some parsed ∧
      parsed.scheme = "https".toList ∧ parsed.username.getD [] = [] ∧
      parsed.password.getD [] = [] ∧ parsed.fragment = [] ∧
      (settings.allowedLlmHostList lib ≠ [] →
        hostOf lib parsed ∈ settings.allowedLlmHostList lib) ∧
      (∀ address, ipAddress (hostOf lib parsed) = some address → address.Unrestricted) ∧
      (ipAddress (hostOf lib parsed) = none →
        ∃ addrInfos, lib.getaddrinfo (hostOf lib parsed) = .ok addrInfos ∧
          ∀ ipStr, some ipStr ∈ addrInfos →
            ∃ address, ipAddress ipStr = some address ∧ address.Unrestricted) := by
  unfold validateLlmBaseUrl at h
  dsimp only at h
  by_cases hempty : cleanBaseUrl baseUrl = []
  · rw [if_pos hempty] at h
    cases h
  rw [if_neg hempty] at h
  cases hparsed : urlsplit lib.nfkc (cleanBaseUrl baseUrl) with
  | none =>
    rw [hparsed] at h
    cases h
  | some parsed =>
    rw [hparsed] at h
    obtain ⟨_, hparts, h⟩ := ok_of_bind h
    obtain ⟨_, hhttp, h⟩ := ok_of_bind h
    obtain ⟨_, hhost, h⟩ := ok_of_bind h
    cases h
    obtain ⟨hscheme, husername, hpassword, hfragment⟩ := checkParts_ok hparts
    obtain ⟨hallowed, hinfos, haddresses⟩ := validateHost_ok hs hhost
    refine ⟨parsed, by rw [String.toList_ofList, hparsed],
      hscheme.resolve_left (checkInsecureHttp_ok hs hhttp), husername, hpassword, hfragment,
      hallowed, fun address haddress => haddresses address (.literal haddress), fun hname => ?_⟩
    obtain ⟨addrInfos, hresolved⟩ := hinfos hname
    refine ⟨addrInfos, hresolved, fun ipStr hmem => ?_⟩
    obtain ⟨address, haddress⟩ := Option.isSome_iff_exists.mp (hresolver _ _ hresolved _ hmem)
    exact ⟨address, haddress, haddresses address (.resolved hname hresolved hmem haddress)⟩

/-- A resolver that knows one address, and no tables of Unicode. -/
def plainUrlLibrary : UrlLibrary where
  lower := List.map Char.toLower
  nfkc text := text
  getaddrinfo _ := .ok [some "93.184.216.34".toList]

theorem validateLlmBaseUrl_ok_example :
    ∃ parsed, urlsplit plainUrlLibrary.nfkc "https://api.example.com/v1".toList = some parsed ∧
      parsed.scheme = "https".toList ∧ parsed.fragment = [] :=
  have h := validateLlmBaseUrl_ok ⟨false, false, "API.example.com", "production"⟩ plainUrlLibrary
    "llama" ⟨rfl, rfl⟩
    (fun host addrInfos hinfos ipStr hmem => by
      cases hinfos
      rw [List.mem_singleton, Option.some_inj] at hmem
      subst hmem
      decide +kernel)
    " https://api.example.com/v1/" "https://api.example.com/v1" (by decide +kernel)
  h.imp fun _ h => ⟨h.1, h.2.1, h.2.2.2.2.1⟩

end DevOps
