import EnboxDwn.PrivateHostname

/-! Fetching from the public network only: the target and the target of every redirect is checked
before it is requested. -/
namespace EnboxDwn
namespace PublicUrl
open Ip

/-- The URLs of the platform. -/
structure UrlParser where
  Url : Type
  parse : String → Option Url
  /-- Parses relative to the text of another URL. -/
  resolve : String → String → Option Url
  href : Url → String
  protocol : Url → String
  hostname : Url → String

structure Options where
  description : Option String
  allowedProtocols : Option (List String)
  allowPrivateHosts : Option Bool
  maxRedirects : Option Nat

structure Response where
  status : Nat
  location : Option String

inductive FetchError where
  | invalidUrl
  | publicUrlValidation (message : String)
  | tooManyRedirects (message : String)
  | rejected
  deriving DecidableEq

def defaultPublicUrlProtocols : List String := ["http:", "https:"]

def defaultMaxRedirects : Nat := 5

def redirectStatusCodes : List Nat := [301, 302, 303, 307, 308]

namespace Options

def descriptionText (options : Options) : String := options.description.getD "URL"

def protocols (options : Options) : List String :=
  options.allowedProtocols.getD defaultPublicUrlProtocols

def redirects (options : Options) : Nat := options.maxRedirects.getD defaultMaxRedirects

end Options

section Program
variable (other : List Char → Char → List Char → List Char) (urls : UrlParser)

/-- The checks on a parsed URL. -/
def checkPublicUrl (options : Options) (parsedUrl : urls.Url) : Except FetchError urls.Url :=
  if urls.protocol parsedUrl ∉ options.protocols then
    .error (.publicUrlValidation (options.descriptionText ++
      " must use one of the allowed schemes (" ++ ", ".intercalate options.protocols ++ "): " ++
      urls.protocol parsedUrl))
  else if urls.hostname parsedUrl = "" then
    .error (.publicUrlValidation (options.descriptionText ++ " must specify a hostname."))
  else if options.allowPrivateHosts ≠ some true ∧
      isPrivateHostname other (urls.hostname parsedUrl).toList = true then
    .error (.publicUrlValidation (options.descriptionText ++
      " must not target a private, loopback, or link-local host: " ++ urls.hostname parsedUrl))
  else .ok parsedUrl

/-- A URL that is no text is parsed again from its text. -/
def assertPublicUrl (options : Options) (url : String ⊕ urls.Url) : Except FetchError urls.Url :=
  let text := match url with
    | .inl text => text
    | .inr url => urls.href url
  match urls.parse text with
  | none => .error .invalidUrl
  | some parsedUrl => checkPublicUrl other urls options parsedUrl

/-- The loop over the redirects with the URLs requested so far; what is answered to the last of
them, if anything, is up to the network. -/
def followRedirects (options : Options) (fetchFn : List String → Option Response) :
    Nat → List String → String → List String × Except FetchError Response
  | 0, requests, _ =>
    (requests, .error (.tooManyRedirects (options.descriptionText ++
      " exceeded the maximum number of redirects (" ++ toString options.redirects ++ ").")))
  | attempts + 1, requests, currentUrl =>
    let requests := requests ++ [currentUrl]
    match fetchFn requests with
    | none => (requests, .error .rejected)
    | some response =>
      if response.status ∉ redirectStatusCodes then (requests, .ok response)
      else
        match response.location with
        | none => (requests, .ok response)
        | some location =>
          match urls.resolve location currentUrl with
          | none => (requests, .error .invalidUrl)
          | some url =>
            match assertPublicUrl other urls options (.inr url) with
            | .error error => (requests, .error error)
            | .ok parsedUrl =>
              followRedirects options fetchFn attempts requests (urls.href parsedUrl)

def fetchPublicUrl (url : String ⊕ urls.Url) (options : Options)
    (fetchFn : List String → Option Response) : List String × Except FetchError Response :=
  match assertPublicUrl other urls options url with
  | .error error => ([], .error error)
  | .ok parsedUrl =>
    followRedirects other urls options fetchFn (options.redirects + 1) [] (urls.href parsedUrl)

/-! ## What is requested -/

/-- A request for a URL that may be requested. -/
def Permitted (options : Options) (request : String) : Prop :=
  ∃ parsedUrl, urls.parse request = some parsedUrl ∧ urls.protocol parsedUrl ∈ options.protocols ∧
    isPrivateHostname other (urls.hostname parsedUrl).toList = false

variable {other urls}

theorem checkPublicUrl_ok {options : Options} (hprivate : options.allowPrivateHosts ≠ some true)
    {url parsedUrl : urls.Url} (h : checkPublicUrl other urls options url = .ok parsedUrl) :
    parsedUrl = url ∧ urls.protocol url ∈ options.protocols ∧
      isPrivateHostname other (urls.hostname url).toList = false := by
  rw [checkPublicUrl] at h
  split_ifs at h with hprotocol hhostname hhost
  rw [not_and, Bool.not_eq_true] at hhost
  exact ⟨(Except.ok.inj h).symm, hprotocol, hhost hprivate⟩

theorem assertPublicUrl_permitted (hhref : ∀ url, urls.parse (urls.href url) = some url)
    {options : Options} (hprivate : options.allowPrivateHosts ≠ some true)
    {url : String ⊕ urls.Url} {parsedUrl : urls.Url}
    (h : assertPublicUrl other urls options url = .ok parsedUrl) :
    Permitted other urls options (urls.href parsedUrl) := by
  simp only [assertPublicUrl] at h
  split at h
  · cases h
  · obtain ⟨rfl, hprotocol, hhost⟩ := checkPublicUrl_ok hprivate h
    exact ⟨parsedUrl, hhref parsedUrl, hprotocol, hhost⟩

/-- Every round requests one URL, and only a URL that was checked. -/
theorem followRedirects_permitted (hhref : ∀ url, urls.parse (urls.href url) = some url)
    {options : Options} (hprivate : options.allowPrivateHosts ≠ some true)
    (fetchFn : List String → Option Response) (attempts : Nat) {requests : List String}
    {currentUrl : String} (hrequests : ∀ request ∈ requests, Permitted other urls options request)
    (hcurrent : Permitted other urls options currentUrl) :
    (followRedirects other urls options fetchFn attempts requests currentUrl).1.length ≤
        requests.length + attempts ∧
      ∀ request ∈ (followRedirects other urls options fetchFn attempts requests currentUrl).1,
        Permitted other urls options request := by
  induction attempts generalizing requests currentUrl with
  | zero => exact ⟨le_rfl, hrequests⟩
  | succ attempts ih =>
    have hnext : ∀ request ∈ requests ++ [currentUrl], Permitted other urls options request := by
      intro request hrequest
      cases List.mem_append.mp hrequest with
      | inl hrequest => exact hrequests request hrequest
      | inr hrequest =>
        rw [List.mem_singleton.mp hrequest]
        exact hcurrent
    have hstop : (requests ++ [currentUrl]).length ≤ requests.length + (attempts + 1) := by
      rw [List.length_append, List.length_singleton]
      omega
    rw [followRedirects]
    cases fetchFn (requests ++ [currentUrl]) with
    | none => exact ⟨hstop, hnext⟩
    | some response =>
      simp only
      split
      · exact ⟨hstop, hnext⟩
      · cases response.location with
        | none => exact ⟨hstop, hnext⟩
        | some location =>
          simp only
          cases urls.resolve location currentUrl with
          | none => exact ⟨hstop, hnext⟩
          | some url =>
            simp only
            cases hassert : assertPublicUrl other urls options (.inr url) with
            | error error => exact ⟨hstop, hnext⟩
            | ok parsedUrl =>
              obtain ⟨hlength, hall⟩ := ih hnext (assertPublicUrl_permitted hhref hprivate hassert)
              refine ⟨hlength.trans ?_, hall⟩
              rw [List.length_append, List.length_singleton]
              omega

end Program

/-- The guard sees the address behind every spelling; and no chain of redirects leads to a request
that it forbids, or to more requests than allowed. -/
theorem public_network_guard (other : List Char → Char → List Char → List Char) (urls : UrlParser)
    (hhref : ∀ url, urls.parse (urls.href url) = some url) :
    (∀ (address : Ipv4) (text s : List Char), Ipv4Text address text → Spelling text s →
      (isPrivateHostname other s = true ↔ PrivateIpv4 address)) ∧
    (∀ (address : Ipv6) (text s : List Char), Ipv6Text address text → Spelling text s →
      (isPrivateHostname other s = true ↔ PrivateIpv6 address)) ∧
    ∀ (url : String ⊕ urls.Url) (options : Options) (fetchFn : List String → Option Response),
      options.allowPrivateHosts ≠ some true →
        (fetchPublicUrl other urls url options fetchFn).1.length ≤ options.redirects + 1 ∧
        ∀ request ∈ (fetchPublicUrl other urls url options fetchFn).1,
          Permitted other urls options request := by
  refine ⟨fun _ _ _ htext hs => isPrivateHostname_ipv4 other htext hs,
    fun _ _ _ htext hs => isPrivateHostname_ipv6 other htext hs, ?_⟩
  intro url options fetchFn hprivate
  rw [fetchPublicUrl]
  cases hassert : assertPublicUrl other urls options url with
  | error error => simp
  | ok parsedUrl =>
    have hnone : ∀ request ∈ ([] : List String), Permitted other urls options request := by simp
    have hfollow := followRedirects_permitted hhref hprivate fetchFn (options.redirects + 1) hnone
      (assertPublicUrl_permitted hhref hprivate hassert)
    simpa using hfollow

/-- Two URLs: one on the public network and one that is not. -/
inductive SampleUrl where
  | outside
  | inside

def sampleHref : SampleUrl → String
  | .outside => "http://example.com/"
  | .inside => "http://10.0.0.1/"

def sampleParse (text : String) : Option SampleUrl :=
  if text = sampleHref .outside then some .outside
  else if text = sampleHref .inside then some .inside
  else none

def sampleUrls : UrlParser where
  Url := SampleUrl
  parse := sampleParse
  resolve location _ := sampleParse location
  href := sampleHref
  protocol _ := "http:"
  hostname
    | .outside => "example.com"
    | .inside => "10.0.0.1"

/-- The public URL answers with a redirect to the other one, which is not requested. -/
theorem public_network_guard_redirect :
    (fetchPublicUrl (fun _ c _ => [c]) sampleUrls (.inl "http://example.com/")
        ⟨none, none, none, none⟩ fun _ => some ⟨302, some "http://10.0.0.1/"⟩).1 =
      ["http://example.com/"] ∧
    (isPrivateHostname (fun _ c _ => [c]) "[::FFFF:10.0.0.1%eth0]".toList = true ↔
      PrivateIpv6 0xffff0a000001) ∧
    ∀ request ∈ (fetchPublicUrl (fun _ c _ => [c]) sampleUrls (.inl "http://example.com/")
        ⟨none, none, none, none⟩ fun _ => some ⟨302, some "http://10.0.0.1/"⟩).1,
      Permitted (fun _ c _ => [c]) sampleUrls ⟨none, none, none, none⟩ request := by
  have hhref : ∀ url, sampleUrls.parse (sampleUrls.href url) = some url := by
    intro url
    cases url with
    | outside => rfl
    | inside => rfl
  have hguard := public_network_guard (fun _ c _ => [c]) sampleUrls hhref
  have htext : Ipv6Text 0xffff0a000001 "::FFFF:10.0.0.1".toList := by
    have hquad : QuadText "10.0.0.1".toList 10 0 0 1 :=
      .intro (s := ['1', '0']) (t := ['0']) (u := ['0']) (v := ['1'])
        ⟨by decide, List.all_eq_true.mp rfl, by decide, by decide⟩
        ⟨by decide, List.all_eq_true.mp rfl, by decide, by decide⟩
        ⟨by decide, List.all_eq_true.mp rfl, by decide, by decide⟩
        ⟨by decide, List.all_eq_true.mp rfl, by decide, by decide⟩
    have hmapped : HextetText "FFFF".toList 0xffff :=
      ⟨by decide, by decide, List.all_eq_true.mp rfl, by decide⟩
    exact .compressed .nil (.group hmapped (.quad hquad)) (by decide)
  exact ⟨by decide,
    hguard.2.1 _ _ _ htext (.bracketed (.inl rfl) (.inr ⟨"eth0".toList, rfl⟩)),
    (hguard.2.2 _ _ _ (by decide)).2⟩

end PublicUrl
end EnboxDwn
