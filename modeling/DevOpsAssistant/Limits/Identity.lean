import DevOpsAssistant.Core.Exceptions
import DevOpsAssistant.Text.Strings
import Mathlib.Data.Int.Order.Basic

/-!
# The address of a client

* `HttpRequest`: the peer of the socket, and the headers.
* `resolveClientIp`: the address a request is counted under.
* `HttpRequest.proxied`: a request that has passed proxies, each of which has appended its peer.
* `resolveClientIp_sent`: the first address the client has sent is the address of the request.
* **`clientIp_chosen`**: so the client chooses it, behind any number of trusted proxies.
-/

namespace DevOps

/-- `str.isspace`. -/
def isStrSpace (c : Char) : Bool :=
  c.toNat ∈ [9, 10, 11, 12, 13, 28, 29, 30, 31, 32, 133, 160, 5760, 8192, 8193, 8194, 8195, 8196, 8197,
    8198, 8199, 8200, 8201, 8202, 8232, 8233, 8239, 8287, 12288]

/-- `[part.strip() for part in text.split(",") if part.strip()]`. -/
def commaParts (text : String) : List String :=
  (((text.toList.splitOn ',').map (Text.strip isStrSpace)).filter (· ≠ [])).map String.ofList

/-- The settings that say which peers are proxies. -/
structure ProxySettings where
  trustedProxyCount : ℤ
  trustedProxyIps : String

/-- `trusted_proxy_ip_list`. -/
def ProxySettings.trustedProxyIpList (settings : ProxySettings) : List String :=
  commaParts settings.trustedProxyIps

/-- A request, with its header names in lower case. -/
structure HttpRequest where
  client : Option String
  headers : List (String × String)

/-- `request.headers.get(name)`: the first header of the name. -/
def HttpRequest.header (r : HttpRequest) (name : String) : Option String := r.headers.lookup name

namespace ClientIp

def peerIsTrusted (peer : String) (trustedProxyCount : ℤ) (trustedIps : List String) : Bool :=
  if trustedProxyCount > 0 then true
  else if trustedIps = [] then false
  else peer ∈ trustedIps

/-- `x-real-ip`, or the peer. -/
def realIpOr (r : HttpRequest) (peer : String) : String :=
  match (r.header "x-real-ip").filter (· ≠ "") with
  | some realIp => String.ofList (Text.strip isStrSpace realIp.toList)
  | none => peer

def resolveClientIp (settings : ProxySettings) (r : HttpRequest) : Except Exc String :=
  let peer := r.client.getD "unknown"
  if !peerIsTrusted peer settings.trustedProxyCount settings.trustedProxyIpList then .ok peer
  else
    match (r.header "x-forwarded-for").filter (· ≠ "") with
    | none => .ok (realIpOr r peer)
    | some forwarded =>
      match commaParts forwarded with
      | [] => .ok (realIpOr r peer)
      | part :: parts =>
        let index := max 0 (((part :: parts).length : ℤ) - settings.trustedProxyCount - 1)
        if settings.trustedProxyCount ≥ 1 then .ok part
        else
          match (part :: parts)[index.toNat]? with
          | some part => .ok part
          | none => .error (.other "IndexError")

end ClientIp

end DevOps

namespace DevOps

open ClientIp

/-- `X-Forwarded-For` after a proxy has appended the address of its peer. -/
def forwardedBy (header : Option String) (peer : String) : Option String :=
  match header with
  | none => some peer
  | some sent => some (sent ++ ", " ++ peer)

/-- The request behind proxies with the given peers, the client first; the client has sent `sent`. -/
def HttpRequest.proxied (r : HttpRequest) (sent : Option String) (peers : List String) : HttpRequest :=
  let rest := r.headers.filter (·.1 ≠ "x-forwarded-for")
  match peers.foldl forwardedBy sent with
  | none => { r with headers := rest }
  | some forwarded => { r with headers := ("x-forwarded-for", forwarded) :: rest }

section Forwarded

variable {r : HttpRequest} {peers : List String} {address : String} {settings : ProxySettings}

/-- What proxies append comes after what was sent. -/
theorem foldl_forwardedBy : ∀ (peers : List String) (sent : String), ∃ rest : List Char,
    peers.foldl forwardedBy (some sent) = some (String.ofList (sent.toList ++ rest)) ∧
      (peers ≠ [] → rest.head? = some ',')
  | [], sent => ⟨[], by simp, fun h => absurd rfl h⟩
  | peer :: peers, sent => by
    obtain ⟨rest, h, -⟩ := foldl_forwardedBy peers (sent ++ ", " ++ peer)
    refine ⟨(", " ++ peer).toList ++ rest, ?_, fun _ => ?_⟩
    · rw [List.foldl_cons, forwardedBy, h]
      simp
    · simp

/-- A list of addresses that starts with `address`. -/
theorem commaParts_of_prefix {text : String} {rest : List Char} (hcomma : ',' ∉ address.toList)
    (hstrip : Text.strip isStrSpace address.toList = address.toList) (hne : address ≠ "")
    (htext : text.toList = address.toList ++ ',' :: rest) :
    ∃ parts, commaParts text = address :: parts := by
  have hsplit : text.toList.splitOn ',' = address.toList :: rest.splitOn ',' := by
    rw [htext, List.splitOn_append_cons_self_of_not_mem hcomma]
  rw [commaParts, hsplit, List.map_cons, hstrip, List.filter_cons_of_pos (by simpa using hne),
    List.map_cons, String.ofList_toList]
  exact ⟨_, rfl⟩

/-- **The first address the client has sent** is the address of the request. -/
theorem resolveClientIp_sent (hn : 1 ≤ settings.trustedProxyCount) (hpeers : peers ≠ [])
    (hcomma : ',' ∉ address.toList) (hstrip : Text.strip isStrSpace address.toList = address.toList)
    (hne : address ≠ "") :
    resolveClientIp settings (r.proxied (some address) peers) = .ok address := by
  obtain ⟨rest, hforwarded, hhead⟩ := foldl_forwardedBy peers address
  obtain ⟨rest, rfl⟩ := List.head?_eq_some_iff.mp (hhead hpeers)
  obtain ⟨text, htext⟩ : ∃ text : String, text.toList = address.toList ++ ',' :: rest :=
    ⟨_, String.toList_ofList⟩
  rw [← htext, String.ofList_toList] at hforwarded
  have hheader : (r.proxied (some address) peers).header "x-forwarded-for" = some text := by
    rw [HttpRequest.proxied, hforwarded]
    exact List.lookup_cons_self
  obtain ⟨parts, hparts⟩ := commaParts_of_prefix hcomma hstrip hne htext
  have htrusted : peerIsTrusted ((r.proxied (some address) peers).client.getD "unknown")
      settings.trustedProxyCount settings.trustedProxyIpList = true := if_pos hn
  have hnonempty : text ≠ "" := by
    rintro rfl
    simp at htext
  have hfilter : (some text).filter (· ≠ "") = some text := by
    rw [Option.filter_some, if_pos (decide_eq_true hnonempty)]
  rw [resolveClientIp, htrusted, hheader, hfilter]
  simp only [Bool.not_true, Bool.false_eq_true, if_false, hparts]
  exact if_pos hn

end Forwarded

/-- **The client chooses the address** it is counted under, whatever proxies the request has passed: two
requests that differ in what the client has sent are counted under different addresses. -/
theorem clientIp_chosen (settings : ProxySettings) (r : HttpRequest) (peers : List String)
    (hn : 1 ≤ settings.trustedProxyCount) (hpeers : (peers.length : ℤ) = settings.trustedProxyCount) :
    ¬ ∀ sent sent' : Option String, resolveClientIp settings (r.proxied sent peers) =
      resolveClientIp settings (r.proxied sent' peers) := by
  intro h
  have hne : peers ≠ [] := by
    rintro rfl
    simp only [List.length_nil] at hpeers
    omega
  have h := h (some "1.1.1.1") (some "2.2.2.2")
  rw [resolveClientIp_sent hn hne (by decide) (by decide) (by decide),
    resolveClientIp_sent hn hne (by decide) (by decide) (by decide)] at h
  revert h
  decide

/-- One proxy, which has appended the address of the client. -/
theorem clientIp_chosen_one : ¬ ∀ sent sent' : Option String,
    resolveClientIp ⟨1, ""⟩ ((⟨some "10.0.0.5", []⟩ : HttpRequest).proxied sent ["203.0.113.10"]) =
      resolveClientIp ⟨1, ""⟩ ((⟨some "10.0.0.5", []⟩ : HttpRequest).proxied sent' ["203.0.113.10"]) :=
  clientIp_chosen ⟨1, ""⟩ ⟨some "10.0.0.5", []⟩ ["203.0.113.10"] (by decide) rfl

/-- Behind one proxy, two values of the header give two addresses. -/
theorem clientIp_chosen_not : ¬ ∀ (settings : ProxySettings) (r : HttpRequest) (peers : List String),
    1 ≤ settings.trustedProxyCount → (peers.length : ℤ) = settings.trustedProxyCount →
    ∀ sent sent' : Option String, resolveClientIp settings (r.proxied sent peers) =
      resolveClientIp settings (r.proxied sent' peers) := by
  intro h
  have h := h ⟨1, ""⟩ ⟨some "10.0.0.5", []⟩ ["203.0.113.10"] (by decide) rfl (some "1.1.1.1")
    (some "2.2.2.2")
  revert h
  decide

end DevOps
