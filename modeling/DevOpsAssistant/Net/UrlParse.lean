import DevOpsAssistant.Net.IpAddress
import DevOpsAssistant.Text.Lines
import DevOpsAssistant.Text.Whatwg

/-!
# Python's parser of URLs

* `Net.urlsplit`: the scheme, the network location and the fragment of a URL.
* `Net.SplitResult.username` and its like: the parts of a network location.
-/

namespace Net

open Text

/-- The text before and after the last separator: `text.rpartition(sep)`. -/
def splitLast (sep : Char) (text : List Char) : Option (List Char × List Char) :=
  (splitFirst sep text.reverse).map fun p => (p.2.reverse, p.1.reverse)

/-- The text before the first separator: `text.partition(sep)[0]`. -/
def before (sep : Char) (text : List Char) : List Char :=
  match splitFirst sep text with
  | some (text, _) => text
  | none => text

/-- What `urlsplit` makes of a URL, without its path and its query. -/
structure SplitResult where
  scheme : List Char
  netloc : List Char
  fragment : List Char
deriving DecidableEq

namespace SplitResult

variable (parsed : SplitResult)

/-- The user name and the password, if there are any. -/
def userinfo : Option (List Char) × Option (List Char) :=
  match splitLast '@' parsed.netloc with
  | none => (none, none)
  | some (userinfo, _) =>
    match splitFirst ':' userinfo with
    | none => (some userinfo, none)
    | some (username, password) => (some username, some password)

def username : Option (List Char) := parsed.userinfo.1

def password : Option (List Char) := parsed.userinfo.2

/-- The network location behind the user name and the password. -/
def hostinfo : List Char :=
  match splitLast '@' parsed.netloc with
  | none => parsed.netloc
  | some (_, hostinfo) => hostinfo

/-- `parsed.hostname`. A zone behind a percent sign keeps its case. -/
def hostname (lower : List Char → List Char) : Option (List Char) :=
  let hostname := match splitFirst '[' parsed.hostinfo with
    | some (_, bracketed) => before ']' bracketed
    | none => before ':' parsed.hostinfo
  if hostname = [] then none
  else match splitFirst '%' hostname with
    | some (hostname, zone) => some (lower hostname ++ '%' :: zone)
    | none => some (lower hostname)

end SplitResult

/-- A character of `scheme_chars`. -/
def isSchemeChar (c : Char) : Bool := c.isAlphanum || c = '+' || c = '-' || c = '.'

/-- The scheme of a URL and what follows it. -/
def splitScheme (url : List Char) : List Char × List Char :=
  match splitFirst ':' url with
  | none => ([], url)
  | some (scheme, rest) =>
    if scheme.head?.any Char.isAlpha && scheme.all isSchemeChar then (scheme.map Char.toLower, rest)
    else ([], url)

/-- `_check_bracketed_host` raises nothing: an IPv6 address, or one of a later version. -/
def checkBracketedHost (hostname : List Char) : Bool :=
  match hostname with
  | 'v' :: rest =>
    match rest.dropWhile isHexDigit with
    | '.' :: address => rest.head?.any isHexDigit && address ≠ [] && address.all (· ≠ '\n')
    | _ => false
  | _ =>
    match ipAddress hostname with
    | some (.v6 _ _) => true
    | _ => false

/-- `_check_bracketed_netloc` raises nothing. -/
def checkBracketedNetloc (netloc : List Char) : Bool :=
  let hostnameAndPort := match splitLast '@' netloc with
    | none => netloc
    | some (_, hostnameAndPort) => hostnameAndPort
  match splitFirst '[' hostnameAndPort with
  | some (beforeBracket, bracketed) =>
    match splitFirst ']' bracketed with
    | some (hostname, port) =>
      beforeBracket = [] && (port = [] || port.head? = some ':') && checkBracketedHost hostname
    | none => beforeBracket = [] && checkBracketedHost bracketed
  | none => checkBracketedHost (before ':' hostnameAndPort)

/-- `_checknetloc` raises nothing: no delimiter appears when the network location is normalized. -/
def checkNetloc (nfkc : List Char → List Char) (netloc : List Char) : Bool :=
  if netloc.all (·.toNat < 128) then true
  else
    let n := netloc.filter (· ∉ ['@', ':', '#', '?'])
    n = nfkc n || ['/', '?', '#', '@', ':'].all (· ∉ nfkc n)

/-- `urlsplit(url)`; `none` is a `ValueError`. -/
def urlsplit (nfkc : List Char → List Char) (url : List Char) : Option SplitResult :=
  let url := (url.dropWhile (Whatwg.isC0OrSpace Char.toNat)).filter
    (!Whatwg.isTabOrNewline Char.toNat ·)
  let (scheme, url) := splitScheme url
  let (netloc, url) := match url with
    | '/' :: '/' :: rest =>
      (rest.takeWhile (· ∉ ['/', '?', '#']), rest.dropWhile (· ∉ ['/', '?', '#']))
    | _ => ([], url)
  if ('[' ∈ netloc ∧ ']' ∉ netloc) ∨ (']' ∈ netloc ∧ '[' ∉ netloc) then none
  else if '[' ∈ netloc ∧ ']' ∈ netloc ∧ checkBracketedNetloc netloc = false then none
  else if checkNetloc nfkc netloc = false then none
  else
    let fragment := match splitFirst '#' url with
      | some (_, fragment) => fragment
      | none => []
    some ⟨scheme, netloc, fragment⟩

end Net
