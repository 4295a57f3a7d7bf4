import WmAutopilot.Js.Splice
import WmAutopilot.Js.Throw

/-!
# The ingress of a tunnel

* `CloudflareIngressRule`   a rule: a host name, a path, a service;
* `firstMatch`              which rule a request is routed by;
* `normalizeAppHostname`    the host names that may be given;
* `upsertIngressRule`       the list with a rule for a host name;
* `upsertPublicHostname`    what is put when a host name is published.
-/

set_option autoImplicit false

namespace WmAutopilot
namespace Cloudflare
open Js

/-- a character of a host name that may be given. -/
def isHostChar (c : Char) : Bool :=
  ('a' ≤ c && c ≤ 'z') || ('0' ≤ c && c ≤ '9') || c = '-' || c = '.'

/-- What the programs use of their surroundings. -/
structure Host where
  /-- `s.toLowerCase()`, … -/
  toLowerCase : String → String
  /-- … which leaves host names as they are. -/
  toLowerCase_host : ∀ s, (∀ c ∈ s.toList, isHostChar c = true) → toLowerCase s = s
  /-- whether the path of a rule matches that of a request. -/
  pathMatches : String → String → Bool

structure CloudflareIngressRule where
  hostname : Option String := none
  service : String
  path : Option String := none
  originRequest : Option Value := none

def CATCH_ALL_SERVICE : String := "http_status:404"

/-- `https?://` -/
def withoutProtocol (s : String) : List Char :=
  let chars := s.toList
  if "https://".toList <+: chars then chars.drop 8
  else if "http://".toList <+: chars then chars.drop 7
  else chars

/-- `/^[a-z0-9-]+$/`, of a length that is allowed, with no hyphen at its ends. -/
def isLabel (label : List Char) : Bool :=
  1 ≤ label.length && label.length ≤ 63 && label.head? ≠ some '-' && label.getLast? ≠ some '-' &&
    label.all fun c => isHostChar c && c ≠ '.'

def isValidAppHostname (hostname : List Char) : Bool :=
  1 ≤ hostname.length && hostname.length ≤ 253 &&
    !(hostname.contains '*') && !(hostname.contains '_') && !(['.', '.'] <:+: hostname : Bool) &&
    hostname ≠ "localhost".toList && !(hostname.all fun c => c.isDigit || c = '.') &&
    2 ≤ (hostname.splitOn '.').length && (hostname.splitOn '.').all isLabel

/-- the host of an address: without protocol, path, port and final dot. -/
def hostPart (trimmed : String) : List Char :=
  let withoutPath := (withoutProtocol trimmed).takeWhile (· ≠ '/')
  let withoutPort :=
    if withoutPath.head? = some '[' then withoutPath else withoutPath.takeWhile (· ≠ ':')
  if withoutPort.getLast? = some '.' then withoutPort.dropLast else withoutPort

section
variable (host : Host)

def normalizeAppHostname (input : String) : Option String :=
  let hostname := hostPart (host.toLowerCase (trim input))
  if isValidAppHostname hostname then some (String.ofList hostname) else none

/-! ## rules -/

/-- an empty host name is none. -/
def normalizeIngressHostname (hostname : Option String) : Option String :=
  (hostname.map fun h => host.toLowerCase (trim h)).filter (· ≠ "")

def isCatchAllRule (rule : CloudflareIngressRule) : Bool := rule.hostname.all (· = "")

def ingressRuleMatchesHostname (rule : CloudflareIngressRule) (hostname : String) : Bool :=
  match normalizeIngressHostname host rule.hostname with
  | none => true
  | some ruleHostname =>
    ruleHostname = hostname ||
      (startsWith ruleHostname "*." &&
        let suffix := ruleHostname.toList.drop 1
        (suffix <:+ hostname.toList : Bool) && suffix.length < hostname.toList.length)

def isWildcardRule (rule : CloudflareIngressRule) : Bool :=
  (normalizeIngressHostname host rule.hostname).any (startsWith · "*.")

/-- a rule of this host name, however it is written. -/
def carries (hostname : String) (rule : CloudflareIngressRule) : Bool :=
  normalizeIngressHostname host rule.hostname = some hostname

/-- a rule that applies to a request; a path that is empty is none. -/
def applies (hostname path : String) (rule : CloudflareIngressRule) : Bool :=
  ingressRuleMatchesHostname host rule hostname &&
    (rule.path.filter (· ≠ "")).all (host.pathMatches · path)

/-- the rule by which a request is routed. -/
def firstMatch (ingress : List CloudflareIngressRule) (hostname path : String) :
    Option CloudflareIngressRule :=
  ingress.find? (applies host hostname path)

/-! ## the update -/

/-- the rules with a host name. -/
def hosted (ingress : List CloudflareIngressRule) : List CloudflareIngressRule :=
  ingress.filter fun rule => !isCatchAllRule rule

/-- the first rule without a host name, or that of `ensureCatchAllIngress`. -/
def catchAllOf (ingress : List CloudflareIngressRule) : CloudflareIngressRule :=
  (ingress.find? isCatchAllRule).getD { service := CATCH_ALL_SERVICE }

def ensureCatchAllIngress (ingress : List CloudflareIngressRule) : List CloudflareIngressRule :=
  hosted ingress ++ [catchAllOf ingress]

/-- a rule before the one of this host name matches it. -/
def existingIsShadowed (routed : List CloudflareIngressRule) (hostname : String) : Bool :=
  (routed.findIdx? (carries host hostname)).any fun existingIndex =>
    (routed.take existingIndex).any (ingressRuleMatchesHostname host · hostname)

def shadowingWildcardIndex (withoutHostname : List CloudflareIngressRule) (hostname : String) :
    Option ℕ :=
  withoutHostname.findIdx? fun rule =>
    isWildcardRule host rule && ingressRuleMatchesHostname host rule hostname

/-- where the new rule comes when the existing one is not shadowed. -/
def unshadowedIndex (routed withoutHostname : List CloudflareIngressRule) (hostname : String) : ℕ :=
  match routed.findIdx? (carries host hostname) with
  | some existingIndex => min existingIndex withoutHostname.length
  | none => (shadowingWildcardIndex host withoutHostname hostname).getD withoutHostname.length

def insertionIndex (routed withoutHostname : List CloudflareIngressRule) (hostname : String) : ℕ :=
  let unshadowed := unshadowedIndex host routed withoutHostname hostname
  if existingIsShadowed host routed hostname then
    (shadowingWildcardIndex host withoutHostname hostname).getD unshadowed
  else unshadowed

def upsertIngressRule (ingress : List CloudflareIngressRule) (hostname serviceUrl : String) :
    List CloudflareIngressRule :=
  let ordered := ensureCatchAllIngress ingress
  let routed := hosted ordered
  let withoutHostname := routed.filter fun rule => !carries host hostname rule
  insertAt withoutHostname (insertionIndex host routed withoutHostname hostname)
      { hostname := some hostname, service := serviceUrl } ++
    (ordered.getLast?).toList

/-- `/^https?:\/\/[^\s]+$/i` -/
def isServiceUrl (s : String) : Bool :=
  let lower := s.toList.map Char.toLower
  let rest :=
    if "https://".toList <+: lower then some (s.toList.drop 8)
    else if "http://".toList <+: lower then some (s.toList.drop 7)
    else none
  rest.any fun rest => rest ≠ [] && rest.all (!isSpace ·)

def normalizeServiceUrl (input : String) : Except String String := do
  let trimmed := trim input
  throwIf (trimmed = "") "serviceUrl is required"
  throwIf (isServiceUrl trimmed = false) "serviceUrl must be an http:// or https:// URL"
  pure trimmed

def ensureTunnel (tunnelId : String) (requested : Option String) : Except String Unit :=
  throwIf (∃ id ∈ requested, id ≠ "" ∧ id ≠ tunnelId)
    ("Configured Cloudflare tunnel " ++ tunnelId ++ " does not match requested tunnel " ++
      requested.getD "")

/-- The list that is put, when `ingress` is that of the tunnel. -/
def upsertPublicHostname (tunnelId : String) (ingress : List CloudflareIngressRule)
    (hostname serviceUrl : String) (requested : Option String) :
    Except String (String × String × List CloudflareIngressRule) := do
  ensureTunnel tunnelId requested
  let hostname ← orThrow "A valid hostname is required" (normalizeAppHostname host hostname)
  let serviceUrl ← normalizeServiceUrl serviceUrl
  pure (hostname, serviceUrl, upsertIngressRule host ingress hostname serviceUrl)

end

end Cloudflare
end WmAutopilot
