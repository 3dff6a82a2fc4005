import HnsDaneEngine.Browser.Resolver.Denial
import HnsDaneEngine.Browser.Resolver.Transport

/-!
# Endpoints for authoritative DNS over HTTPS

A root zone declares endpoints in TXT records of its resource, with optional
certificate pins, and a nameserver in an SVCB record.  Malformed declarations
are errors, while unrelated text is passed over.
-/

namespace HnsDaneEngine.Browser.Resolver

open Browser.Dnssec Wire

/-- `str::split_once`. -/
def splitOnce (separator : Char) (text : List Char) : Option (List Char × List Char) :=
  if separator ∈ text then
    some (text.takeWhile (· != separator), (text.dropWhile (· != separator)).drop 1)
  else none

/-- `str::rsplit_once`. -/
def rsplitOnce (separator : Char) (text : List Char) : Option (List Char × List Char) :=
  (splitOnce separator text.reverse).map fun (back, front) => (front.reverse, back.reverse)

/-- `str::to_ascii_lowercase`. -/
def asciiLowercase (text : List Char) : List Char :=
  text.map fun char => if 'A' ≤ char ∧ char ≤ 'Z' then Char.ofNat (char.toNat + 32) else char

/-- `str::eq_ignore_ascii_case`. -/
def eqIgnoreAsciiCase (first second : List Char) : Bool :=
  asciiLowercase first == asciiLowercase second

/-- An ASCII control character or a space. -/
def isControlOrSpace (char : Char) : Bool :=
  char.toNat < 32 || char.toNat == 127 || char == ' '

/-- `std::str::from_utf8`. -/
def fromUtf8 (bytes : Octets) : Option (List Char) :=
  (String.fromUTF8? ⟨bytes.toArray⟩).map String.toList

/-- The digits of a decimal number. -/
def parseDigits (text : List Char) : Option Nat :=
  if text.all Char.isDigit then
    some (text.foldl (fun value digit => value * 10 + (digit.toNat - '0'.toNat)) 0)
  else none

/-- `str::parse::<u16>`, which accepts a leading plus sign. -/
def parseU16 (text : List Char) : Option UInt16 :=
  let digits :=
    match text with
    | '+' :: rest => rest
    | text => text
  if digits.isEmpty then none
  else
    match parseDigits digits with
    | some value => if value < 65536 then some (UInt16.ofNat value) else none
    | none => none

def hexDigit (char : Char) : Option UInt8 :=
  if '0' ≤ char ∧ char ≤ '9' then some (UInt8.ofNat (char.toNat - '0'.toNat))
  else if 'a' ≤ char ∧ char ≤ 'f' then some (UInt8.ofNat (char.toNat - 'a'.toNat + 10))
  else if 'A' ≤ char ∧ char ≤ 'F' then some (UInt8.ofNat (char.toNat - 'A'.toNat + 10))
  else none

/-- `hex::decode`. -/
def decodeHex : List Char → Option Octets
  | [] => some []
  | high :: low :: rest =>
    match hexDigit high, hexDigit low, decodeHex rest with
    | some high, some low, some bytes => some ((high * 16 + low) :: bytes)
    | _, _, _ => none
  | [_] => none

/-- An endpoint without its address. -/
structure AuthoritativeDohTemplate where
  ns : DnsName
  host : List Char
  port : UInt16
  pathAndQuery : List Char
  tlsAuthentication : AuthoritativeDohTlsAuthentication
  deriving DecidableEq

def defaultDohPort : UInt16 := 443

def defaultDohPath : List Char := "/dns-query".toList

def dohUriTemplateDnsVariable : List Char := "\x7b?dns\x7d".toList

def hnsdnsVersion : List Char := "1".toList

def hnsdnsMaxTextBytes : Nat := 255

def hnsdnsMaxTlsaPins : Nat := 2

def keyValuePart (part : List Char) : Option (List Char × List Char) :=
  match splitOnce '=' (trim part) with
  | none => none
  | some (key, value) =>
    let key := trim key
    let value := trim value
    if !key.isEmpty && !value.isEmpty then some (key, value) else none

/-- The loop of `txt_rdata_strings`.  The first argument bounds the number of
strings. -/
def txtStringsFrom : Nat → Octets → Except ResolverError (List (List Char))
  | _, [] => .ok []
  | 0, _ :: _ => .error .invalidAuthoritativeDoh
  | rounds + 1, length :: rest =>
    if rest.length < length.toNat then .error .invalidAuthoritativeDoh
    else
      match fromUtf8 (rest.take length.toNat) with
      | none => .error .invalidAuthoritativeDoh
      | some text =>
        match txtStringsFrom rounds (rest.drop length.toNat) with
        | .error error => .error error
        | .ok texts => .ok (text :: texts)

def txtRdataStrings (rdata : Octets) : Except ResolverError (List (List Char)) :=
  txtStringsFrom rdata.length rdata

def hnsdnsIsDeclared (text : List Char) : Bool :=
  (text.splitOn ';').any fun part =>
    (keyValuePart part).any fun (key, value) =>
      eqIgnoreAsciiCase key "hnsdns".toList && value == hnsdnsVersion

def hnsdnsNsName (rootOwner : DnsName) (value : List Char) : Except ResolverError DnsName :=
  let value := asciiLowercase (trimEndMatches (· == '.') (trim value))
  if value.isEmpty ∨ value = ['@'] ∨ '*' ∈ value then .error .invalidAuthoritativeDoh
  else
    match DnsName.fromAscii value with
    | .error _ => .error .invalidAuthoritativeDoh
    | .ok name =>
      if name.labels.length = 1 then
        match DnsName.fromAscii (name.toText ++ '.' :: rootOwner.toText) with
        | .error _ => .error .invalidAuthoritativeDoh
        | .ok name => .ok name
      else .ok name

def normalizeDohHost (host : List Char) : Except ResolverError (List Char) :=
  let host := asciiLowercase (trimEndMatches (· == '.') (trim host))
  if host.isEmpty ∨ 253 < (asBytes host).length ∨
      host.any (fun char => isControlOrSpace char || ['/', '?', '#', '@'].contains char) ∨
      (DnsName.fromAscii host).isOk = false then .error .invalidAuthoritativeDoh
  else .ok host

/-- `str::strip_suffix`, or the text itself. -/
def stripSuffix (suffix text : List Char) : List Char :=
  if suffix.isSuffixOf text then text.take (text.length - suffix.length) else text

def normalizeDohPath (path : List Char) : Except ResolverError (List Char) :=
  let path := stripSuffix dohUriTemplateDnsVariable (trim path)
  if path.head? ≠ some '/' then .error .invalidAuthoritativeDoh
  else if path.isEmpty ∨ '#' ∈ path ∨ path.any isControlOrSpace then
    .error .invalidAuthoritativeDoh
  else .ok path

/-- Host and port of the authority of a URI. -/
def parseAuthority (authority : List Char) : Except ResolverError (List Char × UInt16) :=
  match rsplitOnce ':' authority with
  | none => .ok (authority, defaultDohPort)
  | some (host, port) =>
    if ':' ∈ host then .error .invalidAuthoritativeDoh
    else
      match parseU16 port with
      | some port => .ok (host, port)
      | none => .error .invalidAuthoritativeDoh

def parseDohUriTemplate (value : List Char) :
    Except ResolverError (List Char × UInt16 × List Char) :=
  let value := trim value
  if !eqIgnoreAsciiCase (value.take 8) "https://".toList then .error .invalidAuthoritativeDoh
  else
    let remainder := value.drop 8
    if '#' ∈ remainder ∨ remainder.any isControlOrSpace then .error .invalidAuthoritativeDoh
    else
      let (authority, rawPath) :=
        (splitOnce '/' remainder).getD (remainder, defaultDohPath.drop 1)
      if authority.isEmpty ∨ '@' ∈ authority then .error .invalidAuthoritativeDoh
      else do
        let (host, port) ← parseAuthority authority
        let host ← normalizeDohHost host
        let pathAndQuery ← normalizeDohPath ('/' :: rawPath)
        return (host, port, pathAndQuery)

def parseHnsdnsTlsa (value : List Char) : Except ResolverError TlsaRecord :=
  match (value.splitOn ',').map trim with
  | [usage, selector, matching, association] =>
    if usage ≠ ['3'] ∨ selector ≠ ['1'] ∨ matching ≠ ['1'] then .error .invalidAuthoritativeDoh
    else
      match decodeHex association with
      | some digest =>
        if digest.length = 32 then .ok ⟨.daneEe, .subjectPublicKeyInfo, .sha256, digest⟩
        else .error .invalidAuthoritativeDoh
      | none => .error .invalidAuthoritativeDoh
  | _ => .error .invalidAuthoritativeDoh

/-- The fields of a declaration read so far. -/
structure HnsdnsFields where
  sawVersion : Bool := false
  ns : Option DnsName := none
  transport : Option (List Char) := none
  dohUri : Option (List Char × UInt16 × List Char) := none
  explicitPort : Option UInt16 := none
  explicitPath : Option (List Char) := none
  proofTlsaRecords : List TlsaRecord := []

/-- A field that may occur once. -/
def setOnce {α : Type} (current : Option α) (value : α) : Except ResolverError (Option α) :=
  if current.isSome then .error .invalidAuthoritativeDoh else .ok (some value)

/-- The body of the part loop of `parse_hnsdns_declaration`. -/
def hnsdnsField (rootOwner : DnsName) (fields : HnsdnsFields) (part : List Char) :
    Except ResolverError HnsdnsFields :=
  match keyValuePart part with
  | none => .error .invalidAuthoritativeDoh
  | some (key, value) =>
    match String.ofList (asciiLowercase key) with
    | "hnsdns" =>
      if value = hnsdnsVersion then .ok { fields with sawVersion := true }
      else .error .invalidAuthoritativeDoh
    | "ns" =>
      if fields.ns.isSome then .error .invalidAuthoritativeDoh
      else do
        let ns ← hnsdnsNsName rootOwner value
        return { fields with ns := some ns }
    | "transport" => do
      let transport ← setOnce fields.transport (asciiLowercase value)
      return { fields with transport := transport }
    | "doh" => do
      let uri ← parseDohUriTemplate value
      let dohUri ← setOnce fields.dohUri uri
      return { fields with dohUri := dohUri }
    | "port" =>
      match parseU16 value with
      | none => .error .invalidAuthoritativeDoh
      | some port => do
        let explicitPort ← setOnce fields.explicitPort port
        return { fields with explicitPort := explicitPort }
    | "path" => do
      let path ← normalizeDohPath value
      let explicitPath ← setOnce fields.explicitPath path
      return { fields with explicitPath := explicitPath }
    | "tlsa" => do
      let record ← parseHnsdnsTlsa value
      if fields.proofTlsaRecords.contains record then return fields
      else if hnsdnsMaxTlsaPins ≤ fields.proofTlsaRecords.length then
        .error .invalidAuthoritativeDoh
      else return { fields with proofTlsaRecords := fields.proofTlsaRecords ++ [record] }
    | _ => .ok fields

/-- The text of a name in the authority of a URI. -/
def hostText (name : DnsName) : List Char :=
  asciiLowercase (trimEndMatches (· == '.') name.toText)

def parseHnsdnsDeclaration (text : List Char) (rootOwner : DnsName) :
    Except ResolverError (Option AuthoritativeDohTemplate) :=
  if !hnsdnsIsDeclared text then .ok none
  else if hnsdnsMaxTextBytes < (asBytes text).length then .error .invalidAuthoritativeDoh
  else do
    let fields ← (text.splitOn ';').foldlM (hnsdnsField rootOwner) {}
    if !fields.sawVersion ∨ fields.transport.any (· != "doh".toList) then
      .error .invalidAuthoritativeDoh
    else
      match fields.ns with
      | none => .error .invalidAuthoritativeDoh
      | some ns =>
        let (host, port, pathAndQuery) :=
          fields.dohUri.getD (hostText ns, defaultDohPort, defaultDohPath)
        return some {
          ns := ns
          host := host
          port := fields.explicitPort.getD port
          pathAndQuery := fields.explicitPath.getD pathAndQuery
          tlsAuthentication :=
            if fields.proofTlsaRecords.isEmpty then .webPki
            else .hnsProofTlsa fields.proofTlsaRecords }

/-- Appends an item that is not in the list yet. -/
def pushNew {α : Type} [DecidableEq α] (items : List α) (item : α) : List α :=
  if item ∈ items then items else items ++ [item]

def authoritativeDohTemplatesFromHns (delegation : HnsDelegation) :
    Except ResolverError (List AuthoritativeDohTemplate) :=
  (recordsFor delegation.records delegation.owner .txt).foldlM (fun templates record => do
    let texts ← txtRdataStrings record.rdata
    texts.foldlM (fun templates text => do
      match ← parseHnsdnsDeclaration text delegation.owner with
      | none => return templates
      | some template => return pushNew templates template) templates) []

def dnsServiceBindingName (ns : DnsName) : Except ResolverError DnsName :=
  match DnsName.fromAscii ("_dns.".toList ++ ns.toText) with
  | .ok name => .ok name
  | .error _ => .error .invalidAuthoritativeDoh

def svcbMandatoryKeysSupported (svcb : SvcbRecord) : Bool :=
  match svcb.param svcbParamMandatory with
  | none => true
  | some value => (chunkKeys value).all fun key =>
    [svcbParamAlpn, svcbParamPort, svcbParamIpv4hint, svcbParamIpv6hint,
      svcbParamDohpath].contains key

def dohPathFromSvcbParam (value : Octets) : Except ResolverError (List Char) :=
  match fromUtf8 value with
  | none => .error .invalidAuthoritativeDoh
  | some template =>
    if template.tails.any "dns".toList.isPrefixOf then normalizeDohPath template
    else .error .invalidAuthoritativeDoh

def authoritativeDohTemplateFromSvcb (ns : DnsName) (record : ResourceRecord) :
    Except ResolverError (Option AuthoritativeDohTemplate) :=
  match SvcbRecord.fromRecord record with
  | .error _ => .error .invalidAuthoritativeDoh
  | .ok svcb =>
    if svcb.isAliasMode || !svcbMandatoryKeysSupported svcb then .ok none
    else
      match svcb.alpnIds with
      | .error _ => .error .invalidAuthoritativeDoh
      | .ok alpnIds =>
        -- Only endpoints for HTTP/2 are taken.
        if !alpnIds.contains [0x68, 0x32] then .ok none
        else
          match svcb.param svcbParamDohpath with
          | none => .ok none
          | some dohpath => do
            let pathAndQuery ← dohPathFromSvcbParam dohpath
            match svcb.port with
            | .error _ => .error .invalidAuthoritativeDoh
            | .ok port =>
              let target := if svcb.targetName = .root then ns else svcb.targetName
              return some ⟨ns, hostText target, port.getD defaultDohPort, pathAndQuery,
                .webPki⟩

/-- An endpoint at the address of a nameserver. -/
def AuthoritativeDohTemplate.endpoint (template : AuthoritativeDohTemplate) (address : IpAddr) :
    AuthoritativeDohEndpoint :=
  ⟨template.ns, template.host, address, template.port, template.pathAndQuery,
    template.tlsAuthentication⟩

def recordNameRdata (record : ResourceRecord) : Option DnsName :=
  match DnsName.parseWire record.rdata 0 with
  | .ok (name, stop) => if stop = record.rdata.length then some name else none
  | .error _ => none

/-- The address in the data of an A or AAAA record. -/
def recordAddress (record : ResourceRecord) : Option IpAddr :=
  match record.recordType, record.rdata with
  | .a, [a, b, c, d] => some (.v4 ⟨a, b, c, d⟩)
  | .aaaa, [b0, b1, b2, b3, b4, b5, b6, b7, b8, b9, b10, b11, b12, b13, b14, b15] =>
    some (.v6 ⟨u16FromBe b0 b1, u16FromBe b2 b3, u16FromBe b4 b5, u16FromBe b6 b7,
      u16FromBe b8 b9, u16FromBe b10 b11, u16FromBe b12 b13, u16FromBe b14 b15⟩)
  | _, _ => none

/-- The distinct names that NS records lead to. -/
def nsNames (nsRrset : List ResourceRecord) : List DnsName :=
  (nsRrset.filterMap recordNameRdata).foldl pushNew []

/-- The addresses of a name among some records. -/
def addressesOf (records : List ResourceRecord) (name : DnsName) : List IpAddr :=
  (records.filter fun record => record.name = name).filterMap recordAddress

def nameserverIpAddresses (delegation : HnsDelegation) : List (DnsName × IpAddr) :=
  ((nsNames (recordsFor delegation.records delegation.owner .ns)).flatMap fun name =>
    (addressesOf delegation.records name).map (name, ·)).foldl pushNew []

def nameserverAddresses (delegation : HnsDelegation) : List SocketAddr :=
  ((nameserverIpAddresses delegation).map fun (_, address) => ⟨address, 53⟩).foldl pushNew []

def referralNameserverAddresses (nsRrset additionals : List ResourceRecord) : List SocketAddr :=
  ((nsNames nsRrset).flatMap fun name =>
    (addressesOf additionals name).map (⟨·, 53⟩)).foldl pushNew []

/-- `authoritative_doh_cache_key`, which is a text of these parts. -/
def authoritativeDohCacheKey (delegation : HnsDelegation) : EndpointCacheKey :=
  (delegation.owner, (nameserverIpAddresses delegation).toFinset, delegation.records.toFinset)

end HnsDaneEngine.Browser.Resolver
