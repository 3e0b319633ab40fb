import Carbide.Lib.SortedMap
import Carbide.Lib.Except
import Carbide.Lib.Utf8
import Carbide.Lib.Hex
import Carbide.Lib.Decimal

/-!
# DHCPv4 replies (`crates/dhcp-server/src/packet_handler.rs`)

`process_packet` takes a datagram, checks that it is a BOOTREQUEST for this
server, asks the handler's discovery for a `DhcpRecord`, and builds the reply
with `create_dhcp_reply_packet`: an Offer for a Discover, an Ack for a Request
whose `ciaddr` is unset or the allocated address, and `nak_packet` for any
other Request. The reply copies the request's header fields, and echoes the
relay agent's sub-options (RFC 3046) read back through `get_option_val`.

The message codec (dhcproto), `Ipv4Addr`'s text (std), `IpNetwork`'s parser
and the `Debug` text of an option are the parameters `Libs`; the handler's
discovery and circuit id are a `DhcpMode`. dhcproto's message and option
types are written out as far as this server reads and writes them; dhcproto
is a dependency, not code under `src/`, so `DhcpOptions`,
`RelayAgentInformation` and the message record are a stand-in for the
behaviour it documents (an option replaces the one of its code).
Option and sub-option maps are maps by code (`SortedMap`).

* `process_packet_reply_echo`: every reply this function returns has the request's
  header fields, the message type and `yiaddr` the request calls for, the
  destination `decide_dst_ip` picks, and the request's relay sub-options,
  except a circuit id or remote id whose bytes are not UTF-8: `from_utf8`
  rejects those, `get_option_val` returns the error, `.ok()` drops it, and
  the reply leaves the sub-option out.
* `process_packet_answers_only_ours`: it answers only a Discover or Request
  that names no other server and, for a relay-only handler, came through a
  relay.
-/
namespace Carbide.Dhcp
open Carbide.Lib

/-! ## dhcproto's message -/

/-- std `Ipv4Addr`, as its 32 bits. -/
abbrev Ipv4Addr := UInt32

/-- `Ipv4Addr::from([0, 0, 0, 0])`. -/
def Ipv4Addr.unspecified : Ipv4Addr := 0

/-- `Ipv4Addr::from([255, 255, 255, 255])`. -/
def Ipv4Addr.broadcast : Ipv4Addr := 0xFFFFFFFF

/-- dhcproto `Opcode`. -/
inductive Opcode
  | bootRequest
  | bootReply
  | unknown (n : UInt8)
  deriving DecidableEq, Repr

/-- dhcproto `HType`; only Ethernet is named here. -/
inductive HType
  | eth
  | other (n : UInt8)
  deriving DecidableEq, Repr

/-- dhcproto `MessageType`; the types this server does not name are `other`. -/
inductive MessageType
  | discover
  | offer
  | request
  | decline
  | ack
  | nak
  | release
  | inform
  | other (n : UInt8)
  deriving DecidableEq, Repr

/-- dhcproto `RelayCode`, the three sub-options this server reads. -/
inductive RelayCode
  | agentCircuitId
  | agentRemoteId
  | linkSelection
  deriving DecidableEq, Repr, Inhabited

/-- The sub-option number (RFC 3046, RFC 3527). -/
def RelayCode.code : RelayCode → Nat
  | agentCircuitId => 1
  | agentRemoteId => 2
  | linkSelection => 5

/-- dhcproto `RelayInfo`: a relay agent sub-option. -/
inductive RelayInfo
  | agentCircuitId (id : List UInt8)
  | agentRemoteId (id : List UInt8)
  | linkSelection (addr : Ipv4Addr)
  | other (code : Nat) (data : List UInt8)
  deriving DecidableEq, Repr

def RelayInfo.code : RelayInfo → Nat
  | agentCircuitId _ => 1
  | agentRemoteId _ => 2
  | linkSelection _ => 5
  | other code _ => code

/-- dhcproto `RelayAgentInformation`: the sub-options by code. -/
abbrev RelayAgentInformation := SortedMap Nat RelayInfo

/-- `RelayAgentInformation::insert`. -/
def RelayAgentInformation.insert (info : RelayInfo) (m : RelayAgentInformation) :
    RelayAgentInformation :=
  SortedMap.insert info.code info m

/-- `RelayAgentInformation::get`. -/
def RelayAgentInformation.get (m : RelayAgentInformation) (code : RelayCode) : Option RelayInfo :=
  m.lookup code.code

/-- dhcproto `OptionCode`, the four options this server looks up. -/
inductive OptionCode
  | messageType
  | serverIdentifier
  | classIdentifier
  | relayAgentInformation
  deriving DecidableEq, Repr

def OptionCode.code : OptionCode → Nat
  | messageType => 53
  | serverIdentifier => 54
  | classIdentifier => 60
  | relayAgentInformation => 82

/-- dhcproto `DhcpOption`: the options this server reads or writes, and the
rest as `other`. -/
inductive DhcpOption
  | subnetMask (mask : Ipv4Addr)
  | router (addrs : List Ipv4Addr)
  | nameServer (addrs : List Ipv4Addr)
  | domainNameServer (addrs : List Ipv4Addr)
  | hostname (name : String)
  | domainName (name : String)
  | interfaceMtu (mtu : UInt16)
  | broadcastAddr (addr : Ipv4Addr)
  | ntpServers (addrs : List Ipv4Addr)
  | vendorExtensions (data : List UInt8)
  | addressLeaseTime (secs : UInt32)
  | messageType (t : MessageType)
  | serverIdentifier (addr : Ipv4Addr)
  | renewal (secs : UInt32)
  | rebinding (secs : UInt32)
  | classIdentifier (id : List UInt8)
  | clientIdentifier (id : List UInt8)
  | bootfileName (name : List UInt8)
  | relayAgentInformation (info : RelayAgentInformation)
  | other (code : Nat) (data : List UInt8)

/-- The option number (RFC 2132, RFC 3046). -/
def DhcpOption.code : DhcpOption → Nat
  | subnetMask _ => 1
  | router _ => 3
  | nameServer _ => 5
  | domainNameServer _ => 6
  | hostname _ => 12
  | domainName _ => 15
  | interfaceMtu _ => 26
  | broadcastAddr _ => 28
  | ntpServers _ => 42
  | vendorExtensions _ => 43
  | addressLeaseTime _ => 51
  | messageType _ => 53
  | serverIdentifier _ => 54
  | renewal _ => 58
  | rebinding _ => 59
  | classIdentifier _ => 60
  | clientIdentifier _ => 61
  | bootfileName _ => 67
  | relayAgentInformation _ => 82
  | other code _ => code

/-- dhcproto `DhcpOptions`: the options by code, each under its own. -/
structure DhcpOptions where
  map : SortedMap Nat DhcpOption
  keyed : map.Keyed DhcpOption.code

namespace DhcpOptions

def empty : DhcpOptions := ⟨SortedMap.empty, SortedMap.keyed_empty⟩

/-- `DhcpOptions::insert`: an option replaces the one of its code. -/
def insert (o : DhcpOption) (opts : DhcpOptions) : DhcpOptions :=
  ⟨opts.map.insert o.code o, opts.keyed.insertWith (fun _ _ => rfl) rfl⟩

/-- `DhcpOptions::get`. -/
def get (opts : DhcpOptions) (code : OptionCode) : Option DhcpOption := opts.map.lookup code.code

/-- `DhcpOptions::msg_type`. -/
def msgType (opts : DhcpOptions) : Option MessageType :=
  match opts.get .messageType with
  | some (.messageType t) => some t
  | _ => none

end DhcpOptions

/-- dhcproto `v4::Message`, without `sname`, `fname` and the magic cookie,
which this server neither reads nor sets. `chaddr` is the 16-byte field, of
which the first `hlen` bytes are the address. -/
structure Message where
  opcode : Opcode
  htype : HType
  hlen : UInt8
  hops : UInt8
  xid : UInt32
  secs : UInt16
  flags : UInt16
  ciaddr : Ipv4Addr
  yiaddr : Ipv4Addr
  siaddr : Ipv4Addr
  giaddr : Ipv4Addr
  chaddr : List UInt8
  opts : DhcpOptions

/-- `Message::chaddr`: the first `hlen` bytes of the field. -/
def Message.getChaddr (m : Message) : List UInt8 := m.chaddr.take m.hlen.toNat

/-- The 16-byte field `Message::set_chaddr` stores an address in. -/
def chaddrField (chaddr : List UInt8) : List UInt8 := chaddr ++ List.replicate (16 - chaddr.length) 0

/-! ## The server's data -/

/-- dhcproto's `DecodeError`, as far as this server builds one. -/
inductive DecodeError
  | notEnoughBytes
  | other (msg : String)

/-- mirrors errors.rs:26-80, the variants `process_packet` can return. -/
inductive DhcpError
  | missingOption (code : OptionCode)
  | unhandledMessageType (t : MessageType)
  | dhcpDeclineMessage (ip mac : String)
  | missingRelayCode (code : RelayCode)
  | invalidInput (msg : String)
  | genericError (msg : String)
  | tonicStatusError (msg : String)
  | utf8Error
  | packetDecodeFailure (e : DecodeError)
  | packetEncodeFailure (msg : String)
  | addressParseError (msg : String)
  | nonRelayedPacket (addr : Ipv4Addr)
  | unknownPacket (op : UInt8)
  | notMyPacket (server : String)
  | vendorClassParseError (msg : String)

/-- rpc-utils `InterfaceInfo`; `get_mtu` reads only the MTU. -/
structure InterfaceInfo where
  mtu : Option UInt32

/-- rpc-utils `HostConfig`: the interfaces by circuit id. -/
structure HostConfig where
  hostIpAddresses : List (String × InterfaceInfo)

/-- rpc-utils `DhcpConfig`, the fields the reply reads. -/
structure DhcpConfig where
  leaseTimeSecs : UInt32
  renewalTimeSecs : UInt32
  rebindingTimeSecs : UInt32
  carbideNameservers : List Ipv4Addr
  carbideNtpservers : List Ipv4Addr
  carbideProvisioningServerIpv4 : Ipv4Addr
  carbideDhcpServer : Ipv4Addr

/-- mirrors main.rs:563-568, without the API client's settings. -/
structure Config where
  dhcpConfig : DhcpConfig
  hostConfig : Option HostConfig
  relayResponsePort : UInt16

/-- rpc `DhcpRecord`, the fields the reply reads; the interface id is held as
its text, and `prefix` is `networkPrefix` here. -/
structure DhcpRecord where
  gateway : Option String
  address : String
  networkPrefix : String
  fqdn : String
  booturl : Option String
  machineInterfaceId : Option String

/-- rpc `DhcpDiscovery`, the fields this server sets. -/
structure DhcpDiscovery where
  macAddress : String
  relayAddress : String
  vendorString : Option String
  linkAddress : Option String
  circuitId : Option String
  remoteId : Option String

/-- dhcp-common `MachineArchitecture`. -/
inductive MachineArchitecture
  | BiosX86
  | EfiX64
  | Arm64
  | Unknown
  deriving DecidableEq, Repr

/-- `MachineArchitecture::from_str`: the client system architecture number of
the vendor class, or `aarch64`; anything else is `Unknown`, never an error.
mirrors dhcp-common/src/lib.rs:38-59 -/
def MachineArchitecture.fromStr (s : String) : MachineArchitecture :=
  if s = "aarch64" then .Arm64
  else
    match parseSigned 32 s.toList with
    | some 0 => .BiosX86
    | some 7 => .EfiX64
    | some 11 => .Arm64
    | some 16 => .EfiX64
    | some 19 => .Arm64
    | _ => .Unknown

/-- dhcp-common `VendorClass`. -/
structure VendorClass where
  id : String
  arch : MachineArchitecture
  deriving DecidableEq, Repr

/-- `VendorClass::from_str`: a UEFI class `A:B:C:D:E` with the architecture
in its third field, an OS class `id arch`, the BlueField and BMC classes by
name, and `unknown: '…'` for the rest. Its error type has no values, so it is
a total function here.
mirrors dhcp-common/src/lib.rs:93-145 -/
def VendorClass.fromStr (vendorClass : String) : VendorClass :=
  let unknown : VendorClass := ⟨"unknown: '" ++ vendorClass ++ "'", .Unknown⟩
  if vendorClass.toList.contains ':' then
    match vendorClass.toList.splitOn ':' with
    | [id, _, arch, _, _] => ⟨String.ofList id, .fromStr (String.ofList arch)⟩
    | _ => unknown
  else if vendorClass.toList.contains ' ' then
    match vendorClass.toList.splitOn ' ' with
    | [id, arch] => ⟨String.ofList id, .fromStr (String.ofList arch)⟩
    | _ => unknown
  else if vendorClass ∈ ["NVIDIA/BF/OOB", "BF2Client", "PXEClient", "NVIDIA/BF/BMC"] then
    ⟨vendorClass, .Arm64⟩
  else if vendorClass ∈ ["iDRAC", "CPQRIB3"] then ⟨vendorClass, .EfiX64⟩
  else unknown

/-- dhcp-common `VendorClass::is_netboot`.
mirrors dhcp-common/src/lib.rs:147-152 -/
def VendorClass.isNetboot (vc : VendorClass) : Bool := vc.id == "HTTPClient"

example : VendorClass.fromStr "HTTPClient:Arch:00016:UNDI:003001" = ⟨"HTTPClient", .EfiX64⟩ := by
  decide

/-- What `IpNetwork::from_str` gives: a v4 network's mask and broadcast
address, or a v6 network's text. -/
inductive ParsedNetwork
  | v4 (mask broadcast : Ipv4Addr)
  | v6 (text : String)

/-- The functions of other crates the handler calls: dhcproto's codec, std's
`Ipv4Addr` text, `ipnetwork`'s parser and the `Debug` text of an option. -/
structure Libs where
  decode : List UInt8 → Except DecodeError Message
  encode : Message → Except String (List UInt8)
  ipv4ToString : Ipv4Addr → String
  ipv4FromStr : String → Except String Ipv4Addr
  parseIpNetwork : String → Except String ParsedNetwork
  debugOption : DhcpOption → String

/-- A decoded request. -/
structure DecodedPacket where
  packet : Message

/-- mirrors modes/mod.rs:34-55: the handler's discovery, its circuit id and
whether it takes relayed packets only. -/
structure DhcpMode where
  discoverDhcp : DhcpDiscovery → Except DhcpError DhcpRecord
  getCircuitId : DecodedPacket → String → Option String
  shouldBeRelayed : Bool

/-- mirrors metrics.rs:38-48. -/
inductive MessageTypeLabel
  | discover
  | request
  | offer
  | ack
  | nak
  | release
  | decline
  | inform
  | other
  deriving DecidableEq, Repr

/-- mirrors metrics.rs:50-64. -/
def MessageTypeLabel.ofMessageType : MessageType → MessageTypeLabel
  | .discover => .discover
  | .request => .request
  | .offer => .offer
  | .ack => .ack
  | .nak => .nak
  | .release => .release
  | .decline => .decline
  | .inform => .inform
  | .other _ => .other

/-- mirrors packet_handler.rs:211-220. -/
structure Packet where
  encodedPacket : List UInt8
  sentPacket : Message
  dstAddress : Ipv4Addr
  dstPort : UInt16
  messageType : MessageTypeLabel

/-- mirrors util.rs:81-83: `from_utf8`, whatever the name says. -/
def u8ToHexString (data : List UInt8) : Except DhcpError String :=
  match fromUtf8 data with
  | some s => .ok s
  | none => .error .utf8Error

/-- mirrors util.rs:74-79. -/
def u8ToMac (data : List UInt8) : String :=
  ":".intercalate (data.map fun x => String.ofList [hexDigit (x.toNat / 16), hexDigit (x.toNat % 16)])

section Handler

variable (L : Libs)

namespace DecodedPacket

/-- mirrors packet_handler.rs:53-84 (`get_option_val` into a `String`). The
relay code is given exactly when the option asked for is option 82. -/
def getOptionValString (p : DecodedPacket) (option : OptionCode) (relayCode : Option RelayCode) :
    Except DhcpError String :=
  match p.packet.opts.get option with
  | some (.classIdentifier x) => u8ToHexString x
  | some (.relayAgentInformation agentInfo) =>
    let relayCode := relayCode.get!
    match RelayAgentInformation.get agentInfo relayCode with
    | none => .error (.missingRelayCode relayCode)
    | some (.linkSelection ip) => .ok (L.ipv4ToString ip)
    | some (.agentCircuitId x) => u8ToHexString x
    | some (.agentRemoteId x) => u8ToHexString x
    | some (.other _ _) => .error (.genericError "Unknown relay option.")
  | some value => .error (.genericError ("option is not matched, got: " ++ L.debugOption value ++ "."))
  | none => .error (.missingOption option)

/-- mirrors packet_handler.rs:87-103 (`get_option_val` into a `MessageType`). -/
def getOptionValMessageType (p : DecodedPacket) (option : OptionCode) :
    Except DhcpError MessageType :=
  match p.packet.opts.get option with
  | some (.messageType x) => .ok x
  | some value =>
    .error (.genericError ("Message type is not matched, got: " ++ L.debugOption value ++ "."))
  | none => .error (.missingOption option)

/-- mirrors packet_handler.rs:105-121 (`get_option_val` into an `Option<Ipv4Addr>`). -/
def getOptionValIpv4Addr (p : DecodedPacket) (option : OptionCode) : Option Ipv4Addr :=
  match p.packet.opts.get option with
  | some (.serverIdentifier x) => some x
  | _ => none

/-- mirrors packet_handler.rs:125-132. -/
def isRelayed (p : DecodedPacket) : Except DhcpError Unit :=
  let giaddress := p.packet.giaddr
  if giaddress = Ipv4Addr.broadcast ∨ giaddress = Ipv4Addr.unspecified then
    .error (.nonRelayedPacket giaddress)
  else .ok ()

/-- mirrors packet_handler.rs:134-144. -/
def isThisForUs (p : DecodedPacket) (config : Config) : Except DhcpError Unit :=
  match p.getOptionValIpv4Addr .serverIdentifier with
  | some val =>
    if val = config.dhcpConfig.carbideDhcpServer then .ok ()
    else .error (.notMyPacket (L.ipv4ToString val))
  | none => .ok ()

/-- mirrors packet_handler.rs:146-148. -/
def getVendorString (p : DecodedPacket) : Option String :=
  (p.getOptionValString L .classIdentifier none).toOption

/-- mirrors packet_handler.rs:150-156. -/
def getLinkSelect (p : DecodedPacket) : Option String :=
  (p.getOptionValString L .relayAgentInformation (some .linkSelection)).toOption

/-- mirrors packet_handler.rs:158-164. -/
def getCircuitId (p : DecodedPacket) : Option String :=
  (p.getOptionValString L .relayAgentInformation (some .agentCircuitId)).toOption

/-- mirrors packet_handler.rs:166-172. -/
def getRemoteId (p : DecodedPacket) : Option String :=
  (p.getOptionValString L .relayAgentInformation (some .agentRemoteId)).toOption

/-- mirrors packet_handler.rs:174-187, without the fields it leaves `None`. -/
def getDiscoveryRequest (p : DecodedPacket) (handler : DhcpMode) (circuitId : String) :
    DhcpDiscovery where
  macAddress := u8ToMac p.packet.getChaddr
  relayAddress := L.ipv4ToString p.packet.giaddr
  vendorString := p.getVendorString L
  linkAddress := p.getLinkSelect L
  circuitId := handler.getCircuitId p circuitId
  remoteId := p.getRemoteId L

/-- mirrors packet_handler.rs:189-209. -/
def decideDstIp (p : DecodedPacket) (relayResponsePort : UInt16) : Ipv4Addr × UInt16 :=
  if p.packet.giaddr ≠ Ipv4Addr.unspecified then (p.packet.giaddr, relayResponsePort)
  else if p.packet.ciaddr ≠ Ipv4Addr.unspecified then (p.packet.ciaddr, 68)
  else (Ipv4Addr.broadcast, 68)

end DecodedPacket

/-- mirrors packet_handler.rs:607-617. -/
def getMtu (circuitId : String) (hostConfig : Option HostConfig) : UInt16 :=
  let mtu : UInt32 :=
    match ((hostConfig.map (·.hostIpAddresses)).getD []).lookup circuitId with
    | some info => info.mtu.getD 1500
    | none => 1500
  if mtu.toNat < 2 ^ 16 then mtu.toUInt16 else 1500

/-- The header `create_dhcp_reply_packet` and `nak_packet` both set: a
BOOTREPLY copying the request's `xid`, `flags`, `ciaddr`, `giaddr` and
`chaddr`, with the given `yiaddr`, `siaddr` and options. -/
def replyHeader (src : DecodedPacket) (yiaddr siaddr : Ipv4Addr) (opts : DhcpOptions) : Message where
  opcode := .bootReply
  htype := .eth
  hlen := UInt8.ofNat src.packet.getChaddr.length
  hops := 0
  xid := src.packet.xid
  secs := 0
  flags := src.packet.flags
  ciaddr := src.packet.ciaddr
  yiaddr := yiaddr
  siaddr := siaddr
  giaddr := src.packet.giaddr
  chaddr := chaddrField src.packet.getChaddr
  opts := opts

/-- `[1] ++ chaddr`: the client identifier both replies carry. -/
def clientIdentifier (src : DecodedPacket) : List UInt8 := 1 :: src.packet.getChaddr

/-- mirrors packet_handler.rs:570-605. -/
def nakPacket (src : DecodedPacket) (carbideProvisioningServerIpv4 carbideDhcpServer : Ipv4Addr) :
    Except DhcpError Message :=
  .ok (replyHeader src 0 carbideProvisioningServerIpv4
    ((((DhcpOptions.empty.insert (.messageType .nak)).insert
      (.clientIdentifier (clientIdentifier src))).insert (.serverIdentifier carbideDhcpServer))))

/-- mirrors packet_handler.rs:371-387: the reply's type, or the NAK or error
that ends the reply early. -/
def replyMessageType (src : DecodedPacket) (config : Config) (allocatedAddress : Ipv4Addr) :
    MessageType → Except DhcpError (Except Message MessageType)
  | .discover => .ok (.ok .offer)
  | .request =>
    if src.packet.ciaddr = Ipv4Addr.unspecified then .ok (.ok .ack)
    else if src.packet.ciaddr = allocatedAddress then .ok (.ok .ack)
    else (nakPacket src config.dhcpConfig.carbideProvisioningServerIpv4
      config.dhcpConfig.carbideDhcpServer).map .error
  | .decline => .error (.dhcpDeclineMessage (L.ipv4ToString src.packet.ciaddr)
      (":".intercalate (src.packet.getChaddr.map fun x => String.ofList (Nat.toDigits 16 x.toNat))))
  | t => .error (.unhandledMessageType t)

/-- mirrors packet_handler.rs:526-536: the circuit and remote ids echoed to the
relay. -/
def echoedIds (src : DecodedPacket) : RelayAgentInformation :=
  let relayAgent : RelayAgentInformation := SortedMap.empty
  let relayAgent := match src.getCircuitId L with
    | some circuitId => RelayAgentInformation.insert (.agentCircuitId (strBytes circuitId)) relayAgent
    | none => relayAgent
  match src.getRemoteId L with
  | some remoteId => RelayAgentInformation.insert (.agentRemoteId (strBytes remoteId)) relayAgent
  | none => relayAgent

/-- mirrors packet_handler.rs:526-545: the sub-options echoed to the relay. -/
def relayAgentEcho (src : DecodedPacket) : Except DhcpError RelayAgentInformation :=
  match src.getLinkSelect L with
  | some linkSelect => do
    let ip ← (L.ipv4FromStr linkSelect).mapError .addressParseError
    pure (RelayAgentInformation.insert (.linkSelection ip) (echoedIds L src))
  | none => pure (echoedIds L src)

/-- mirrors packet_handler.rs:556-566: option 43 with the interface id. -/
def vendorOption (forgeResponse : DhcpRecord) : List UInt8 :=
  let machineId := strBytes (forgeResponse.machineInterfaceId.getD "")
  [6, 4, 0, 0, 0, 8, 70] ++ UInt8.ofNat machineId.length :: machineId

/-- The boot file of a netboot client: the URL discovery sent, or the iPXE
binary for its architecture on the provisioning server.
mirrors util.rs:85-120 -/
def machineGetFilename (dhcpResponse : DhcpRecord) (vendorClass : VendorClass) (config : Config) :
    List UInt8 :=
  match dhcpResponse.booturl with
  | some url => strBytes url
  | none =>
    if !vendorClass.isNetboot then []
    else
      let baseUrl := L.ipv4ToString config.dhcpConfig.carbideProvisioningServerIpv4
      match vendorClass.arch with
      | .EfiX64 => strBytes ("http://" ++ baseUrl ++ ":8080/public/blobs/internal/x86_64/ipxe.efi")
      | .Arm64 => strBytes ("http://" ++ baseUrl ++ ":8080/public/blobs/internal/aarch64/ipxe.efi")
      | .BiosX86 | .Unknown => []

/-- mirrors packet_handler.rs:469-524: the options of an Offer or Ack, up to
the vendor class. -/
def replyOptions (src : DecodedPacket) (circuitId : String) (forgeResponse : DhcpRecord)
    (config : Config) (replyType : MessageType) (relayAddress prefixMask broadcast : Ipv4Addr)
    (vendorClass : Option VendorClass) : DhcpOptions :=
  let opts := DhcpOptions.empty
    |>.insert (.messageType replyType)
    |>.insert (.subnetMask prefixMask)
    |>.insert (.router [relayAddress])
    |>.insert (.nameServer config.dhcpConfig.carbideNameservers)
    |>.insert (.domainNameServer config.dhcpConfig.carbideNameservers)
    |>.insert (.domainName forgeResponse.fqdn)
    |>.insert (.hostname forgeResponse.fqdn)
    |>.insert (.broadcastAddr broadcast)
    |>.insert (.addressLeaseTime config.dhcpConfig.leaseTimeSecs)
    |>.insert (.serverIdentifier config.dhcpConfig.carbideDhcpServer)
    |>.insert (.renewal config.dhcpConfig.renewalTimeSecs)
    |>.insert (.rebinding config.dhcpConfig.rebindingTimeSecs)
    |>.insert (.interfaceMtu (getMtu circuitId config.hostConfig))
    |>.insert (.clientIdentifier (clientIdentifier src))
    |>.insert (.ntpServers config.dhcpConfig.carbideNtpservers)
  match vendorClass with
  | none => opts
  | some vc =>
    let opts := opts.insert (.classIdentifier (strBytes vc.id))
    if vc.isNetboot then opts.insert (.bootfileName (machineGetFilename L forgeResponse vc config))
    else opts

/-- mirrors packet_handler.rs:389-405: the subnet mask and broadcast address of
the record's prefix, which must be a v4 network. -/
def prefixMaskAndBroadcast (networkPrefix : String) : Except DhcpError (Ipv4Addr × Ipv4Addr) :=
  match L.parseIpNetwork networkPrefix with
  | .ok (.v4 mask broadcast) => .ok (mask, broadcast)
  | .ok (.v6 text) =>
    .error (.genericError ("Prefix (" ++ text ++ ") is an IPv6 network, which is not supported."))
  | .error e =>
    .error (.genericError ("prefix value in deserialized protobuf is not an IP Network: " ++ e))

/-- mirrors packet_handler.rs:389-568: an Offer or an Ack of the allocated
address. -/
def offerOrAck (src : DecodedPacket) (circuitId : String) (forgeResponse : DhcpRecord)
    (config : Config) (replyType : MessageType) (relayAddress allocatedAddress : Ipv4Addr) :
    Except DhcpError Message := do
  let network ← prefixMaskAndBroadcast L forgeResponse.networkPrefix
  let vendorClass := (src.getVendorString L).map VendorClass.fromStr
  let opts := replyOptions L src circuitId forgeResponse config replyType relayAddress network.1
    network.2 vendorClass
  let relayAgent ← relayAgentEcho L src
  let opts := if relayAgent.entries.isEmpty then opts
    else opts.insert (.relayAgentInformation relayAgent)
  let opts := opts.insert (.vendorExtensions (vendorOption forgeResponse))
  pure (replyHeader src allocatedAddress config.dhcpConfig.carbideProvisioningServerIpv4 opts)

/-- mirrors packet_handler.rs:368-568. -/
def createDhcpReplyPacket (src : DecodedPacket) (circuitId : String) (forgeResponse : DhcpRecord)
    (config : Config) (dhcpMsgType : MessageType) : Except DhcpError Message := do
  let relayAddress := match forgeResponse.gateway with
    | some x => (L.ipv4FromStr x).toOption.getD Ipv4Addr.unspecified
    | none => config.dhcpConfig.carbideDhcpServer
  let allocatedAddress ← (L.ipv4FromStr forgeResponse.address).mapError .addressParseError
  let replyType ← replyMessageType L src config allocatedAddress dhcpMsgType
  match replyType with
  | .error nak => pure nak
  | .ok t => offerOrAck L src circuitId forgeResponse config t relayAddress allocatedAddress

/-- mirrors packet_handler.rs:36-37. -/
def pktTypeOpRequest : UInt8 := 1

/-- mirrors packet_handler.rs:36-37. -/
def bootpChaddrLen : UInt8 := 16

/-- mirrors packet_handler.rs:271-366, without the metrics and traces. -/
def processPacket (buf : List UInt8) (config : Config) (circuitId : String) (handler : DhcpMode) :
    Except DhcpError Packet := do
  let bootpOp ← buf.head?.elim (.error (.packetDecodeFailure .notEnoughBytes)) .ok
  let _ ← throwIf (bootpOp ≠ pktTypeOpRequest) (.unknownPacket bootpOp)
  let packet ← (L.decode buf).mapError .packetDecodeFailure
  let hardwareAddressLen := packet.hlen
  let _ ← throwIf (hardwareAddressLen > bootpChaddrLen)
    (.invalidInput ("DHCP hardware address length " ++ toString hardwareAddressLen ++
      " exceeds the " ++ toString bootpChaddrLen ++ "-byte BOOTP field"))
  let decodedPacket : DecodedPacket := ⟨packet⟩
  let msgType := decodedPacket.getOptionValMessageType L .messageType
  let _ ← (if handler.shouldBeRelayed then decodedPacket.isRelayed else pure ())
  let _ ← decodedPacket.isThisForUs L config
  let msgType ← msgType
  let dhcpResponse ← handler.discoverDhcp (decodedPacket.getDiscoveryRequest L handler circuitId)
  let dst := decodedPacket.decideDstIp config.relayResponsePort
  let packet ← createDhcpReplyPacket L decodedPacket circuitId dhcpResponse config msgType
  let replyMessageType := packet.opts.msgType.elim .other MessageTypeLabel.ofMessageType
  let encodedPacket ← (L.encode packet).mapError .packetEncodeFailure
  pure ⟨encodedPacket, packet, dst.1, dst.2, replyMessageType⟩

end Handler

/-! ## Reading options and sub-options -/

@[simp] theorem DhcpOptions.get_insert (opts : DhcpOptions) (o : DhcpOption) (c : OptionCode) :
    (opts.insert o).get c = if c.code = o.code then some o else opts.get c :=
  SortedMap.lookup_insert opts.map

@[simp] theorem DhcpOptions.get_empty (c : OptionCode) : DhcpOptions.empty.get c = none := rfl

@[simp] theorem RelayAgentInformation.get_insert (m : RelayAgentInformation) (info : RelayInfo)
    (c : RelayCode) :
    RelayAgentInformation.get (RelayAgentInformation.insert info m) c =
      if c.code = info.code then some info else RelayAgentInformation.get m c :=
  SortedMap.lookup_insert m

@[simp] theorem RelayAgentInformation.get_empty (c : RelayCode) :
    RelayAgentInformation.get SortedMap.empty c = none := rfl

/-- The sub-option `code` of a message's relay agent information (option 82). -/
def Message.relaySubOption (m : Message) (code : RelayCode) : Option RelayInfo :=
  match m.opts.get .relayAgentInformation with
  | some (.relayAgentInformation info) => RelayAgentInformation.get info code
  | _ => none

theorem Message.relaySubOption_of_get {m : Message} {info : RelayAgentInformation}
    (h : m.opts.get .relayAgentInformation = some (.relayAgentInformation info)) (c : RelayCode) :
    m.relaySubOption c = RelayAgentInformation.get info c := by
  rw [relaySubOption, h]

theorem Message.relaySubOption_of_get_none {m : Message}
    (h : m.opts.get .relayAgentInformation = none) (c : RelayCode) : m.relaySubOption c = none := by
  rw [relaySubOption, h]

theorem DhcpOptions.msgType_eq_some {opts : DhcpOptions} {t : MessageType} :
    opts.msgType = some t ↔ opts.get .messageType = some (.messageType t) := by
  unfold msgType
  split
  case h_1 t' h => simp [h]
  case h_2 h => exact ⟨fun h' => (nomatch h'), fun h' => (h t h').elim⟩

section Specs

variable (L : Libs)

theorem toOption_u8ToHexString (data : List UInt8) :
    (u8ToHexString data).toOption = fromUtf8 data := by
  unfold u8ToHexString
  cases fromUtf8 data <;> rfl

theorem getOptionValMessageType_eq_ok {p : DecodedPacket} {o : OptionCode} {t : MessageType} :
    p.getOptionValMessageType L o = .ok t ↔ p.packet.opts.get o = some (.messageType t) := by
  unfold DecodedPacket.getOptionValMessageType
  split
  case h_1 t' h => simp [h]
  case h_2 v h hv => exact ⟨fun h' => (nomatch h'), fun h' => by cases hv.symm.trans h'; exact (h t rfl).elim⟩
  case h_3 h => exact ⟨fun h' => (nomatch h'), fun h' => (nomatch h.symm.trans h')⟩

/-- A relay sub-option of the request is what `get_option_val` reads for its code. -/
theorem getOptionValString_relay {p : DecodedPacket} {c : RelayCode} {i : RelayInfo}
    (h : p.packet.relaySubOption c = some i) :
    p.getOptionValString L .relayAgentInformation (some c) =
      match i with
      | .linkSelection ip => .ok (L.ipv4ToString ip)
      | .agentCircuitId x => u8ToHexString x
      | .agentRemoteId x => u8ToHexString x
      | .other _ _ => .error (.genericError "Unknown relay option.") := by
  unfold Message.relaySubOption at h
  unfold DecodedPacket.getOptionValString
  split at h
  case h_1 info hinfo =>
    rw [hinfo]
    show (match RelayAgentInformation.get info c with
      | none => _ | some (.linkSelection ip) => _ | some (.agentCircuitId x) => _
      | some (.agentRemoteId x) => _ | some (.other _ _) => _) = _
    rw [h]
    cases i <;> rfl
  case h_2 => cases h

theorem getCircuitId_of_relaySubOption {p : DecodedPacket} {x : List UInt8}
    (h : p.packet.relaySubOption .agentCircuitId = some (.agentCircuitId x)) :
    p.getCircuitId L = fromUtf8 x := by
  rw [DecodedPacket.getCircuitId, getOptionValString_relay L h, toOption_u8ToHexString]

theorem getRemoteId_of_relaySubOption {p : DecodedPacket} {x : List UInt8}
    (h : p.packet.relaySubOption .agentRemoteId = some (.agentRemoteId x)) :
    p.getRemoteId L = fromUtf8 x := by
  rw [DecodedPacket.getRemoteId, getOptionValString_relay L h, toOption_u8ToHexString]

theorem getLinkSelect_of_relaySubOption {p : DecodedPacket} {a : Ipv4Addr}
    (h : p.packet.relaySubOption .linkSelection = some (.linkSelection a)) :
    p.getLinkSelect L = some (L.ipv4ToString a) := by
  rw [DecodedPacket.getLinkSelect, getOptionValString_relay L h]
  rfl

theorem get_echoedIds (src : DecodedPacket) :
    RelayAgentInformation.get (echoedIds L src) .agentCircuitId =
        (src.getCircuitId L).map (fun c => .agentCircuitId (strBytes c)) ∧
      RelayAgentInformation.get (echoedIds L src) .agentRemoteId =
        (src.getRemoteId L).map (fun r => .agentRemoteId (strBytes r)) := by
  unfold echoedIds
  cases src.getCircuitId L <;> cases src.getRemoteId L <;> simp [RelayCode.code, RelayInfo.code]

/-- The echo holds the circuit and remote ids `get_option_val` read, and the
link selection address parsed back from its text. -/
theorem relayAgentEcho_eq_ok {src : DecodedPacket} {info : RelayAgentInformation}
    (h : relayAgentEcho L src = .ok info) :
    RelayAgentInformation.get info .agentCircuitId =
        (src.getCircuitId L).map (fun c => .agentCircuitId (strBytes c)) ∧
      RelayAgentInformation.get info .agentRemoteId =
        (src.getRemoteId L).map (fun r => .agentRemoteId (strBytes r)) ∧
      ∀ t, src.getLinkSelect L = some t →
        ∃ ip, L.ipv4FromStr t = .ok ip ∧
          RelayAgentInformation.get info .linkSelection = some (.linkSelection ip) := by
  obtain ⟨hc, hr⟩ := get_echoedIds L src
  unfold relayAgentEcho at h
  cases hl : src.getLinkSelect L with
  | none =>
    simp only [hl] at h
    cases h
    exact ⟨hc, hr, fun t ht => nomatch ht⟩
  | some t =>
    simp only [hl] at h
    obtain ⟨ip, hip, h⟩ := Except.bind_eq_ok h
    cases h
    refine ⟨?_, ?_, fun t' ht' => ⟨ip, by cases ht'; simpa using hip, by simp [RelayCode.code,
      RelayInfo.code]⟩⟩
    · simp [RelayCode.code, RelayInfo.code, hc]
    · simp [RelayCode.code, RelayInfo.code, hr]

theorem replyOptions_get (src : DecodedPacket) (circuitId : String) (forgeResponse : DhcpRecord)
    (config : Config) (replyType : MessageType) (relayAddress prefixMask broadcast : Ipv4Addr)
    (vendorClass : Option VendorClass) :
    (replyOptions L src circuitId forgeResponse config replyType relayAddress prefixMask broadcast
        vendorClass).get .messageType = some (.messageType replyType) ∧
      (replyOptions L src circuitId forgeResponse config replyType relayAddress prefixMask broadcast
        vendorClass).get .relayAgentInformation = none := by
  unfold replyOptions
  cases vendorClass with
  | none => simp [DhcpOption.code, OptionCode.code]
  | some vc => by_cases hn : vc.isNetboot <;> simp [hn, DhcpOption.code, OptionCode.code]

@[simp] theorem replyHeader_opts (src : DecodedPacket) (yiaddr siaddr : Ipv4Addr)
    (opts : DhcpOptions) : (replyHeader src yiaddr siaddr opts).opts = opts := rfl

theorem getChaddr_replyHeader {src : DecodedPacket} (h : src.packet.hlen ≤ bootpChaddrLen)
    (yiaddr siaddr : Ipv4Addr) (opts : DhcpOptions) :
    (replyHeader src yiaddr siaddr opts).getChaddr = src.packet.getChaddr := by
  have hlen : src.packet.getChaddr.length ≤ 16 := by
    rw [Message.getChaddr, List.length_take]
    have : src.packet.hlen.toNat ≤ 16 := UInt8.le_iff_toNat_le.1 h
    omega
  rw [Message.getChaddr, replyHeader, chaddrField]
  simp only [UInt8.toNat_ofNat', Nat.mod_eq_of_lt (by omega : src.packet.getChaddr.length < 2 ^ 8)]
  exact List.take_left' rfl

theorem nakPacket_eq (src : DecodedPacket) (siaddr server : Ipv4Addr) :
    ∃ opts, nakPacket src siaddr server = .ok (replyHeader src 0 siaddr opts) ∧
      opts.msgType = some .nak :=
  ⟨_, rfl, by simp [DhcpOptions.msgType_eq_some, DhcpOption.code, OptionCode.code]⟩

/-- The reply type `create_dhcp_reply_packet` picks for each request type. -/
theorem replyMessageType_eq_ok {src : DecodedPacket} {config : Config} {alloc : Ipv4Addr}
    {t : MessageType} {r : Except Message MessageType}
    (h : replyMessageType L src config alloc t = .ok r) :
    (t = .discover ∧ r = .ok .offer) ∨
      (t = .request ∧ (src.packet.ciaddr = Ipv4Addr.unspecified ∨ src.packet.ciaddr = alloc) ∧
        r = .ok .ack) ∨
      (t = .request ∧ src.packet.ciaddr ≠ Ipv4Addr.unspecified ∧ src.packet.ciaddr ≠ alloc ∧
        ∃ opts, r = .error (replyHeader src 0 config.dhcpConfig.carbideProvisioningServerIpv4 opts) ∧
          opts.msgType = some .nak) := by
  unfold replyMessageType at h
  split at h
  case h_1 => cases h; exact .inl ⟨rfl, rfl⟩
  case h_2 =>
    split_ifs at h with h0 ha
    · cases h; exact .inr (.inl ⟨rfl, .inl h0, rfl⟩)
    · cases h; exact .inr (.inl ⟨rfl, .inr ha, rfl⟩)
    · obtain ⟨opts, hn, hmt⟩ := nakPacket_eq src config.dhcpConfig.carbideProvisioningServerIpv4
        config.dhcpConfig.carbideDhcpServer
      rw [hn] at h
      cases h
      exact .inr (.inr ⟨rfl, h0, ha, opts, rfl, hmt⟩)
  case h_3 => cases h
  case h_4 => cases h

theorem get_of_isEmpty {info : RelayAgentInformation} (h : info.entries.isEmpty = true)
    (c : RelayCode) : RelayAgentInformation.get info c = none := by
  rw [RelayAgentInformation.get, SortedMap.lookup, List.isEmpty_iff.1 h]
  rfl

/-- An Offer or Ack carries its type and the relay echo as option 82. -/
theorem offerOrAck_eq_ok {src : DecodedPacket} {circuitId : String} {forgeResponse : DhcpRecord}
    {config : Config} {t : MessageType} {relayAddress alloc : Ipv4Addr} {reply : Message}
    (h : offerOrAck L src circuitId forgeResponse config t relayAddress alloc = .ok reply) :
    ∃ info opts, relayAgentEcho L src = .ok info ∧
      reply = replyHeader src alloc config.dhcpConfig.carbideProvisioningServerIpv4 opts ∧
      opts.msgType = some t ∧ ∀ c, reply.relaySubOption c = RelayAgentInformation.get info c := by
  unfold offerOrAck at h
  obtain ⟨network, -, h⟩ := Except.bind_eq_ok h
  obtain ⟨info, hinfo, h⟩ := Except.bind_eq_ok h
  cases h
  obtain ⟨hmt, h82⟩ := replyOptions_get L src circuitId forgeResponse config t relayAddress
    network.1 network.2 ((src.getVendorString L).map VendorClass.fromStr)
  refine ⟨info, _, hinfo, rfl, ?_, fun c => ?_⟩
  · rw [DhcpOptions.msgType_eq_some]
    split_ifs <;> simp [hmt, DhcpOption.code, OptionCode.code]
  · by_cases he : info.entries.isEmpty = true
    · rw [get_of_isEmpty he]
      apply Message.relaySubOption_of_get_none
      simp [he, h82, DhcpOption.code, OptionCode.code]
    · apply Message.relaySubOption_of_get
      simp [he, DhcpOption.code, OptionCode.code]

/-- Everything a built reply is: the request's header around `yiaddr`, and
either an Offer or Ack of the allocated address with the relay echo, or a NAK. -/
theorem createDhcpReplyPacket_eq_ok {src : DecodedPacket} {circuitId : String}
    {forgeResponse : DhcpRecord} {config : Config} {t : MessageType} {reply : Message}
    (h : createDhcpReplyPacket L src circuitId forgeResponse config t = .ok reply) :
    ∃ alloc, L.ipv4FromStr forgeResponse.address = .ok alloc ∧
      (∃ yiaddr siaddr opts, reply = replyHeader src yiaddr siaddr opts) ∧
      ((((t = .discover ∧ reply.opts.msgType = some .offer) ∨
          (t = .request ∧ (src.packet.ciaddr = Ipv4Addr.unspecified ∨ src.packet.ciaddr = alloc) ∧
            reply.opts.msgType = some .ack)) ∧
        reply.yiaddr = alloc ∧
        ∃ info, relayAgentEcho L src = .ok info ∧
          ∀ c, reply.relaySubOption c = RelayAgentInformation.get info c) ∨
      (t = .request ∧ src.packet.ciaddr ≠ Ipv4Addr.unspecified ∧ src.packet.ciaddr ≠ alloc ∧
        reply.opts.msgType = some .nak ∧ reply.yiaddr = 0)) := by
  unfold createDhcpReplyPacket at h
  obtain ⟨alloc, halloc, h⟩ := Except.bind_eq_ok h
  obtain ⟨r, hr, h⟩ := Except.bind_eq_ok h
  refine ⟨alloc, Except.mapError_eq_ok.1 halloc, ?_⟩
  rcases replyMessageType_eq_ok L hr with ⟨rfl, rfl⟩ | ⟨rfl, hc, rfl⟩ | ⟨rfl, h0, ha, opts, rfl, hmt⟩
  · obtain ⟨info, opts, hinfo, rfl, hmt, hsub⟩ := offerOrAck_eq_ok L h
    exact ⟨⟨_, _, _, rfl⟩, .inl ⟨.inl ⟨rfl, hmt⟩, rfl, info, hinfo, hsub⟩⟩
  · obtain ⟨info, opts, hinfo, rfl, hmt, hsub⟩ := offerOrAck_eq_ok L h
    exact ⟨⟨_, _, _, rfl⟩, .inl ⟨.inr ⟨rfl, hc, hmt⟩, rfl, info, hinfo, hsub⟩⟩
  · cases h
    exact ⟨⟨_, _, _, rfl⟩, .inr ⟨rfl, h0, ha, hmt, rfl⟩⟩

/-- A sub-option the request carries comes back in the relay echo: a circuit
or remote id only when its bytes are UTF-8, and then byte for byte. -/
theorem relaySubOption_echo {src : DecodedPacket} {info : RelayAgentInformation}
    (h : relayAgentEcho L src = .ok info) :
    (∀ x, src.packet.relaySubOption .agentCircuitId = some (.agentCircuitId x) →
      RelayAgentInformation.get info .agentCircuitId = (fromUtf8 x).map fun _ => .agentCircuitId x) ∧
    (∀ x, src.packet.relaySubOption .agentRemoteId = some (.agentRemoteId x) →
      RelayAgentInformation.get info .agentRemoteId = (fromUtf8 x).map fun _ => .agentRemoteId x) ∧
    (∀ a, src.packet.relaySubOption .linkSelection = some (.linkSelection a) →
      L.ipv4FromStr (L.ipv4ToString a) = .ok a →
      RelayAgentInformation.get info .linkSelection = some (.linkSelection a)) := by
  obtain ⟨hc, hr, hl⟩ := relayAgentEcho_eq_ok L h
  refine ⟨fun x hx => ?_, fun x hx => ?_, fun a ha hparse => ?_⟩
  · rw [hc, getCircuitId_of_relaySubOption L hx]
    cases hs : fromUtf8 x with
    | none => rfl
    | some s => simp [strBytes_of_fromUtf8 hs]
  · rw [hr, getRemoteId_of_relaySubOption L hx]
    cases hs : fromUtf8 x with
    | none => rfl
    | some s => simp [strBytes_of_fromUtf8 hs]
  · obtain ⟨ip, hip, hget⟩ := hl _ (getLinkSelect_of_relaySubOption L ha)
    rw [hparse] at hip
    cases hip
    exact hget

/-- What a successful run of `process_packet` went through: a BOOTREQUEST
that decodes with a short enough `chaddr` and a message type, a record from
discovery, a reply built for it and encoded. -/
theorem processPacket_eq_ok {buf : List UInt8} {config : Config} {circuitId : String}
    {handler : DhcpMode} {pkt : Packet}
    (h : processPacket L buf config circuitId handler = .ok pkt) :
    ∃ req rec t reply, buf.head? = some pktTypeOpRequest ∧ L.decode buf = .ok req ∧
      req.hlen ≤ bootpChaddrLen ∧ req.opts.msgType = some t ∧
      handler.discoverDhcp (DecodedPacket.getDiscoveryRequest L ⟨req⟩ handler circuitId) = .ok rec ∧
      createDhcpReplyPacket L ⟨req⟩ circuitId rec config t = .ok reply ∧
      L.encode reply = .ok pkt.encodedPacket ∧ pkt.sentPacket = reply ∧
      (pkt.dstAddress, pkt.dstPort) = DecodedPacket.decideDstIp ⟨req⟩ config.relayResponsePort := by
  unfold processPacket at h
  obtain ⟨b, hb, h⟩ := Except.bind_eq_ok h
  obtain ⟨_, hop, h⟩ := Except.bind_eq_ok h
  obtain ⟨req, hreq, h⟩ := Except.bind_eq_ok h
  obtain ⟨_, hlen, h⟩ := Except.bind_eq_ok h
  obtain ⟨_, -, h⟩ := Except.bind_eq_ok h
  obtain ⟨_, -, h⟩ := Except.bind_eq_ok h
  obtain ⟨t, ht, h⟩ := Except.bind_eq_ok h
  obtain ⟨rec, hrec, h⟩ := Except.bind_eq_ok h
  obtain ⟨reply, hreply, h⟩ := Except.bind_eq_ok h
  obtain ⟨enc, henc, h⟩ := Except.bind_eq_ok h
  cases h
  have hhead : buf.head? = some b := by
    cases hbuf : buf.head? <;> simp only [hbuf, Option.elim] at hb
    · cases hb
    · cases hb; rfl
  refine ⟨req, rec, t, reply, ?_, Except.mapError_eq_ok.1 hreq, ?_, ?_, hrec, hreply,
    Except.mapError_eq_ok.1 henc, rfl, rfl⟩
  · rw [hhead, not_not.1 (throwIf_eq_ok.1 hop)]
  · have hle := throwIf_eq_ok.1 hlen
    rw [gt_iff_lt, UInt8.lt_iff_toNat_lt] at hle
    exact UInt8.le_iff_toNat_le.2 (by omega)
  · exact DhcpOptions.msgType_eq_some.2 ((getOptionValMessageType_eq_ok L).1 ht)

theorem isRelayed_eq_ok {p : DecodedPacket} {u : Unit} :
    p.isRelayed = .ok u ↔
      p.packet.giaddr ≠ Ipv4Addr.unspecified ∧ p.packet.giaddr ≠ Ipv4Addr.broadcast := by
  unfold DecodedPacket.isRelayed
  by_cases h : p.packet.giaddr = Ipv4Addr.broadcast ∨ p.packet.giaddr = Ipv4Addr.unspecified
  · rw [if_pos h]
    simp only [reduceCtorEq, false_iff, not_and_or, not_not]
    exact h.symm
  · rw [if_neg h]
    simp only [not_or] at h
    exact ⟨fun _ => ⟨h.2, h.1⟩, fun _ => rfl⟩

theorem getOptionValIpv4Addr_eq_some {p : DecodedPacket} {a : Ipv4Addr} :
    p.getOptionValIpv4Addr .serverIdentifier = some a ↔
      p.packet.opts.get .serverIdentifier = some (.serverIdentifier a) := by
  unfold DecodedPacket.getOptionValIpv4Addr
  split
  case h_1 x h => simp [h]
  case h_2 h => exact ⟨fun h' => (nomatch h'), fun h' => (h a h').elim⟩

/-- `is_this_for_us` passes a request exactly when the server identifier it
names, if any, is this server. -/
theorem isThisForUs_eq_ok {p : DecodedPacket} {config : Config} {u : Unit} :
    p.isThisForUs L config = .ok u ↔
      ∀ sid, p.packet.opts.get .serverIdentifier = some (.serverIdentifier sid) →
        sid = config.dhcpConfig.carbideDhcpServer := by
  unfold DecodedPacket.isThisForUs
  cases hv : p.getOptionValIpv4Addr .serverIdentifier with
  | none =>
    refine ⟨fun _ sid hsid => ?_, fun _ => rfl⟩
    rw [← getOptionValIpv4Addr_eq_some, hv] at hsid
    cases hsid
  | some val =>
    have hget := getOptionValIpv4Addr_eq_some.1 hv
    by_cases hs : val = config.dhcpConfig.carbideDhcpServer
    · simp only [if_pos hs, true_iff]
      intro sid hsid
      rw [hget] at hsid
      cases hsid
      exact hs
    · simp only [if_neg hs, reduceCtorEq, false_iff, not_forall]
      exact ⟨val, hget, hs⟩

/-- The relay and ownership checks a successful `process_packet` passed. -/
theorem processPacket_checks {buf : List UInt8} {config : Config} {circuitId : String}
    {handler : DhcpMode} {pkt : Packet}
    (h : processPacket L buf config circuitId handler = .ok pkt) :
    ∃ req, L.decode buf = .ok req ∧
      (handler.shouldBeRelayed = true → DecodedPacket.isRelayed ⟨req⟩ = .ok ()) ∧
      DecodedPacket.isThisForUs L ⟨req⟩ config = .ok () := by
  unfold processPacket at h
  obtain ⟨_, -, h⟩ := Except.bind_eq_ok h
  obtain ⟨_, -, h⟩ := Except.bind_eq_ok h
  obtain ⟨req, hreq, h⟩ := Except.bind_eq_ok h
  obtain ⟨_, -, h⟩ := Except.bind_eq_ok h
  obtain ⟨_, hrel, h⟩ := Except.bind_eq_ok h
  obtain ⟨_, hus, -⟩ := Except.bind_eq_ok h
  refine ⟨req, Except.mapError_eq_ok.1 hreq, fun hr => ?_, hus⟩
  rw [if_pos hr] at hrel
  exact hrel

end Specs

/-! ## Replies -/

section Replies

variable (L : Libs)

/-- Every reply `process_packet` returns is a BOOTREPLY with the request's
`xid`, `flags`, `ciaddr`, `giaddr` and `chaddr`, sent where `decide_dst_ip`
says; it is an Offer of the allocated address for a Discover, an Ack of it for
a Request whose `ciaddr` is unset or that address, and a NAK with `yiaddr`
0.0.0.0 for any other Request. An Offer or Ack echoes the request's link
selection, and its circuit and remote ids only when their bytes are UTF-8. -/
theorem process_packet_reply_echo {buf : List UInt8} {config : Config} {circuitId : String}
    {handler : DhcpMode} {pkt : Packet}
    (h : processPacket L buf config circuitId handler = .ok pkt) :
    ∃ (req : Message) (rec : DhcpRecord) (alloc : Ipv4Addr) (t : MessageType),
      buf.head? = some pktTypeOpRequest ∧ L.decode buf = .ok req ∧ req.opts.msgType = some t ∧
      handler.discoverDhcp (DecodedPacket.getDiscoveryRequest L ⟨req⟩ handler circuitId) = .ok rec ∧
      L.ipv4FromStr rec.address = .ok alloc ∧
      L.encode pkt.sentPacket = .ok pkt.encodedPacket ∧
      pkt.sentPacket.opcode = .bootReply ∧ pkt.sentPacket.xid = req.xid ∧
      pkt.sentPacket.flags = req.flags ∧ pkt.sentPacket.ciaddr = req.ciaddr ∧
      pkt.sentPacket.giaddr = req.giaddr ∧ pkt.sentPacket.getChaddr = req.getChaddr ∧
      (pkt.dstAddress, pkt.dstPort) =
        (if req.giaddr ≠ Ipv4Addr.unspecified then (req.giaddr, config.relayResponsePort)
          else if req.ciaddr ≠ Ipv4Addr.unspecified then (req.ciaddr, 68)
          else (Ipv4Addr.broadcast, 68)) ∧
      ((((t = .discover ∧ pkt.sentPacket.opts.msgType = some .offer) ∨
          (t = .request ∧ (req.ciaddr = Ipv4Addr.unspecified ∨ req.ciaddr = alloc) ∧
            pkt.sentPacket.opts.msgType = some .ack)) ∧
        pkt.sentPacket.yiaddr = alloc ∧
        (∀ x, req.relaySubOption .agentCircuitId = some (.agentCircuitId x) →
          pkt.sentPacket.relaySubOption .agentCircuitId =
            (fromUtf8 x).map fun _ => .agentCircuitId x) ∧
        (∀ x, req.relaySubOption .agentRemoteId = some (.agentRemoteId x) →
          pkt.sentPacket.relaySubOption .agentRemoteId =
            (fromUtf8 x).map fun _ => .agentRemoteId x) ∧
        (∀ a, req.relaySubOption .linkSelection = some (.linkSelection a) →
          L.ipv4FromStr (L.ipv4ToString a) = .ok a →
          pkt.sentPacket.relaySubOption .linkSelection = some (.linkSelection a))) ∨
      (t = .request ∧ req.ciaddr ≠ Ipv4Addr.unspecified ∧ req.ciaddr ≠ alloc ∧
        pkt.sentPacket.opts.msgType = some .nak ∧ pkt.sentPacket.yiaddr = 0)) := by
  obtain ⟨req, rec, t, reply, hop, hreq, hlen, ht, hrec, hreply, henc, hsent, hdst⟩ :=
    processPacket_eq_ok L h
  obtain ⟨alloc, halloc, ⟨yiaddr, siaddr, opts, rfl⟩, hkind⟩ := createDhcpReplyPacket_eq_ok L hreply
  rw [hsent]
  refine ⟨req, rec, alloc, t, hop, hreq, ht, hrec, halloc, henc, rfl, rfl, rfl, rfl, rfl,
    getChaddr_replyHeader hlen _ _ _, hdst, ?_⟩
  rcases hkind with ⟨hmt, hy, info, hinfo, hsub⟩ | hnak
  · obtain ⟨hc, hr, hl⟩ := relaySubOption_echo L hinfo
    refine .inl ⟨hmt, hy, fun x hx => ?_, fun x hx => ?_, fun a ha hparse => ?_⟩
    · rw [hsub]; exact hc x hx
    · rw [hsub]; exact hr x hx
    · rw [hsub]; exact hl a ha hparse
  · exact .inr hnak

end Replies

/-! ## Samples on the wire

The samples give their requests as the bytes of RFC 2131's layout, which the
sample decoder reads back. -/

/-- `n` as `k` big-endian bytes. -/
def beBytes (n : Nat) : Nat → List UInt8
  | 0 => []
  | k + 1 => beBytes (n / 256) k ++ [UInt8.ofNat (n % 256)]

def Ipv4Addr.wireBytes (a : Ipv4Addr) : List UInt8 := beBytes a.toNat 4

def Opcode.wireByte : Opcode → UInt8
  | .bootRequest => 1
  | .bootReply => 2
  | .unknown n => n

def HType.wireByte : HType → UInt8
  | .eth => 1
  | .other n => n

def MessageType.wireByte : MessageType → UInt8
  | .discover => 1
  | .offer => 2
  | .request => 3
  | .decline => 4
  | .ack => 5
  | .nak => 6
  | .release => 7
  | .inform => 8
  | .other n => n

/-- A code, a length byte and the data. -/
def tlv (code : Nat) (data : List UInt8) : List UInt8 :=
  UInt8.ofNat code :: UInt8.ofNat data.length :: data

def RelayInfo.wireBytes (info : RelayInfo) : List UInt8 :=
  match info with
  | .agentCircuitId id | .agentRemoteId id | .other _ id => tlv info.code id
  | .linkSelection a => tlv 5 a.wireBytes

/-- The data of an option, after its code and length. -/
def DhcpOption.data : DhcpOption → List UInt8
  | .subnetMask a | .broadcastAddr a | .serverIdentifier a => a.wireBytes
  | .router addrs | .nameServer addrs | .domainNameServer addrs | .ntpServers addrs =>
    addrs.flatMap Ipv4Addr.wireBytes
  | .hostname name | .domainName name => strBytes name
  | .interfaceMtu mtu => beBytes mtu.toNat 2
  | .addressLeaseTime secs | .renewal secs | .rebinding secs => beBytes secs.toNat 4
  | .messageType t => [t.wireByte]
  | .vendorExtensions d | .classIdentifier d | .clientIdentifier d | .bootfileName d
  | .other _ d => d
  | .relayAgentInformation info => info.entries.flatMap fun e => e.2.wireBytes

/-- RFC 2131's layout: the fixed fields, `sname` and `file` empty, the magic
cookie, the options by code and the end option. -/
def Message.wireBytes (m : Message) : List UInt8 :=
  [m.opcode.wireByte, m.htype.wireByte, m.hlen, m.hops] ++ beBytes m.xid.toNat 4 ++
    beBytes m.secs.toNat 2 ++ beBytes m.flags.toNat 2 ++ m.ciaddr.wireBytes ++
    m.yiaddr.wireBytes ++ m.siaddr.wireBytes ++ m.giaddr.wireBytes ++ m.chaddr ++
    List.replicate (64 + 128) 0 ++ [99, 130, 83, 99] ++
    m.opts.map.entries.flatMap (fun e => tlv e.2.code e.2.data) ++ [255]

/-- A Discover from `02:00:00:00:00:01` relayed through 10.0.0.1, with the
given options. -/
def relayedDiscover (opts : DhcpOptions) : Message where
  opcode := .bootRequest
  htype := .eth
  hlen := 6
  hops := 0
  xid := 7
  secs := 0
  flags := 0
  ciaddr := 0
  yiaddr := 0
  siaddr := 0
  giaddr := 0x0A000001
  chaddr := chaddrField [2, 0, 0, 0, 0, 1]
  opts := opts

/-- The codec and texts of the samples: the decoder reads the wire bytes of
`request` as it and rejects every other buffer, the encoder writes the wire
bytes, and the texts are those of the addresses the samples use. -/
def sampleLibs (request : Message) : Libs where
  decode buf := if buf = request.wireBytes then .ok request else .error .notEnoughBytes
  encode m := .ok m.wireBytes
  ipv4ToString a := ".".intercalate (a.wireBytes.map fun b => toString b.toNat)
  ipv4FromStr s := if s = "10.0.0.5" then .ok 0x0A000005 else .error "invalid IP address syntax"
  parseIpNetwork s :=
    if s = "10.0.0.0/24" then .ok (.v4 0xFFFFFF00 0x0A0000FF) else .error "invalid address"
  debugOption _ := ""

/-- Lease 600 s, renewal 300 s, rebinding 500 s; provisioning server 10.0.0.2
and DHCP server 10.0.0.3; replies to relays on port 67. -/
def sampleConfig : Config :=
  { dhcpConfig := ⟨600, 300, 500, [], [], 0x0A000002, 0x0A000003⟩, hostConfig := none,
    relayResponsePort := 67 }

/-- A relay-only handler whose discovery allocates 10.0.0.5 in 10.0.0.0/24. -/
def relayOnly : DhcpMode :=
  { discoverDhcp := fun _ => .ok ⟨none, "10.0.0.5", "10.0.0.0/24", "host", none, none⟩,
    getCircuitId := fun _ _ => none, shouldBeRelayed := true }

/-- A relayed Discover whose circuit id is the byte `0xFF`, which is not UTF-8. -/
def circuitFF : Message :=
  relayedDiscover ((DhcpOptions.empty.insert (.messageType .discover)).insert
    (.relayAgentInformation (RelayAgentInformation.insert (.agentCircuitId [0xFF]) SortedMap.empty)))

set_option maxRecDepth 20000 in
/-- The reply to `circuitFF` carries no circuit id. -/
theorem process_packet_reply_echo_non_utf8 :
    ∃ pkt : Packet,
      processPacket (sampleLibs circuitFF) circuitFF.wireBytes sampleConfig "" relayOnly = .ok pkt ∧
      pkt.sentPacket.relaySubOption .agentCircuitId = none := by
  obtain ⟨pkt, h⟩ : ∃ pkt,
      processPacket (sampleLibs circuitFF) circuitFF.wireBytes sampleConfig "" relayOnly = .ok pkt :=
    ⟨_, rfl⟩
  refine ⟨pkt, h, ?_⟩
  obtain ⟨req, rec, alloc, t, -, hreq, ht, -, -, -, -, -, -, -, -, -, -, hkind⟩ :=
    process_packet_reply_echo _ h
  have hreq' : req = circuitFF := by
    simp only [sampleLibs, if_true] at hreq
    exact (Except.ok.inj hreq).symm
  subst hreq'
  have htd : t = .discover := Option.some.inj (ht.symm.trans rfl)
  rcases hkind with ⟨-, -, hc, -, -⟩ | ⟨htr, -⟩
  · rw [hc [0xFF] rfl]
    decide
  · cases htd.symm.trans htr

/-! ## What the server answers -/

section Ingress

variable (L : Libs)

/-- `process_packet` answers only a BOOTREQUEST that decodes with at most 16
address bytes and carries a Discover or a Request, names no other server in
its Server Identifier, and, under a handler that takes relayed packets only,
came through a relay: its `giaddr` is neither 0.0.0.0 nor 255.255.255.255. A
Decline and every other message type end in an error. -/
theorem process_packet_answers_only_ours {buf : List UInt8} {config : Config}
    {circuitId : String} {handler : DhcpMode} {pkt : Packet}
    (h : processPacket L buf config circuitId handler = .ok pkt) :
    ∃ (req : Message) (t : MessageType),
      buf.head? = some pktTypeOpRequest ∧ L.decode buf = .ok req ∧ req.hlen ≤ bootpChaddrLen ∧
      req.opts.msgType = some t ∧ (t = .discover ∨ t = .request) ∧
      (∀ sid, req.opts.get .serverIdentifier = some (.serverIdentifier sid) →
        sid = config.dhcpConfig.carbideDhcpServer) ∧
      (handler.shouldBeRelayed = true →
        req.giaddr ≠ Ipv4Addr.unspecified ∧ req.giaddr ≠ Ipv4Addr.broadcast) := by
  obtain ⟨req, rec, t, reply, hop, hreq, hlen, ht, -, hreply, -⟩ := processPacket_eq_ok L h
  obtain ⟨req', hreq', hrel, hus⟩ := processPacket_checks L h
  -- both lemmas read the request `decode` returned
  obtain rfl : req = req' := Except.ok.inj (hreq.symm.trans hreq')
  have htype : t = .discover ∨ t = .request := by
    obtain ⟨_, -, -, hkind⟩ := createDhcpReplyPacket_eq_ok L hreply
    rcases hkind with ⟨⟨hd, -⟩ | ⟨hr, -⟩, -⟩ | ⟨hr, -⟩
    · exact .inl hd
    · exact .inr hr
    · exact .inr hr
  exact ⟨req, t, hop, hreq, hlen, ht, htype, (isThisForUs_eq_ok L).1 hus,
    fun hr => isRelayed_eq_ok.1 (hrel hr)⟩

end Ingress

/-- A relayed Discover that names this server, 10.0.0.3. -/
def namingUs : Message :=
  relayedDiscover ((DhcpOptions.empty.insert (.messageType .discover)).insert
    (.serverIdentifier 0x0A000003))

set_option maxRecDepth 20000 in
/-- `namingUs` reaches a relay-only handler and is answered. -/
theorem process_packet_answers_only_ours_relayed :
    ∃ pkt : Packet,
      processPacket (sampleLibs namingUs) namingUs.wireBytes sampleConfig "" relayOnly = .ok pkt ∧
      ∃ (req : Message) (t : MessageType),
        namingUs.wireBytes.head? = some pktTypeOpRequest ∧
        (sampleLibs namingUs).decode namingUs.wireBytes = .ok req ∧
        req.hlen ≤ bootpChaddrLen ∧ req.opts.msgType = some t ∧ (t = .discover ∨ t = .request) ∧
        (∀ sid, req.opts.get .serverIdentifier = some (.serverIdentifier sid) →
          sid = sampleConfig.dhcpConfig.carbideDhcpServer) ∧
        (relayOnly.shouldBeRelayed = true →
          req.giaddr ≠ Ipv4Addr.unspecified ∧ req.giaddr ≠ Ipv4Addr.broadcast) := by
  obtain ⟨pkt, h⟩ : ∃ pkt,
      processPacket (sampleLibs namingUs) namingUs.wireBytes sampleConfig "" relayOnly = .ok pkt :=
    ⟨_, rfl⟩
  exact ⟨pkt, h, process_packet_answers_only_ours _ h⟩

end Carbide.Dhcp
