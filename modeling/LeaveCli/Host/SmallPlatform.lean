import LeaveCli.Crypto.FramedGroup
import LeaveCli.Crypto.SmallGroup
import LeaveCli.Host.RelayTunnel

/-!
# A platform to run routes on

`SmallPlatform.platform requests` puts the tunnel on `SmallGroup.mls`, with a wire that reads the
JSON text of the given requests, and a router that records what it gets. The concrete runs of
this development use it.
-/

namespace LeaveCli.Host.SmallPlatform

open Lib Protocol Crypto Transport

/-- The bytes of a text in ASCII. -/
def ascii (s : Str) : Bytes := s.map fun c => UInt8.ofNat c.toNat

/-- `serde_json`'s text of a map whose strings need no escape. -/
def jsonMap (map : Std.TreeMap Str Str) : Str :=
  ("\x7b" : Str) ++ (",".toList).intercalate (map.toList.map fun entry =>
    ("\"" : Str) ++ entry.1 ++ ("\":\"" : Str) ++ entry.2 ++ ("\"" : Str)) ++ ("\x7d" : Str)

/-- `serde_json`'s text of a request without a body, whose strings need no escape. -/
def jsonRequest (request : TunnelRequest) : Bytes :=
  ascii (("\x7b\"version\":" : Str) ++ (toString request.version.toNat).toList ++
    (",\"exchange_id\":\"" : Str) ++ request.exchangeId ++ ("\",\"method\":\"" : Str) ++
    request.method ++ ("\",\"path\":\"" : Str) ++ request.path ++ ("\",\"headers\":" : Str) ++
    jsonMap request.headers ++ (",\"body\":\"\"\x7d" : Str))

/-- `serde_json`'s text of an answer without headers and body. -/
def jsonResponse (response : TunnelResponse) : Bytes :=
  ascii (("\x7b\"version\":" : Str) ++ (toString response.version.toNat).toList ++
    (",\"exchange_id\":\"" : Str) ++ response.exchangeId ++ ("\",\"status\":" : Str) ++
    (toString response.status).toList ++ (",\"headers\":\x7b\x7d,\"body\":\"\"\x7d" : Str))

def wire (requests : List TunnelRequest) : Wire where
  decode bytes := match requests.find? fun request => jsonRequest request = bytes with
    | some request => .ok request
    | none => .error .malformed
  encode response := .ok (jsonResponse response)

theorem decode_head (r : TunnelRequest) (rs : List TunnelRequest) :
    (wire (r :: rs)).decode (jsonRequest r) = .ok r := by simp [wire]

theorem decode_tail {r r' : TunnelRequest} {rs : List TunnelRequest}
    (h : jsonRequest r' ≠ jsonRequest r) :
    (wire (r' :: rs)).decode (jsonRequest r) = (wire rs).decode (jsonRequest r) := by
  simp [wire, h]

/-- Printable ASCII without blanks, which the `http` crate takes in names and targets. -/
def printable (s : Str) : Bool := s.all fun c => 33 ≤ c.toNat && c.toNat < 127

/-- How many names the largest `HeaderMap` has room for. -/
def maxHeaders : Nat := 24576

def http : Http where
  acceptsMethod method := method ∈ tunnelMethods
  acceptsTarget := printable
  acceptsHeaders headers := headers.length ≤ maxHeaders && headers.all fun header =>
    printable header.1 && header.2.all fun c => 32 ≤ c.toNat && c.toNat < 127

/-- A tag as long as the key that depends on every byte. -/
def hash : KeyedHash := fun key data => key.map (· + data.foldl (fun acc b => acc * 31 + b) 7)

def platform (requests : List TunnelRequest) : Platform where
  mls := SmallGroup.mls
  hash := hash
  wire := wire requests
  http := http
  Router := List HttpRequest
  oneshot router request := (request :: router, .ok ⟨200, [], .ok []⟩)

/-- A request without headers and body. -/
def request (method path : Str) : TunnelRequest := ⟨tunnelVersion, "1", method, path, ∅, []⟩

/-- The secret of the pairing codes shown in the runs. -/
def secret : PairingSecret := ⟨List.replicate 32 7, rfl⟩

/-- The member of a device, at a leaf. -/
def member (index : Nat) (deviceId : Str) : Member := ⟨index, .basic (ascii deviceId)⟩

/-- The host's service over a group in which it holds the first leaf. -/
def service (requests : List TunnelRequest) (group : SmallGroup.Group)
    (grants : List (Str × DeviceGrant)) (pairing : Option PairingSecret) :
    RouteService (platform requests) where
  client := ⟨"route"⟩
  session := ⟨⟨"host", ()⟩, group⟩
  registry := grants.foldl (fun registry grant => registry.set grant.1 grant.2) ⟨∅⟩
  router := ([] : List HttpRequest)
  pairing := pairing

/-- A request sealed by a member. -/
def sealedBy (epoch : Nat) (deviceId : Str) (request : TunnelRequest) : Incoming :=
  ⟨SmallGroup.encode (.application epoch (.basic (ascii deviceId)) (jsonRequest request)), true⟩

theorem openFrame_sealedBy (s : WorkspaceSession SmallGroup.mls) {deviceId : Str}
    (request : TunnelRequest) (hid : identityOf (.basic (ascii deviceId)) = .ok deviceId) :
    (s.openFrame (sealedBy s.group.1.epoch deviceId request).frame).2 =
      .ok ⟨deviceId, jsonRequest request⟩ := by
  have hdecode := SmallGroup.decode_encode
    (.application s.group.1.epoch (.basic (ascii deviceId)) (jsonRequest request))
  simp [WorkspaceSession.openFrame, WorkspaceSession.process, sealedBy, SmallGroup.mls, hdecode,
    SmallGroup.processMessage, Except.mapError, hid]

/-- The key package of a device. -/
def keyPackage (deviceId : Str) : Bytes := SmallGroup.encode (.keyPackage (.basic (ascii deviceId)))

/-- The pairing request of a new phone. -/
def pairingFrom (deviceId : Str) : Incoming :=
  ⟨pairingRequest hash (keyPackage deviceId) secret, true⟩

theorem requests_pairingFrom {deviceId : Str}
    (hlength : (keyPackage deviceId).length < UInt32.size) :
    Requests (pairingFrom deviceId).frame (keyPackage deviceId)
      (secret.tag hash (keyPackage deviceId)) :=
  requests_pairingRequest hlength (by simp [PairingSecret.tag, hash, secret, UInt32.size])

/-- The host at the first leaf, then the devices, in epoch 3. -/
def groupOf (devices : List Str) : GroupView :=
  ⟨(("host" : Str) :: devices).zipIdx.map fun d => member d.2 d.1, 3, 0⟩

theorem groupOf_sorted (devices : List Str) :
    ((groupOf devices).members.map (·.index)).Pairwise (· < ·) := by
  have hindex : (groupOf devices).members.map (·.index) =
      List.range' 0 (("host" : Str) :: devices).length := by
    rw [← List.zipIdx_map_snd, groupOf, List.map_map]
    rfl
  rw [hindex]
  exact List.pairwise_lt_range'

def group (devices : List Str) : SmallGroup.Group := ⟨groupOf devices, groupOf_sorted devices⟩

/-! ## With ratchets -/

/-- The same platform over an MLS whose frames open once. -/
def ratcheted (requests : List TunnelRequest) : Platform :=
  { platform requests with mls := FramedGroup.mls }

/-- The host's service in an epoch that has begun. -/
def ratchetedService (requests : List TunnelRequest) (devices : List Str)
    (grants : List (Str × DeviceGrant)) (pairing : Option PairingSecret) :
    RouteService (ratcheted requests) where
  client := ⟨"route"⟩
  session := ⟨⟨"host", ()⟩, .fresh (group devices)⟩
  registry := grants.foldl (fun registry grant => registry.set grant.1 grant.2) ⟨∅⟩
  router := ([] : List HttpRequest)
  pairing := pairing

/-- A request, sealed by the member at a leaf as the given one of its frames. -/
def sealedAt (epoch generation leaf : Nat) (request : TunnelRequest) : Incoming :=
  ⟨FramedGroup.encode (.application epoch generation leaf (jsonRequest request)), true⟩

/-- The pairing request of a new device. -/
def pairingOf (deviceId : Str) : Incoming :=
  ⟨pairingRequest hash (FramedGroup.encode (.keyPackage (.basic (Str.utf8 deviceId)))) secret, true⟩

end LeaveCli.Host.SmallPlatform
