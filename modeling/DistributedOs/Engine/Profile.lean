import DistributedOs.Semantics.Codec
import DistributedOs.Semantics.Floating
import Mathlib.Data.List.Infix

/-! What `analyze_files` says of the files under the source paths, and the transfer profile that is
built of it. -/

namespace DistributedOs.Engine

open Semantics

/-- The entries of a directory, one after the other; opening one may fail. -/
inductive Listing where
  | nil
  | file (name : String) (content : Bytes) (readable : Except String Unit) (rest : Listing)
  | directory (name : String) (entries : Listing) (readable : Except String Unit) (rest : Listing)

def Listing.files : Listing → List (List String × Bytes)
  | .nil => []
  | .file name content _ rest => ([name], content) :: rest.files
  | .directory name entries _ rest =>
    entries.files.map (fun file => (name :: file.1, file.2)) ++ rest.files

/-- The sizes of the files; a directory that cannot be read is passed over. -/
def Listing.collectDir : Listing → List Nat
  | .nil => []
  | .file _ content _ rest => content.length :: rest.collectDir
  | .directory _ entries readable rest =>
    (if readable.isOk then entries.collectDir else []) ++ rest.collectDir

inductive Node where
  | missing
  | file (content : Bytes)
  | directory (readable : Except String Unit) (entries : Listing)

/-- `fileName` is `file_name`, where it has one that is Unicode. -/
structure Source where
  path : List String
  fileName : Option String
  node : Node

structure SourceFile where
  path : List String
  content : Bytes
  deriving DecidableEq

def Source.files (source : Source) : List SourceFile :=
  match source.node with
  | .missing => []
  | .file content => [{ path := source.path, content }]
  | .directory _ entries =>
    entries.files.map fun file => { path := source.path ++ file.1, content := file.2 }

def Source.sizes (source : Source) : List Nat :=
  match source.node with
  | .missing => []
  | .file content => [content.length]
  | .directory readable entries => if readable.isOk then entries.collectDir else []

inductive FileCategory where
  | tiny
  | small
  | medium
  | large
  | huge
  | massive
  | manyTiny
  | manySmall
  | mixed
  deriving DecidableEq

structure FileAnalysis where
  count : Nat
  totalSize : Nat
  category : FileCategory
  deriving DecidableEq

def classifyCategory (count total average : Nat) : FileCategory :=
  if 1000 ≤ count ∧ average < 10000 then .manyTiny
  else if 100 ≤ count ∧ average < 1000000 then .manySmall
  else if count = 1 then
    if total < 1024 then .tiny
    else if total < 10000000 then .small
    else if total < 500000000 then .medium
    else if total < 5000000000 then .large
    else if total < 100000000000 then .huge
    else .massive
  else if 1 < count ∧ average < 1024 then .manyTiny
  else .mixed

/-- The count is a `u32`. -/
def analyzeFiles (sources : List Source) : FileAnalysis :=
  let sizes := sources.flatMap Source.sizes
  let count := sizes.length % 2 ^ 32
  if count = 0 then { count := 0, totalSize := 0, category := .tiny }
  else { count, totalSize := sizes.sum, category := classifyCategory count sizes.sum (sizes.sum / count) }

section Profile

variable {F : Type} [Floating F]

inductive InterfaceType (F : Type) where
  | ethernet100M
  | ethernet1G
  | ethernet10G
  | ethernet25G
  | ethernet40G
  | ethernet100G
  | wiFi24GHz
  | wiFi5GHz
  | wiFi6
  | wiFi7
  | thunderbolt
  | usbEthernet
  | vpn
  | wan
  | loopback
  | unknown (mbps : F)

def InterfaceType.label : InterfaceType F → String
  | .ethernet100M => "100Mbps Ethernet"
  | .ethernet1G => "1Gbps Ethernet"
  | .ethernet10G => "10Gbps Ethernet"
  | .ethernet25G => "25Gbps Ethernet"
  | .ethernet40G => "40Gbps Ethernet"
  | .ethernet100G => "100Gbps Ethernet"
  | .wiFi24GHz => "2.4GHz WiFi"
  | .wiFi5GHz => "5GHz WiFi"
  | .wiFi6 => "WiFi 6"
  | .wiFi7 => "WiFi 7"
  | .thunderbolt => "Thunderbolt"
  | .usbEthernet => "USB Ethernet"
  | .vpn => "VPN"
  | .wan => "WAN"
  | .loopback => "Loopback"
  | .unknown _ => "Unknown"

inductive DiskType where
  | nvme
  | ssd
  | hdd
  | network
  | unknown
  deriving DecidableEq

def DiskType.label : DiskType → String
  | .nvme => "NVMe SSD"
  | .ssd => "SATA SSD"
  | .hdd => "HDD"
  | .network => "Network Drive"
  | .unknown => "Unknown"

def contains (label part : String) : Bool := decide (part.toList <:+: label.toList)

structure NetworkInfo (F : Type) where
  interfaceType : InterfaceType F
  rttMs : F
  availableBandwidthMbps : F
  packetLossPct : F

structure SystemInfo where
  diskType : DiskType

structure RemoteCapabilities where
  supportsRange : Bool

inductive TransferStrategy where
  | singleStream
  | parallelRanges
  | batched
  | pipelined
  deriving DecidableEq

/-- What the engine uses of it. -/
structure TransferProfile where
  fileCount : Nat
  totalBytes : Nat
  chunkSize : Nat
  strategy : TransferStrategy

def selectStrategy (net : NetworkInfo F) (files : FileAnalysis) (remote : RemoteCapabilities) :
    TransferStrategy :=
  match files.category with
  | .tiny | .small => .singleStream
  | .manyTiny | .manySmall => .batched
  | .mixed => if files.count < 10 then .singleStream else .batched
  | .medium | .large | .huge | .massive =>
    if remote.supportsRange &&
        (decide ((1.0 : F) < net.packetLossPct) || contains net.interfaceType.label "WiFi") then
      .parallelRanges
    else .singleStream

/-- The product of bandwidth and delay, in KiB. -/
def calcBufferSize (net : NetworkInfo F) (sys : SystemInfo) : Nat :=
  let bdpBytes := Floating.trunc (net.availableBandwidthMbps * 1000000.0 / 8.0 * net.rttMs / 1000.0)
  let buf := min (max (bdpBytes / 1024) 64) 16384
  if contains sys.diskType.label "HDD" then min buf 512 else buf

def buildProfile (net : NetworkInfo F) (files : FileAnalysis) (sys : SystemInfo)
    (remote : RemoteCapabilities) : TransferProfile :=
  { fileCount := files.count
    totalBytes := files.totalSize
    chunkSize := min (max (calcBufferSize net sys * 1024) 65536) 16777216
    strategy := selectStrategy net files remote }

end Profile

end DistributedOs.Engine
