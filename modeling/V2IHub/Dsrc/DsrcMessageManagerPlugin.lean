import V2IHub.Api.IvpMessage
import V2IHub.Client.ConfigValue
import V2IHub.Foundation.Machine
import Mathlib.Data.List.FinRange

/-! `DsrcMessageManagerPlugin`: the routes and destinations of its clients, and the sending of a
message to the radios. A result `none` is a failed assertion or a pointer that is not there. -/
namespace V2IHub.Dsrc
open Foundation Foundation.DecimalText Messages Json Api Client

/-- `atoi`, through a `long` that does not overflow. -/
def atoi (text : Bytes) : ℤ :=
  let body := text.dropWhile fun b => b = 32 ∨ 9 ≤ b ∧ b ≤ 13
  let (negative, digits) :=
    match body with
    | 45 :: rest => (true, rest)
    | 43 :: rest => (false, rest)
    | rest => (false, rest)
  let value : ℤ := (digits.takeWhile isDigit).foldl (fun n b => 10 * n + digitVal b) 0
  let value := if negative then max (-value) (-2 ^ 63) else min value (2 ^ 63 - 1)
  (BitVec.ofInt 32 value).toInt

/-- What a `UdpClient` is made from. -/
structure Destination where
  address : Bytes
  port : ℤ
deriving DecidableEq

structure MessageConfig where
  ClientIndex : Fin 4
  TmxType : Bytes
  SendType : Bytes
  Psid : Bytes
  Channel : Bytes
deriving DecidableEq

/-- The plugin and its configuration; `resolves` tells for which destinations a `UdpClient` could be
made at the last update, and `processed` has the subtypes of the messages that were sent. -/
structure DsrcMessageManagerPlugin where
  _udpClientList : Fin 4 → List Destination
  _messageConfigMap : List MessageConfig
  _messageCountMap : OrderedMap Bytes ℤ
  _signature : Bytes
  _configRead : Bool
  _muteDsrc : Bool
  config : ConfigValues
  resolves : Destination → Bool
  processed : List Bytes

namespace DsrcMessageManagerPlugin

def new (config : ConfigValues) : DsrcMessageManagerPlugin where
  _udpClientList := fun _ => []
  _messageConfigMap := []
  _messageCountMap := .empty
  _signature := []
  _configRead := false
  _muteDsrc := false
  config := config
  resolves := fun _ => false
  processed := []

def messagesSetting (clientIndex : Fin 4) : Bytes :=
  cstr "Messages_Destination_" ++ decimal (clientIndex + 1)

def udpPortSetting (clientIndex : Fin 4) : Bytes :=
  cstr "Destination_" ++ decimal (clientIndex + 1)

/-- One element of `Messages`; `none` is the exception of a missing member. -/
def messageConfig (clientIndex : Fin 4) (child : PTree) : Option MessageConfig := do
  let TmxType ← child.dataAt [cstr "TmxType"]
  let SendType ← child.dataAt [cstr "SendType"]
  let Psid ← child.dataAt [cstr "PSID"]
  let Channel := (child.dataAt [cstr "Channel"]).getD []
  pure ⟨clientIndex, TmxType, SendType, Psid, Channel⟩

/-- The loop over the elements, which ends at the first exception. The elements of an array have no
names. -/
def readMessages (clientIndex : Fin 4) : List (Bytes × PTree) → Option (List MessageConfig)
  | [] => some []
  | child :: rest =>
    if child.1 ≠ [] then none
    else
      match messageConfig clientIndex child.2 with
      | none => some []
      | some config => (readMessages clientIndex rest).map (config :: ·)

section Reading
variable (readJson : Bytes → Option PTree)

def parseJsonMessageConfig (configs : List MessageConfig) (json : Bytes) (clientIndex : Fin 4) :
    Option (List MessageConfig) :=
  if json = [] then some configs
  else
    let configs := configs.filter fun config => config.ClientIndex ≠ clientIndex
    match readJson json with
    | none => some configs
    | some pt =>
      match pt.getChild [cstr "Messages"] with
      | none => some configs
      | some messages => (readMessages clientIndex messages.children).map (configs ++ ·)

/-- `boost::split` at blanks, tabs, commas and semicolons. -/
def splitServers (destinations : Bytes) : List Bytes :=
  destinations.splitOnP fun b => b = 32 ∨ b = 9 ∨ b = 44 ∨ b = 59

/-- Host and port of an item. -/
def hostPort (srv : Bytes) : Option Destination :=
  match srv.splitOn 58 with
  | [address, port] => some ⟨address, atoi port⟩
  | _ => none

/-- The loop over the items, which ends at the first `UdpClient` that cannot be made. -/
def createClients (resolves : Destination → Bool) : List Bytes → List Destination
  | [] => []
  | srv :: rest =>
    match hostPort srv with
    | none => createClients resolves rest
    | some destination =>
      if resolves destination then destination :: createClients resolves rest else []

def updateUdpClientFromConfigSettings (s : DsrcMessageManagerPlugin) (clientIndex : Fin 4) :
    Option DsrcMessageManagerPlugin := do
  let destinations := (s.config.find (udpPortSetting clientIndex)).getD []
  let messages := (s.config.find (messagesSetting clientIndex)).getD []
  let configs ← parseJsonMessageConfig readJson s._messageConfigMap messages clientIndex
  let clients :=
    if destinations.length > 0 then createClients s.resolves (splitServers destinations) else []
  pure { s with
    _messageConfigMap := configs
    _udpClientList := Function.update s._udpClientList clientIndex clients }

/-- The loop over the clients. -/
def updateClients : List (Fin 4) → DsrcMessageManagerPlugin → Option DsrcMessageManagerPlugin
  | [], s => some s
  | clientIndex :: rest, s => do
    let s ← s.updateUdpClientFromConfigSettings readJson clientIndex
    updateClients rest s

def updateConfigSettings (s : DsrcMessageManagerPlugin) (resolves : Destination → Bool) :
    Option DsrcMessageManagerPlugin := do
  let s ← updateClients readJson (List.finRange 4) { s with _messageConfigMap := [], resolves }
  pure { s with
    _signature := (s.config.find (cstr "Signature")).getD s._signature
    _muteDsrc := (s.config.getBool (cstr "MuteDsrcRadio")).getD s._muteDsrc
    _configRead := true }

end Reading

def toUpper (b : UInt8) : UInt8 := if 97 ≤ b ∧ b ≤ 122 then b - 32 else b

def line (text : Bytes) : Bytes := text ++ [10]

/-- The text for the radio. -/
def radioMessage (SendType Psid TxChannel signature payload : Bytes) : Bytes :=
  line (cstr "Version=0.7") ++ line (cstr "Type=" ++ SendType) ++ line (cstr "PSID=" ++ Psid) ++
    line (cstr "Priority=7") ++ line (cstr "TxMode=CONT") ++ line (cstr "TxChannel=" ++ TxChannel) ++
    line (cstr "TxInterval=0") ++ line (cstr "DeliveryStart=") ++ line (cstr "DeliveryStop=") ++
    line (cstr "Signature= " ++ signature) ++ line (cstr "Encryption=False") ++
    line (cstr "Payload=" ++ payload)

/-- A text, and where it is sent. -/
abbrev Send := Destination × Bytes

/-- The count of a message whose subtype was counted before or not. -/
def countMessage (s : DsrcMessageManagerPlugin) (subtype : Bytes) : DsrcMessageManagerPlugin :=
  let msgCount :=
    match s._messageCountMap.find subtype with
    | some count => count + 1
    | none => 0
  { s with
    _messageCountMap := s._messageCountMap.insert subtype msgCount
    processed := s.processed ++ [subtype] }

/-- The loop over the configured messages, and for each one over the clients it goes to. -/
def sendLoop (s : DsrcMessageManagerPlugin) (subtype : Bytes) (channel : BitVec 32)
    (payload : Bytes) : List MessageConfig → List Send
  | [] => []
  | config :: rest =>
    if config.TmxType = subtype then
      let TxChannel := if config.Channel = [] then formatInt channel.toInt else config.Channel
      let message := radioMessage config.SendType config.Psid TxChannel s._signature payload
      (s._udpClientList config.ClientIndex).map (fun client => (client, message)) ++
        sendLoop s subtype channel payload rest
    else sendLoop s subtype channel payload rest

/-- A message without a subtype is an exception. -/
def sendMessageToRadio (s : DsrcMessageManagerPlugin) (msg : IvpMessage)
    (metadata : IvpDsrcMetadata) : Option (DsrcMessageManagerPlugin × List Send) :=
  match msg.subtype with
  | none => some (s, [])
  | some subtype =>
    let s := s.countMessage subtype
    match msg.payload with
    | some (.string valuestring) =>
      some (s, sendLoop s subtype metadata.channel (valuestring.map toUpper) s._messageConfigMap)
    | _ => none

def onMessageReceived (s : DsrcMessageManagerPlugin) (msg : IvpMessage) :
    Option (DsrcMessageManagerPlugin × List Send) :=
  if s._configRead = false then some (s, [])
  else
    match msg.dsrcMetadata with
    | none => some (s, [])
    | some metadata => if s._muteDsrc = false then s.sendMessageToRadio msg metadata else some (s, [])

/-- The calls of the plugin, with the destinations that can be resolved then. -/
inductive Act where
  | registered (resolves : Destination → Bool)
  | configChanged (key value : Bytes) (resolves : Destination → Bool)
  | received (msg : IvpMessage)

def step (readJson : Bytes → Option PTree) (s : DsrcMessageManagerPlugin) :
    Act → Option DsrcMessageManagerPlugin
  | .registered resolves => s.updateConfigSettings readJson resolves
  | .configChanged key value resolves =>
    { s with config := s.config.insert key value }.updateConfigSettings readJson resolves
  | .received msg => (s.onMessageReceived msg).map Prod.fst

def machine (readJson : Bytes → Option PTree) : Machine DsrcMessageManagerPlugin Act :=
  ⟨step readJson⟩

end DsrcMessageManagerPlugin
end V2IHub.Dsrc
