import PeerServices.Identity.PeerAddress
import PeerServices.Network.SocketAddress
import PeerServices.Retry.Policy
import PeerServices.Toml.Document

/-!
# Settings

What a peer's settings file says. Whatever the file leaves out has a default, keys that are not
known are passed over, and a file that is missing or does not say settings gives all defaults.

* `Settings.parse?` reads the text of a settings file.
* `Settings.ofFile` reads the contents of a file that may be missing.
-/

namespace PeerServices

structure Route where
  address : PeerAddress
  socket : SocketAddress
deriving DecidableEq

structure Introduction where
  address : PeerAddress
  name : String
deriving DecidableEq

structure Settings where
  listenAddress : SocketAddress
  /-- The text of the secret seed; a fresh one is drawn if it is empty. -/
  secretKey : String
  /-- The text of the public key of the system authority. -/
  systemPublicKey : Option String
  requestTimeout : Duration
  exchangeTimeout : Duration
  connectRetry : List Retry.Stage
  routes : List Route
  introductions : List Introduction
deriving DecidableEq

namespace Settings

open Toml (Value Entries)

/-- The settings of an empty file. -/
def default : Settings where
  listenAddress := .v4 [0, 0, 0, 0] 4710
  secretKey := ""
  systemPublicKey := none
  requestTimeout := .ofSeconds 30
  exchangeTimeout := .ofSeconds 15
  connectRetry := [⟨some 3, .ofMilliseconds 1000⟩, ⟨some 3, .ofMilliseconds 5000⟩]
  routes := []
  introductions := []

instance : Inhabited Settings := ⟨default⟩

/-! ## Readers of values -/

def text? : Value → Option String
  | .string text => some text
  | _ => none

def natural? (bound : Nat) : Value → Option Nat
  | .integer n => if 0 ≤ n ∧ n < bound then some n.toNat else none
  | _ => none

def seconds? (v : Value) : Option Duration := (natural? UInt64.size v).map .ofSeconds

def peerAddress? (v : Value) : Option PeerAddress := do
  match PeerAddress.parse (← text? v) with
  | .ok address => some address
  | .error _ => none

def socketAddress? (v : Value) : Option SocketAddress := do SocketAddress.parse? (← text? v)

def list? {α : Type} (item? : Value → Option α) : Value → Option (List α)
  | .array _ items => items.mapM item?
  | _ => none

/-- The fields of a record: a table with their names, or an array with their values in order. -/
def field? (names : List String) (v : Value) (name : String) : Option (Option Value) :=
  match v with
  | .table _ entries => some (Entries.find? entries name)
  | .array _ items => some (items[names.idxOf name]?)
  | _ => none

/-- Reads a field that has a default. -/
def optionalField {α : Type} (names : List String) (v : Value) (name : String)
    (read? : Value → Option α) (default : α) : Option α := do
  match ← field? names v name with
  | none => return default
  | some value => read? value

def requiredField {α : Type} (names : List String) (v : Value) (name : String)
    (read? : Value → Option α) : Option α := do
  read? (← (← field? names v name))

def stageFields : List String := ["count", "delay_ms"]

def stage? (v : Value) : Option Retry.Stage := do
  let count ← optionalField stageFields v "count"
    (fun n => (natural? UInt32.size n).map fun n => some (UInt32.ofNat n)) none
  let delay ← requiredField stageFields v "delay_ms" (natural? UInt64.size)
  return { count, delay := .ofMilliseconds delay }

def routeFields : List String := ["address", "socket"]

def route? (v : Value) : Option Route := do
  let address ← requiredField routeFields v "address" peerAddress?
  let socket ← requiredField routeFields v "socket" socketAddress?
  return { address, socket }

def introductionFields : List String := ["address", "name"]

def introduction? (v : Value) : Option Introduction := do
  let address ← requiredField introductionFields v "address" peerAddress?
  let name ← optionalField introductionFields v "name" text? ""
  return { address, name }

/-! ## The file -/

def ofValue? (v : Value) : Option Settings := do
  let field {α : Type} (name : String) (read? : Value → Option α) (default : α) : Option α :=
    optionalField [] v name read? default
  let listenAddress ← field "listen_addr" socketAddress? default.listenAddress
  let secretKey ← field "secret_key" text? default.secretKey
  let systemPublicKey ← field "system_public_key" (fun k => (text? k).map some) none
  let requestTimeout ← field "request_timeout_secs" seconds? default.requestTimeout
  let exchangeTimeout ← field "exchange_timeout_secs" seconds? default.exchangeTimeout
  let connectRetry ← field "connect_retry" (list? stage?) default.connectRetry
  let routes ← field "routes" (list? route?) []
  let introductions ← field "entities" (list? introduction?) []
  return { listenAddress, secretKey, systemPublicKey, requestTimeout, exchangeTimeout,
           connectRetry, routes, introductions }

def parse? (text : String) : Option Settings := do ofValue? (← Toml.parse? text)

/-- The settings of a file with the given contents; nothing stands for a file that is missing. -/
def ofFile (contents : Option Bytes) : Settings :=
  match contents.bind Codec.ofUtf8? with
  | some text => (parse? text).getD default
  | none => default

end Settings

end PeerServices
