import PeerServices.Node.Start

/-!
# The command line

Three commands and one option, the path of the settings file, which may stand before the command
or behind it.

* `CommandLine.parse` reads the arguments. What it refuses is a usage error.
* `Command.perform` gives what a command prints, or why it fails.
-/

namespace PeerServices

inductive Command
  | keygen
  /-- Tells the peer address of the secret key in the settings. -/
  | address
  | run
deriving DecidableEq, Repr

namespace Command

def name : Command → String
  | keygen => "keygen"
  | address => "address"
  | run => "run"

def ofName? (name : String) : Option Command :=
  [keygen, address, run].find? fun c => c.name = name

/-! ## What commands do -/

/-- What a command prints, line by line, or why it fails. `drawn` is a fresh key pair and `bound`
the socket on which a peer listens, if it could. -/
def perform (c : Command) (s : Settings) (drawn : Keypair) (bound : Except String SocketAddress) :
    Except String (List String) :=
  match c with
  | keygen =>
    .ok [
      "secret_key = \"" ++ drawn.secretText ++ "\"",
      "public_key = \"" ++ Hex.encode drawn.publicKey.toList ++ "\"",
      "address    = \"" ++ drawn.address.text ++ "\""]
  | address =>
    if s.secretKey.isEmpty then
      .error "No secret_key configured. Run \x60tether keygen\x60 and add it to your config."
    else
      match Keypair.ofSecretText s.secretKey with
      | .ok keypair => .ok [keypair.address.text]
      | .error e => .error ("Invalid secret_key: " ++ e.message)
  | run =>
    match Node.start s drawn bound with
    | .ok (n, socket) => .ok ["Peer " ++ n.address.text ++ " listening on " ++ socket.text]
    | .error e => .error ("Failed to start peer: " ++ e.message)

end Command

namespace CommandLine

inductive Topic
  | program
  | command (c : Command)
  | help
deriving DecidableEq, Repr

inductive Request
  | help (topic : Topic)
  | version
  | perform (c : Command) (settingsPath : Option String)
deriving DecidableEq, Repr

/-! ## Arguments -/

inductive Argument
  /-- The option, with its value in the same argument. -/
  | path (value : String)
  /-- The option, with its value in the next argument. -/
  | pathFollows
  | help
  | version
  /-- From here on there are no options. -/
  | separator
  | word (text : String)
  | unknown

/-- How the option's name and its value are written in one argument. -/
def pathOption : List Char := "--config=".toList

/-- Reads an argument by itself. Of several short options in one argument the first one counts. -/
def Argument.ofText (text : String) : Argument :=
  match text.toList with
  | ['-'] => .word text
  | ['-', '-'] => .separator
  | '-' :: '-' :: _ =>
    if text = "--config" then .pathFollows
    else if text = "--help" then .help
    else if text = "--version" then .version
    else if pathOption.isPrefixOf text.toList then
      .path (String.ofList (text.toList.drop pathOption.length))
    else .unknown
  | '-' :: 'h' :: _ => .help
  | '-' :: 'V' :: _ => .version
  | '-' :: _ => .unknown
  | _ => .word text

/-- Can an argument be the value of the option? -/
def Argument.isValue (text : String) : Bool := Argument.ofText text matches .word _

/-! ## The option -/

/-- What the arguments said of the option so far. A value in an argument of its own is judged when
the next option comes, or at the end. -/
structure Choice where
  settled : Option String
  pending : Option String

namespace Choice

def unnamed : Choice := ⟨none, none⟩

/-- The option may be named once, with a value that is not empty. -/
def settle? (c : Choice) : Option Choice :=
  match c.pending with
  | none => some c
  | some path => if c.settled.isSome || path.isEmpty then none else some ⟨some path, none⟩

/-- The option is named, after what was said of it before was judged. -/
def name? (c : Choice) (path : String) : Option Choice :=
  c.settle?.map fun c => { c with pending := some path }

end Choice

/-! ## Lines -/

/-- What help is asked for by the words behind the help command. -/
def topic? : List String → Option Topic
  | [] => some .program
  | [word] => if word = "help" then some .help else (Command.ofName? word).map .command
  | _ => none

/-- The request for a command, at the end of the arguments. -/
def conclude (command : Option Command) (choice : Choice) : Option Request := do
  return .perform (← command) (← choice.settle?).settled

/-- Reads arguments, behind a command or before one. The option's value behind the command counts
more than the one before it. -/
def arguments (command : Option Command) (choice : Choice) : List String → Option Request
  | [] => conclude command choice
  | arg :: rest =>
    match Argument.ofText arg, rest with
    | .path value, rest => do arguments command (← (← choice.name? value).settle?) rest
    | .pathFollows, value :: rest => do
      if Argument.isValue value then arguments command (← choice.name? value) rest else none
    | .help, _ => choice.settle?.map fun _ => .help ((command.map .command).getD .program)
    | .version, _ =>
      match command with
      | none => choice.settle?.map fun _ => .version
      | some _ => none
    | .separator, [] => conclude command choice
    | .word word, rest =>
      match command with
      | some _ => none
      | none => do
        if word = "help" then return .help (← topic? rest)
        match ← arguments (← Command.ofName? word) .unnamed rest with
        | .perform c path => return .perform c (path.or (← choice.settle?).settled)
        | request => return request
    | _, _ => none

def parse (args : List String) : Option Request := arguments none .unnamed args

/-! ## Texts -/

def versionLine : String := "tether 0.2.3"

def about : Command → String
  | .keygen => "Generate a new secret key and print it with its peer address"
  | .address => "Print the peer address derived from the configured secret key"
  | .run => "Run a peer until interrupted"

def optionHelp : List String :=
  ["", "Options:",
    "      --config <CONFIG>  Path to config file (defaults to ~/.tether/config.toml)",
    "  -h, --help             Print help"]

def help : Topic → List String
  | .program =>
    ["Tether: authenticated peer-to-peer service sessions", "",
      "Usage: tether [OPTIONS] <COMMAND>", "",
      "Commands:",
      "  keygen   " ++ about .keygen,
      "  address  " ++ about .address,
      "  run      " ++ about .run,
      "  help     Print this message or the help of the given subcommand(s)"]
      ++ optionHelp ++ ["  -V, --version          Print version"]
  | .command c => [about c, "", "Usage: tether " ++ c.name ++ " [OPTIONS]"] ++ optionHelp
  | .help =>
    ["Print this message or the help of the given subcommand(s)", "",
      "Usage: tether help [COMMAND]...", "",
      "Arguments:",
      "  [COMMAND]...  Print help for the subcommand(s)"]

/-! ## Outcomes -/

/-- What the program prints, why it fails, if it does, and its exit code. -/
structure Outcome where
  lines : List String
  failure : Option String
  code : Nat

/-- What comes of a request, or of a usage error. `read` gives the contents of the settings file at
a path, or at the default path. -/
def outcome (request : Option Request) (read : Option String → Option Bytes) (drawn : Keypair)
    (bind : SocketAddress → Except String SocketAddress) : Outcome :=
  match request with
  | none => { lines := [], failure := none, code := 2 }
  | some (.help topic) => { lines := help topic, failure := none, code := 0 }
  | some .version => { lines := [versionLine], failure := none, code := 0 }
  | some (.perform c path) =>
    let settings := Settings.ofFile (read path)
    match c.perform settings drawn (bind settings.listenAddress) with
    | .ok lines => { lines, failure := none, code := 0 }
    | .error why => { lines := [], failure := some ("Error: " ++ why), code := 1 }

end CommandLine

end PeerServices
