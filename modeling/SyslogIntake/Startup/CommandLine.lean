import SyslogIntake.Settings.Overrides
import SyslogIntake.Text.Numeral

/-!
# The command line

The words of a command line are read from left to right.  Options have a long name behind two
hyphens and may have a letter behind one; each takes a value, behind an equals sign, in the
next word or, for a letter, right behind it.  An option may be given once.  A question for
help or for the version is answered as soon as it is met, and ends the program.
-/

namespace SyslogIntake

/-- An option of the command line that takes a value. -/
inductive Switch
  | configFile
  | listen
  | transport
  | framing
  | tlsKey
  | tlsCert
  | tlsCa
  | peerVerify
  | maxMessageSize
  | output
  | logLevel
  deriving DecidableEq, Repr

/-- A question that ends the program. -/
inductive Notice
  | help
  | version
  deriving DecidableEq, Repr

namespace Switch

def all : List Switch :=
  [.configFile, .listen, .transport, .framing, .tlsKey, .tlsCert, .tlsCa, .peerVerify,
    .maxMessageSize, .output, .logLevel]

def name : Switch → String
  | .configFile => "config-file"
  | .listen => "listen"
  | .transport => "transport"
  | .framing => "framing"
  | .tlsKey => "tls-key"
  | .tlsCert => "tls-cert"
  | .tlsCa => "tls-ca"
  | .peerVerify => "peer-verify"
  | .maxMessageSize => "max-message-size"
  | .output => "output"
  | .logLevel => "log-level"

def letter? : Switch → Option Char
  | .configFile => some 'c'
  | .listen => some 'l'
  | .transport => some 't'
  | .output => some 'o'
  | .framing | .tlsKey | .tlsCert | .tlsCa | .peerVerify | .maxMessageSize | .logLevel => none

def ofName? (name : String) : Option Switch :=
  all.find? fun switch => switch.name == name

def ofLetter? (c : Char) : Option Switch :=
  all.find? fun switch => switch.letter? == some c

end Switch

namespace Notice

def ofName? (name : String) : Option Notice :=
  if name = "help" then some .help
  else if name = "version" then some .version
  else none

def ofLetter? (c : Char) : Option Notice :=
  if c = 'h' then some .help
  else if c = 'V' then some .version
  else none

end Notice

/-- What a command line asks for: a file of settings, and overrides. -/
structure CommandLine where
  configFile : Option String
  overrides : Overrides
  deriving DecidableEq, Repr

namespace CommandLine

/-- Nothing is asked for. -/
def none : CommandLine :=
  ⟨.none, .none⟩

/-- Why a command line does not lead to a running program. -/
inductive Stop
  | told (notice : Notice)
  | misuse
  deriving DecidableEq, Repr

/-- A value that is given for the first time. -/
def once {α : Type} (held found : Option α) : Option (Option α) :=
  match held, found with
  | .none, .some value => .some (.some value)
  | _, _ => .none

def path? (value : String) : Option String :=
  if value = "" then .none else .some value

def count? (value : String) : Option UInt64 :=
  (Numeral.readUpTo 18446744073709551615 value.toList).map UInt64.ofNat

/-- A command line with the value of an option, if the option can have it. -/
def give (c : CommandLine) (switch : Switch) (value : String) : Option CommandLine :=
  let o := c.overrides
  let onto := fun (overrides : Overrides) => { c with overrides }
  match switch with
  | .configFile => (once c.configFile (path? value)).map fun configFile => { c with configFile }
  | .listen => (once o.listen (.some value)).map fun listen => onto { o with listen }
  | .transport =>
      (once o.transport (Transport.find? value)).map fun transport => onto { o with transport }
  | .framing =>
      (once o.framing (FramingPolicy.find? value)).map fun framing => onto { o with framing }
  | .tlsKey => (once o.keyFile (path? value)).map fun keyFile => onto { o with keyFile }
  | .tlsCert => (once o.certFile (path? value)).map fun certFile => onto { o with certFile }
  | .tlsCa => (once o.caFile (path? value)).map fun caFile => onto { o with caFile }
  | .peerVerify =>
      (once o.peerVerify (PeerVerify.find? value)).map fun peerVerify =>
        onto { o with peerVerify }
  | .maxMessageSize =>
      (once o.maxMessageSize (count? value)).map fun maxMessageSize =>
        onto { o with maxMessageSize }
  | .output => (once o.output (path? value)).map fun output => onto { o with output }
  | .logLevel => (once o.logLevel (.some value)).map fun logLevel => onto { o with logLevel }

/-- What a word of the command line is. -/
inductive Word
  | long (name : String) (value : Option String)
  | short (letters : List Char)
  | divider
  | plain
  deriving DecidableEq, Repr

def Word.ofText (text : List Char) : Word :=
  match text with
  | ['-', '-'] => .divider
  | '-' :: '-' :: rest =>
      let name := String.ofList (rest.takeWhile (· != '='))
      match rest.dropWhile (· != '=') with
      | [] => .long name .none
      | _ :: value => .long name (.some (String.ofList value))
  | '-' :: c :: rest => .short (c :: rest)
  | _ => .plain

/-- What a word asks for. -/
inductive Asked
  | value (switch : Switch) (value : Option String)
  | notice (notice : Notice)
  | divider
  | misuse
  deriving DecidableEq, Repr

/-- The value that stands right behind a letter. -/
def attached : List Char → Option String
  | [] => .none
  | '=' :: rest => .some (String.ofList rest)
  | rest => .some (String.ofList rest)

/-- A word as an option, a question or neither. -/
def Word.asks : Word → Asked
  | .long name value =>
      match Switch.ofName? name, Notice.ofName? name, value with
      | .some switch, _, value => .value switch value
      | .none, .some notice, .none => .notice notice
      | .none, _, _ => .misuse
  | .short (c :: rest) =>
      match Switch.ofLetter? c, Notice.ofLetter? c with
      | .some switch, _ => .value switch (attached rest)
      | .none, .some notice => .notice notice
      | .none, .none => .misuse
  | .divider => .divider
  | .short [] | .plain => .misuse

/-- Whether a word can be the value of the option in front of it. -/
def isValue (word : String) : Bool :=
  Word.ofText word.toList == .plain

/-- What a row of words asks for on top of what was asked for in front of them. -/
def readOnto (c : CommandLine) : List String → Except Stop CommandLine
  | [] => .ok c
  | [word] =>
      match (Word.ofText word.toList).asks with
      | .divider => .ok c
      | .notice notice => .error (.told notice)
      | .value switch (.some value) =>
          match c.give switch value with
          | .some c => .ok c
          | .none => .error .misuse
      | .value _ .none | .misuse => .error .misuse
  | word :: next :: rest =>
      match (Word.ofText word.toList).asks with
      | .notice notice => .error (.told notice)
      | .value switch (.some value) =>
          match c.give switch value with
          | .some c => c.readOnto (next :: rest)
          | .none => .error .misuse
      | .value switch .none =>
          if isValue next then
            match c.give switch next with
            | .some c => c.readOnto rest
            | .none => .error .misuse
          else .error .misuse
      | .divider | .misuse => .error .misuse

/-- What a command line asks for. -/
def read (words : List String) : Except Stop CommandLine :=
  none.readOnto words

end CommandLine
end SyslogIntake
