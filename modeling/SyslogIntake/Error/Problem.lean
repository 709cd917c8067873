import SyslogIntake.Options
import SyslogIntake.Address.Reader
import SyslogIntake.Json.Flaw
import SyslogIntake.Settings.KeyPath

/-!
# Problems with settings

Why settings cannot be read, combined or used, and the sentence for each.

**Results.**

* `Problem.crashes_iff` : only an index without a position brings the program down.
-/

namespace SyslogIntake

/-- The kinds of problems. -/
inductive ProblemKind
  | fileNotFound
  | unreadable
  | invalidValue
  | missingValue
  | invalidCombination
  deriving DecidableEq, Repr

def ProblemKind.sentence : ProblemKind → String → String
  | .fileNotFound, detail => s!"File not found: {detail}"
  | .unreadable, detail => s!"Error parsing configuration: {detail}"
  | .invalidValue, detail => s!"Invalid value for {detail}"
  | .missingValue, detail => s!"Missing required configuration value: {detail}"
  | .invalidCombination, detail =>
      s!"Invalid combination of configuration options: {detail}"

/-- An option and what is wrong with its value. -/
def ofOption (option detail : String) : String :=
  s!"'{option}': {detail}"

/-- A text that is no endpoint. -/
structure BadAddress where
  text : String
  flaw : Address.Flaw
  deriving DecidableEq, Repr

/-- What is wrong with a text that should be an endpoint. -/
def BadAddress.detail (bad : BadAddress) : String :=
  "Failed to parse address " ++ bad.text ++ ": " ++ bad.flaw.message

/-- A text that is none of the words of an option. -/
structure BadWord where
  option : String
  text : String
  words : List String
  deriving DecidableEq, Repr

/-- What is wrong with the value of an option that has words. -/
def BadWord.detail (bad : BadWord) : String :=
  ofOption bad.option
    (bad.text ++ ". Valid values are: " ++ ", ".intercalate bad.words)

def Transport.read (text : String) : Except BadWord Transport :=
  match Transport.find? text with
  | some transport => .ok transport
  | none => .error ⟨"transport", text, Transport.all.map Transport.word⟩

def FramingPolicy.read (text : String) : Except BadWord FramingPolicy :=
  match FramingPolicy.find? text with
  | some policy => .ok policy
  | none => .error ⟨"framing", text, FramingPolicy.all.map FramingPolicy.word⟩

def PeerVerify.read (text : String) : Except BadWord PeerVerify :=
  match PeerVerify.find? text with
  | Option.some demand => .ok demand
  | Option.none => .error ⟨"peer_verify", text, PeerVerify.all.map PeerVerify.word⟩

/-- A limit that must not be zero. -/
inductive Limit
  | messageSize
  | dataTimeout
  | handshakeTimeout
  | connections
  deriving DecidableEq, Repr

def Limit.option : Limit → String
  | .messageSize => "max_message_size"
  | .dataTimeout => "initial_data_timeout"
  | .handshakeTimeout => "handshake_timeout"
  | .connections => "max_connections"

def Limit.title : Limit → String
  | .messageSize => "Maximum message size"
  | .dataTimeout => "Initial data timeout"
  | .handshakeTimeout => "Handshake timeout"
  | .connections => "Maximum connections"

/-- Why a value is not what an option wants, or a file does not hold settings. -/
inductive Misfit
  | type (found wanted : String)
  | value (found wanted : String)
  | conversion (found wanted : String) (place : List KeyStep) (origin : Option String)
  | missingField (name : String)
  | tooShort (length wanted : Nat)
  | tooLong (length : Nat)
  | word (bad : BadWord)
  | address (bad : BadAddress)
  | notText
  | notJson (flaw : Json.Flaw) (origin : String)
  | notTable (found origin : String)
  | noFile (path : String)
  | noPosition
  deriving DecidableEq, Repr

namespace Misfit

/-- The part of a text that names an origin. -/
def originText : Option String → String
  | none => ""
  | some origin => s!" in {origin}"

/-- What is wrong with a value. -/
def detail : Misfit → String
  | .type found wanted => s!"invalid type: {found}, expected {wanted}"
  | .value found wanted => s!"invalid value: {found}, expected {wanted}"
  | .conversion found wanted place origin =>
      s!"invalid type: {found}, expected {wanted} for key `" ++ KeyStep.text place ++ "`" ++
        originText origin
  | .missingField name => s!"missing field `{name}`"
  | .tooShort length wanted =>
      "invalid length " ++ Numeral.decimal length ++ ", expected struct TlsConfig with " ++
        Numeral.decimal wanted ++ " elements"
  | .tooLong length =>
      "invalid length " ++ Numeral.decimal length ++ ", expected fewer elements in array"
  | .word bad => ProblemKind.invalidValue.sentence bad.detail
  | .address bad => "Configuration error: " ++ bad.detail
  | .notText => "stream did not contain valid UTF-8"
  | .notJson flaw origin => flaw.text ++ originText (some origin)
  | .notTable found origin =>
      s!"invalid type: {found}, expected a map in {origin} in {origin}"
  | .noFile path => "configuration file \"" ++ path ++ "\" not found"
  | .noPosition => "an index has no position in its list"

/-- A misfit of a part, seen from the whole: a conversion keeps the steps that lead to it. -/
def under (step : KeyStep) : Misfit → Misfit
  | .conversion found wanted place origin => .conversion found wanted (step :: place) origin
  | misfit => misfit

/-- A misfit that learns the origin of what is at its place. -/
def located (originAt : List KeyStep → Option String) : Misfit → Misfit
  | .conversion found wanted place _ => .conversion found wanted place (originAt place)
  | misfit => misfit

end Misfit

/-- A problem with settings. -/
inductive Problem
  | fileNotFound (path : String)
  | unreadable (misfit : Misfit)
  | word (bad : BadWord)
  | listen (bad : BadAddress)
  | zero (limit : Limit)
  | missing (option : String)
  | needsTls (transport : Transport)
  | needsAuthorities (demand : PeerVerify)
  deriving DecidableEq, Repr

namespace Problem

def kind : Problem → ProblemKind
  | .fileNotFound _ => .fileNotFound
  | .unreadable _ => .unreadable
  | .word _ | .listen _ | .zero _ => .invalidValue
  | .missing _ => .missingValue
  | .needsTls _ | .needsAuthorities _ => .invalidCombination

def detail : Problem → String
  | .fileNotFound path => path
  | .unreadable misfit => misfit.detail
  | .word bad => bad.detail
  | .listen bad => ofOption "listen" ("Configuration error: " ++ bad.detail)
  | .zero limit => ofOption limit.option (limit.title ++ " must be greater than 0")
  | .missing option => option
  | .needsTls transport =>
      "transport '" ++ transport.word ++ "' requires a tls block with key_file and cert_file"
  | .needsAuthorities demand => "peer_verify '" ++ demand.word ++ "' requires ca_file"

def message (problem : Problem) : String :=
  problem.kind.sentence problem.detail

/-- Whether a problem brings the program down before it can be reported. -/
def crashes : Problem → Bool
  | .unreadable .noPosition => true
  | _ => false

/-- Only an index without a position brings the program down. -/
theorem crashes_iff
    {problem : Problem} :
    problem.crashes = true ↔ problem = .unreadable .noPosition := by
  constructor
  · intro h
    unfold crashes at h
    split at h <;> simp_all
  · rintro rfl
    rfl

end Problem
end SyslogIntake
