import SyslogIntake.Error.Problem
import SyslogIntake.Json.Basic
import SyslogIntake.Number.Shortest
import SyslogIntake.Settings.Basic
import SyslogIntake.Text.Quoted

/-!
# Reading settings

Settings are read from a JSON value: an object whose members are options, or an array
with the options in their order.  Options that nobody knows are passed over, and
options that are missing keep their defaults; only a key and a certificate have none.

There are two ways to take a single value.  The strict one wants the very kind of value
that an option holds.  The lenient one, for files and variables, converts between texts,
numbers and truth values.

**Results.**

* `Reading.strict_count_ofNat` : the strict way takes a count as it is;
* `Reading.text_string` : both ways take a text as it is.
-/

namespace SyslogIntake

namespace Json

/-- What a value is called where a value of another kind must be; `real` writes doubles. -/
def kindText (real : Binary64 → String) : Json → String
  | .null => "null"
  | .bool true => "boolean `true`"
  | .bool false => "boolean `false`"
  | .whole n => "integer `" ++ Numeral.signed n ++ "`"
  | .real x => "floating point `" ++ real x ++ "`"
  | .string s => "string " ++ Text.quoted s
  | .array _ => "sequence"
  | .object _ => "map"

/-- What a value is called that cannot be converted. -/
def foundText : Json → String
  | .null => "unit value"
  | .whole n => "64-bit integer `" ++ Numeral.signed n ++ "`"
  | v => v.kindText Binary64.plain

/-- The largest whole number of a file; those above are only kept as doubles. -/
def mostWhole : Int := 9223372036854775807

/-- A number as files hold it. -/
def narrowed : Json → Json
  | .whole n => if n ≤ mostWhole then .whole n else .real (Binary64.ofNat n.toNat)
  | v => v

end Json

/-- A way to take single values. -/
structure Reading where
  count : String → Json → Except Misfit UInt64
  text : String → Json → Except Misfit String
  kindText : Json → String
  allowsSurplus : Bool

namespace Reading

/-- A value of the wrong kind, for a reader that wants the very kind. -/
def misfit {α : Type} (wanted : String) (v : Json) : Except Misfit α :=
  .error (.type (v.kindText Binary64.pointed) wanted)

/-- A count is a whole number that is not negative. -/
def strictCount (wanted : String) : Json → Except Misfit UInt64
  | .whole n =>
      if 0 ≤ n then .ok (UInt64.ofNat n.toNat)
      else .error (.value ((Json.whole n).kindText Binary64.pointed) wanted)
  | v => misfit wanted v

/-- A text is a text. -/
def strictText (wanted : String) : Json → Except Misfit String
  | .string s => .ok s
  | v => misfit wanted v

def strict : Reading :=
  ⟨strictCount, strictText, Json.kindText Binary64.pointed, false⟩

/-- The count that a text stands for: a truth value by one of its names, or a number. -/
def countOfText? (s : String) : Option Nat :=
  let word := Text.folded s
  if word = "true" ∨ word = "on" ∨ word = "yes" then some 1
  else if word = "false" ∨ word = "off" ∨ word = "no" then some 0
  else Numeral.readUpTo Binary64.mostCount s.toList

/-- A value that cannot be converted. -/
def unconverted {α : Type} (wanted : String) (v : Json) : Except Misfit α :=
  .error (.conversion v.foundText wanted [] none)

/-- What every count is called when a value cannot be converted to one. -/
def countKind : String := "an integer"

/-- What a negative number is not. -/
def unsignedKind : String := "an unsigned 64 bit or less integer"

def textKind : String := "a string"

/-- A count from any value that stands for one. -/
def lenientCount (v : Json) : Except Misfit UInt64 :=
  match v.narrowed with
  | .whole n =>
      if 0 ≤ n then .ok (UInt64.ofNat n.toNat) else unconverted unsignedKind (.whole n)
  | .bool b => .ok (if b then 1 else 0)
  | .real x => .ok (UInt64.ofNat x.toCount)
  | .string s =>
      match countOfText? s with
      | some n => .ok (UInt64.ofNat n)
      | none => unconverted countKind (.string s)
  | other => unconverted countKind other

/-- A text from any value that has a text. -/
def lenientText (v : Json) : Except Misfit String :=
  match v.narrowed with
  | .whole n => .ok (Numeral.signed n)
  | .bool b => .ok (if b then "true" else "false")
  | .real x => .ok x.plain
  | .string s => .ok s
  | other => unconverted textKind other

def lenient : Reading :=
  ⟨fun _ => lenientCount, fun _ => lenientText, fun v => v.narrowed.kindText Binary64.fractional,
    true⟩

/-- A value that is no block of options. -/
def noBlock {α : Type} (reading : Reading) (wanted : String) (v : Json) : Except Misfit α :=
  .error (.type (reading.kindText v) wanted)

/-- What counts are called whose size depends on the machine. -/
def sizeKind : String := "usize"

/-- What counts of seconds are called. -/
def secondsKind : String := "u64"

def pathKind : String := "path string"

def path (reading : Reading) (v : Json) : Except Misfit String :=
  reading.text pathKind v

def path? (reading : Reading) : Json → Except Misfit (Option String)
  | .null => .ok none
  | v => (reading.path v).map some

/-- A text with a meaning. -/
def meaning {α β : Type} (reading : Reading) (find : String → Except β α) (why : β → Misfit)
    (v : Json) : Except Misfit α :=
  match reading.text textKind v with
  | .error misfit => .error misfit
  | .ok s => (find s).mapError why

def endpoint (reading : Reading) (v : Json) : Except Misfit Endpoint :=
  match reading.text textKind v with
  | .error misfit => .error misfit
  | .ok s => (Address.find s).mapError fun flaw => .address ⟨s, flaw⟩

theorem strict_count_ofNat
    (wanted : String)
    (n : Nat) :
    strict.count wanted (.ofNat n) = .ok (UInt64.ofNat n) := by
  simp [strict, strictCount, Json.ofNat]

/-- Both ways take a text as it is. -/
theorem text_string
    (wanted s : String) :
    strict.text wanted (.string s) = .ok s ∧ lenient.text wanted (.string s) = .ok s :=
  ⟨rfl, rfl⟩

end Reading

/-- An option: its name, and how its value is put into what is being read. -/
structure Field (σ : Type) where
  name : String
  set : Reading → Json → σ → Except Misfit σ

namespace Field

variable {σ : Type}

/-- Put the value of an option, which stands behind a step, into what is being read. -/
def take (field : Field σ) (reading : Reading) (step : KeyStep) (v : Json) (held : σ) :
    Except Misfit σ :=
  (field.set reading v held).mapError (Misfit.under step)

/-- Take the members of an object one after the other. -/
def readMembers (fields : List (Field σ)) (reading : Reading) :
    List (String × Json) → σ → Except Misfit σ
  | [], held => .ok held
  | (name, v) :: rest, held =>
      match fields.find? fun field => field.name == name with
      | none => readMembers fields reading rest held
      | some field =>
          match field.take reading (.member name) v held with
          | .error misfit => .error misfit
          | .ok held => readMembers fields reading rest held

/-- Take the items of an array in the order of the options, from some index on. -/
def readItems (reading : Reading) (index : Nat) :
    List (Field σ) → List Json → σ → Except Misfit σ
  | field :: fields, v :: rest, held =>
      match field.take reading (.item index) v held with
      | .error misfit => .error misfit
      | .ok held => readItems reading (index + 1) fields rest held
  | _, _, held => .ok held

end Field

/-- TLS settings while they are being read. -/
structure TlsDraft where
  keyFile : Option String
  certFile : Option String
  caFile : Option String
  peerVerify : PeerVerify

namespace TlsSettings

/-- The options of a TLS block in their order. -/
def fields : List (Field TlsDraft) :=
  [⟨"key_file", fun reading v held =>
      (reading.path v).map fun found => { held with keyFile := some found }⟩,
    ⟨"cert_file", fun reading v held =>
      (reading.path v).map fun found => { held with certFile := some found }⟩,
    ⟨"ca_file", fun reading v held =>
      (reading.path? v).map fun found => { held with caFile := found }⟩,
    ⟨"peer_verify", fun reading v held =>
      (reading.meaning PeerVerify.read .word v).map fun found =>
        { held with peerVerify := found }⟩]

/-- TLS settings of which nothing has been read. -/
def emptyDraft : TlsDraft :=
  ⟨none, none, none, defaultPeerVerify⟩

/-- The settings of a draft that has a key and a certificate. -/
def ofDraft (draft : TlsDraft) : Except String TlsSettings :=
  match draft.keyFile, draft.certFile with
  | some keyFile, some certFile => .ok ⟨keyFile, certFile, draft.caFile, draft.peerVerify⟩
  | none, _ => .error "key_file"
  | some _, none => .error "cert_file"

def kind : String := "struct TlsConfig"

def read (reading : Reading) : Json → Except Misfit TlsSettings
  | .object members =>
      match Field.readMembers fields reading members emptyDraft with
      | .error misfit => .error misfit
      | .ok draft => (ofDraft draft).mapError .missingField
  | .array items =>
      match Field.readItems reading 0 fields items emptyDraft with
      | .error misfit => .error misfit
      | .ok draft =>
          if fields.length < items.length ∧ !reading.allowsSurplus then
            .error (.tooLong items.length)
          else
            (ofDraft draft).mapError fun _ => .tooShort items.length fields.length
  | v => reading.noBlock kind v

def read? (reading : Reading) : Json → Except Misfit (Option TlsSettings)
  | .null => .ok none
  | v => (read reading v).map some

end TlsSettings

namespace Settings

/-- An option that holds a count. -/
def countField (name kind : String) (put : UInt64 → Settings → Settings) : Field Settings :=
  ⟨name, fun reading v held => (reading.count kind v).map fun found => put found held⟩

/-- The options of a source in their order. -/
def fields : List (Field Settings) :=
  [⟨"listen", fun reading v held =>
      (reading.endpoint v).map fun found => { held with listen := found }⟩,
    ⟨"transport", fun reading v held =>
      (reading.meaning Transport.read .word v).map fun found => { held with transport := found }⟩,
    ⟨"framing", fun reading v held =>
      (reading.meaning FramingPolicy.read .word v).map fun found => { held with framing := found }⟩,
    ⟨"tls", fun reading v held =>
      (TlsSettings.read? reading v).map fun found => { held with tls := found }⟩,
    countField "max_message_size" Reading.sizeKind fun n held => { held with maxMessageSize := n },
    countField "initial_data_timeout" Reading.secondsKind fun n held =>
      { held with initialDataTimeout := n },
    countField "handshake_timeout" Reading.secondsKind fun n held =>
      { held with handshakeTimeout := n },
    countField "max_connections" Reading.sizeKind fun n held => { held with maxConnections := n },
    countField "shutdown_timeout" Reading.secondsKind fun n held =>
      { held with shutdownTimeout := n },
    ⟨"output", fun reading v held =>
      (reading.path v).map fun found => { held with output := found }⟩,
    ⟨"log_level", fun reading v held =>
      (reading.text Reading.textKind v).map fun found => { held with logLevel := found }⟩]

def kind : String := "struct SourceConfig"

/-- The settings that a value holds, with defaults for what it does not. -/
def ofJson (reading : Reading) : Json → Except Misfit Settings
  | .object members => Field.readMembers fields reading members default
  | .array items =>
      match Field.readItems reading 0 fields items default with
      | .error misfit => .error misfit
      | .ok settings =>
          if fields.length < items.length ∧ !reading.allowsSurplus then
            .error (.tooLong items.length)
          else
            .ok settings
  | v => reading.noBlock kind v

end Settings
end SyslogIntake
