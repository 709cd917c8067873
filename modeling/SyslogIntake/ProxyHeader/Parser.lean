import SyslogIntake.ProxyHeader.Text
import SyslogIntake.ProxyHeader.Binary
import SyslogIntake.Stream.Inquiry

/-!
# Finding a header

Octets that begin with a signature are parsed as a header of that form.  Octets that can
still become a signature are incomplete, and all others begin with no header.  A stage
that looks for a header takes its octets off the stream and leaves everything else.  At
the end of the stream a signature makes a header that was cut off; less than that is
payload, unless a header is required.
-/

namespace SyslogIntake
namespace ProxyHeader

/-- What stands at the front of octets. -/
def parse (text : Octets) : Except Fault Outcome :=
  if binarySignature.isPrefixOf text then parseBinary text
  else if textSignature.isPrefixOf text then parseText text
  else if mayBecomeSignature text then .ok (.incomplete (signatureLength text))
  else .ok .absent

/-- What a stage that looks for a header came to. -/
abbrev Search := Except Fault (Option ProxyHeader)

/-- Look for a header in the octets read ahead. -/
def look (required : Bool) (text : Octets) : Looked Unit Search :=
  match parse text with
  | .error fault => .settled (.error fault) text
  | .ok (.complete header length) => .settled (.ok (some header)) (text.drop length)
  | .ok .absent =>
      .settled (if required then .error (.header .missing) else .ok none) text
  | .ok (.incomplete _) => .wanting () text

/-- Decide what octets that may become a header are at the end of the stream. -/
def finish (required : Bool) (text : Octets) : Search :=
  if text = [] then .ok none
  else if signatureLength text ≤ text.length then .error (.header (.cutOff text.length))
  else if required then .error (.header .endedBefore)
  else .ok none

def inquiry (required : Bool) : Inquiry Unit Search :=
  ⟨fun _ text => look required text, fun _ text => (finish required text, text)⟩

end ProxyHeader
end SyslogIntake
