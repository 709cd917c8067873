import SyslogIntake.Files.Tree
import SyslogIntake.Journal
import SyslogIntake.Tls.Certificate

/-!
# Certificate files

A certificate is read from a file; what its octets mean is up to the TLS library, which is
only known by its answer.  What cannot be found out about the certificate of a source is
worth a warning and no more.
-/

namespace SyslogIntake
namespace Certificate

/-- How a TLS library understands the octets of a certificate file. -/
abbrev Understanding := Octets → Except String Certificate

def ofFile (understand : Understanding) (tree : FileTree) (path : String) :
    Except Fault Certificate :=
  match tree.read path with
  | .error problem => .error (.certificate (.notRead problem.report))
  | .ok held => (understand held).mapError fun report => .certificate (.notParsed report)

def subjectOfFile (understand : Understanding) (tree : FileTree) (path : String) :
    Except Fault String :=
  (ofFile understand tree path).map subjectLine

def fingerprintOfFile (understand : Understanding) (tree : FileTree) (path : String) :
    Except Fault String :=
  (ofFile understand tree path).bind fingerprint

/-- The line about something that was found out, or not, about a certificate. -/
def findingEntry (title : String) : Except Fault String → Entry
  | .ok text => ⟨.info, "Certificate " ++ title ++ ": " ++ text⟩
  | .error fault => ⟨.warn, "Unable to get certificate " ++ title ++ ": " ++ fault.message⟩

/-- What the journal says about the certificate of a source. -/
def entriesOfFile (understand : Understanding) (tree : FileTree) (path : String) : List Entry :=
  [findingEntry "subject" (subjectOfFile understand tree path),
    findingEntry "fingerprint" (fingerprintOfFile understand tree path)]

end Certificate
end SyslogIntake
