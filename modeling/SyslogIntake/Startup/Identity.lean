/-!
# The program

What the program is called, and which version of it this is.
-/

namespace SyslogIntake
namespace Program

def name : String := "syslog-autodetect"

def version : String := "0.1.0"

def title : String :=
  name ++ " v" ++ version

end Program
end SyslogIntake
