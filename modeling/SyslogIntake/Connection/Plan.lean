import SyslogIntake.Options

/-!
# Plans

A plan says which stages the connections of a source go through: a header on the raw
stream, a session, and a header as the first octets inside the session.  A stage is left
out, tried, or required.

**Results.**

* `ofTransport_session` : a transport that requires a session has a required stage for it.
-/

namespace SyslogIntake

/-- Whether a stage is looked for, and whether it must be there. -/
inductive StagePolicy
  | disabled
  | optional
  | required
  deriving DecidableEq, Repr

def StagePolicy.word : StagePolicy → String
  | .disabled => "disabled"
  | .optional => "optional"
  | .required => "required"

def StagePolicy.isEnabled (policy : StagePolicy) : Bool :=
  policy != .disabled

/-- The stages that connections go through. -/
structure Plan where
  outerProxy : StagePolicy
  tls : StagePolicy
  innerProxy : StagePolicy
  deriving DecidableEq, Repr

namespace Plan

/-- The plan of a transport, with or without a certificate. -/
def ofTransport (transport : Transport) (tlsAvailable : Bool) : Plan :=
  match transport, tlsAvailable with
  | .tcp, _ => ⟨.disabled, .disabled, .disabled⟩
  | .tls, _ => ⟨.disabled, .required, .disabled⟩
  | .auto, true => ⟨.optional, .optional, .optional⟩
  | .auto, false => ⟨.optional, .disabled, .disabled⟩
  | .proxiedTcp, _ => ⟨.required, .disabled, .disabled⟩
  | .proxiedTls, _ => ⟨.disabled, .required, .required⟩
  | .proxiedTlsPassthrough, _ => ⟨.required, .required, .disabled⟩

def summary (plan : Plan) : String :=
  "DetectionPlan \x7b outer_proxy: " ++ Text.nameOf plan.outerProxy.word ++
    ", tls: " ++ Text.nameOf plan.tls.word ++
    ", inner_proxy: " ++ Text.nameOf plan.innerProxy.word ++ " \x7d"

/-- A transport that requires a session has a required stage for it. -/
theorem ofTransport_session
    (transport : Transport)
    (tlsAvailable : Bool) :
    (ofTransport transport tlsAvailable).tls = .required ↔ transport.requiresTls = true := by
  cases transport <;> cases tlsAvailable <;> decide

end Plan
end SyslogIntake
