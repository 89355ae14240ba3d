import Mathlib.Tactic

namespace CoreVpn.Auth.Errors

inductive AuthError where
  | discoveryFailed (message : String)
  | sessionNotFound
  | configError (message : String)
  deriving DecidableEq, Repr

end CoreVpn.Auth.Errors
